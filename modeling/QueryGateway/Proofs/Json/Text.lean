import QueryGateway.Json.Reader
import QueryGateway.Proofs.Json.Numbers
import QueryGateway.Proofs.Json.Repeated

namespace QueryGateway.Json
set_option autoImplicit true

open Sql (Stops)

theorem readString_plain (hq : c ≠ '"') (hb : c ≠ '\\') (hc : ¬ c.toNat < 0x20)
    (ht : readString cs = some (t, rest)) : readString (c :: cs) = some (c :: t, rest) := by
  have hno : (c == '\\' || decide (c.toNat < 0x20)) = false := by
    rw [beq_false_of_ne hb, decide_eq_false hc]
    rfl
  rw [readString.eq_6 c cs hq (fun _ _ _ _ _ _ _ _ _ h _ => hb h) (fun _ _ _ _ _ h _ => hb h) (fun _ _ h _ => hb h),
    if_neg (by rw [hno]; exact Bool.false_ne_true), ht]
  rfl

theorem readString_escaped (hu : c ≠ 'u') (hc : escaped? c = some d) (ht : readString cs = some (t, rest)) :
    readString ('\\' :: c :: cs) = some (d :: t, rest) := by
  rw [readString.eq_5 c cs (fun _ _ _ _ _ _ _ _ _ h _ => hu h) (fun _ _ _ _ _ h _ => hu h), hc, ht]
  rfl

theorem hexQuad?_of_readString (h : readString ('\\' :: 'u' :: a :: b :: c :: d :: cs) = some r) :
    ∃ n, hexQuad? a b c d = some n := by
  cases hq : hexQuad? a b c d with
  | some n => exact ⟨n, rfl⟩
  | none =>
    rw [readString.eq_def] at h
    split at h
    · next heq => cases heq
    · next heq => cases heq
    · next heq =>
      cases heq
      rw [hq] at h
      cases h
    · next heq =>
      cases heq
      rw [hq] at h
      cases h
    · next hnot heq =>
      cases heq
      exact (hnot a b c d cs rfl rfl).elim
    · next hnot heq =>
      cases heq
      exact (hnot 'u' _ rfl rfl).elim

theorem readString_unit (hq : hexQuad? a b c d = some n) (hn : n < 0xD800) (ht : readString cs = some (t, rest)) :
    readString ('\\' :: 'u' :: a :: b :: c :: d :: cs) = some (Char.ofNat n :: t, rest) := by
  have hhigh : isHighSurrogate n = false := by
    rw [isHighSurrogate, decide_eq_false (by omega)]
    rfl
  have hlow : isLowSurrogate n = false := by
    rw [isLowSurrogate, decide_eq_false (by omega)]
    rfl
  by_cases hpair : ∃ e f g h cs', cs = '\\' :: 'u' :: e :: f :: g :: h :: cs'
  · obtain ⟨e, f, g, h, cs', rfl⟩ := hpair
    obtain ⟨m, hm⟩ := hexQuad?_of_readString ht
    rw [readString.eq_3, hq, hm, ht]
    simp only [Option.bind_eq_bind, Option.bind_some, hhigh, hlow, Bool.false_eq_true, if_false]
    rfl
  · rw [readString.eq_4 a b c d cs fun e f g h cs' heq => hpair ⟨e, f, g, h, cs', heq⟩, hq, ht]
    simp only [Option.bind_eq_bind, Option.bind_some, hhigh, hlow, Bool.or_self, Bool.false_eq_true, if_false]
    rfl

/-- Whatever a character is, it is read from what it is written as. -/
theorem readString_escapeChar (c : Char) (ht : readString cs = some (t, rest)) :
    readString (escapeChar c ++ cs) = some (c :: t, rest) := by
  unfold escapeChar
  split
  · exact readString_escaped (by decide) rfl ht
  · exact readString_escaped (by decide) rfl ht
  · exact readString_escaped (by decide) rfl ht
  · exact readString_escaped (by decide) rfl ht
  · exact readString_escaped (by decide) rfl ht
  · exact readString_escaped (by decide) rfl ht
  · exact readString_escaped (by decide) rfl ht
  · next hq hb _ _ _ _ _ =>
    split
    · next hc =>
      have hall : ∀ n < 0x20, hexQuad? '0' '0' (hexChar (n / 16)) (hexChar (n % 16)) = some n := by decide
      have hunit := readString_unit (hall c.toNat hc) (by omega) ht
      rw [Char.ofNat_toNat] at hunit
      exact hunit
    · next hc => exact readString_plain hq hb hc ht

theorem readString_quote (s : String) (rest : List Char) :
    readString (s.toList.flatMap escapeChar ++ '"' :: rest) = some (s.toList, rest) := by
  induction s.toList with
  | nil => exact readString.eq_2 rest
  | cons c cs ih =>
    rw [List.flatMap_cons, List.append_assoc]
    exact readString_escapeChar c ih

theorem toList_quote (s : String) : (quote s).toList = '"' :: (s.toList.flatMap escapeChar ++ ['"']) :=
  String.toList_ofList

/-- A number that is read from its text as it was. -/
def ReadsBack (x : Float) : Prop :=
  readNumber (floatText x).toList = some (.float x, [])

/-- Numbers are read as they were whose digits make up a significand that the division turns into them. -/
theorem ReadsBack.of_fraction {s : Scaled} (hw : wholeDigits? (floatText x).toList = some (whole, '.' :: digits))
    (hd : digits.takeWhile Char.isDigit = digits) (hne : digits ≠ [])
    (hs : (Scaled.addWhole ⟨0, 0⟩ whole).addFraction digits = s) (he : -308 ≤ s.exponent) (he' : s.exponent < 0)
    (hx : Float.ofScientific s.significand false 0 / powerOfTen (-s.exponent).toNat = x) : ReadsBack x := by
  rw [ReadsBack, readNumber_fraction hw hd hne hs he he', hx]

/-- Not all finite numbers are: the division has a result of its own, rounded once more. -/
theorem exists_not_readsBack : ∃ x : Float, x.isFinite = true ∧ ¬ ReadsBack x := by
  have htext : (floatText 31.245270191439438).toList = "31.245270191439438".toList := by decide +kernel
  have hwhole : wholeDigits? "31.245270191439438".toList = some (['3', '1'], '.' :: "245270191439438".toList) := by
    decide +kernel
  have hdigits : "245270191439438".toList.takeWhile Char.isDigit = "245270191439438".toList := by decide +kernel
  have hscaled :
      (Scaled.addWhole ⟨0, 0⟩ ['3', '1']).addFraction "245270191439438".toList = ⟨31245270191439438, -15⟩ := by
    decide +kernel
  have hvalue : Float.ofScientific 31245270191439438 false 0 / powerOfTen 15 ≠ 31.245270191439438 := by
    decide +kernel
  refine ⟨31.245270191439438, by decide +kernel, ?_⟩
  intro h
  rw [ReadsBack, htext, readNumber_fraction hwhole hdigits (by decide) hscaled (by decide) (by decide)] at h
  exact hvalue (Json.float.inj (congrArg Prod.fst (Option.some.inj h)))

/-- A value with at most `depth` brackets open at any place, all of whose numbers are read as they were. -/
inductive Legible : Nat → Json → Prop where
  | null : Legible depth .null
  | bool (b : Bool) : Legible depth (.bool b)
  | int (hn : -2 ^ 63 ≤ n) (hn' : n < 2 ^ 64) : Legible depth (.int n)
  | float (hx : ReadsBack x) : Legible depth (.float x)
  | string (s : String) : Legible depth (.string s)
  | array {items : List Json} (h : ∀ v ∈ items, Legible depth v) : Legible (depth + 1) (.array items)
  | object {fields : List (String × Json)} (h : ∀ m ∈ fields, Legible depth m.2) : Legible (depth + 1) (.object fields)

def begins (c : Char) : Bool :=
  c.isDigit || c == '-' || c == 'n' || c == 't' || c == 'f' || c == '"' || c == '[' || c == '\x7b'

theorem isSpace_of_begins (h : begins c = true) : isSpace c = false := by
  cases hc : isSpace c with
  | false => rfl
  | true =>
    simp only [isSpace, Bool.or_eq_true, beq_iff_eq] at hc
    obtain ((rfl | rfl) | rfl) | rfl := hc <;> exact absurd h (by decide)

theorem skipSpaces_of_begins (h : begins c = true) : skipSpaces (c :: cs) = c :: cs :=
  List.dropWhile_cons_of_neg (by rw [isSpace_of_begins h]; exact Bool.false_ne_true)

theorem readNumber_begins (h : readNumber cs = some (v, rest)) :
    ∃ c cs', cs = c :: cs' ∧ (c.isDigit = true ∨ c = '-') ∧ begins c = true := by
  obtain ⟨c, hc, hd⟩ := readNumber_head h
  cases cs with
  | nil => cases hc
  | cons c' cs =>
    cases hc
    refine ⟨c, cs, rfl, hd, ?_⟩
    rcases hd with hd | rfl
    · simp only [begins, hd, Bool.true_or]
    · rfl

theorem readValue_number (h : readNumber cs = some (v, rest)) (fuel depth : Nat) :
    readValue (fuel + 1) depth cs = some (v, rest) := by
  obtain ⟨c, cs', rfl, hd, hb⟩ := readNumber_begins h
  have hnot (c' : Char) (hc : ¬ (c'.isDigit = true ∨ c' = '-')) : c ≠ c' := fun heq => hc (heq ▸ hd)
  unfold readValue
  rw [skipSpaces_of_begins hb]
  split
  · next heq => exact (hnot 'n' (by decide) (List.cons.inj heq).1).elim
  · next heq => exact (hnot 't' (by decide) (List.cons.inj heq).1).elim
  · next heq => exact (hnot 'f' (by decide) (List.cons.inj heq).1).elim
  · next heq => exact (hnot '"' (by decide) (List.cons.inj heq).1).elim
  · next heq => exact (hnot '[' (by decide) (List.cons.inj heq).1).elim
  · next heq => exact (hnot '\x7b' (by decide) (List.cons.inj heq).1).elim
  · exact h

theorem toList_array (items : List Json) :
    (print (.array items)).toList = '[' :: ((printItems items).toList ++ [']']) := by
  rw [print, String.toList_append, String.toList_append]
  rfl

theorem toList_object (fields : List (String × Json)) :
    (print (.object fields)).toList = '\x7b' :: ((printMembers fields).toList ++ ['\x7d']) := by
  rw [print, String.toList_append, String.toList_append]
  rfl

theorem toList_items (v v' : Json) (items : List Json) :
    (printItems (v :: v' :: items)).toList = v.print.toList ++ ',' :: (printItems (v' :: items)).toList := by
  rw [printItems, String.toList_append, String.toList_append, List.append_assoc]
  · rfl
  · simp

theorem toList_member (name : String) (v : Json) :
    (printMembers [(name, v)]).toList = '"' :: (name.toList.flatMap escapeChar ++ '"' :: ':' :: v.print.toList) := by
  change (quote name ++ ":" ++ v.print).toList = _
  rw [String.toList_append, String.toList_append, toList_quote]
  simp

theorem toList_members (name : String) (v : Json) (m : String × Json) (fields : List (String × Json)) :
    (printMembers ((name, v) :: m :: fields)).toList =
      (printMembers [(name, v)]).toList ++ ',' :: (printMembers (m :: fields)).toList := by
  rw [printMembers, printMembers, String.toList_append, String.toList_append, List.append_assoc]
  · rfl
  · simp

theorem print_begins (h : Legible depth v) : ∃ c cs, v.print.toList = c :: cs ∧ begins c = true := by
  cases h with
  | null => exact ⟨'n', _, rfl, rfl⟩
  | bool b => cases b <;> exact ⟨_, _, rfl, rfl⟩
  | int hn hn' =>
    have hread := readNumber_int hn hn' (Stops.nil (p := goesOn))
    rw [List.append_nil] at hread
    obtain ⟨c, cs, hcs, -, hb⟩ := readNumber_begins hread
    exact ⟨c, cs, hcs, hb⟩
  | float hx =>
    obtain ⟨c, cs, hcs, -, hb⟩ := readNumber_begins hx
    exact ⟨c, cs, hcs, hb⟩
  | string s => exact ⟨'"', _, toList_quote s, rfl⟩
  | array h => exact ⟨'[', _, toList_array _, rfl⟩
  | object h => exact ⟨'\x7b', _, toList_object _, rfl⟩

/-- A value is read from its text whatever follows that no number goes on with, with two calls for each character. -/
def ReadsIn (depth : Nat) (v : Json) : Prop :=
  ∀ fuel rest, 2 * v.print.toList.length ≤ fuel → Stops goesOn rest →
    readValue fuel depth (v.print.toList ++ rest) = some (v, rest)

theorem readItems_print (h : ∀ v ∈ items, ReadsIn depth v) (hne : items ≠ []) :
    ∀ fuel rest, 2 * (printItems items).toList.length + 1 ≤ fuel →
      readItems fuel depth ((printItems items).toList ++ ']' :: rest) = some (items, rest) := by
  induction items with
  | nil => exact absurd rfl hne
  | cons v items ih =>
    intro fuel rest hfuel
    have hv := h v List.mem_cons_self
    cases fuel with
    | zero => omega
    | succ fuel =>
      unfold readItems
      cases items with
      | nil =>
        have hread := hv fuel (']' :: rest) (by change 2 * (printItems [v]).toList.length ≤ fuel; omega) (.cons rfl)
        change (readValue fuel depth (v.print.toList ++ ']' :: rest)).bind _ = _
        rw [hread]
        rfl
      | cons v' items =>
        rw [toList_items, List.length_append, List.length_cons] at hfuel
        have hread := hv fuel (',' :: ((printItems (v' :: items)).toList ++ ']' :: rest)) (by omega) (.cons rfl)
        have hmore := ih (fun v hm => h v (List.mem_cons_of_mem _ hm)) (List.cons_ne_nil _ _) fuel rest (by omega)
        rw [toList_items, List.append_assoc, List.cons_append, hread]
        change (readItems fuel depth _).map _ = _
        rw [hmore]
        rfl

theorem readMembers_named (fuel depth : Nat) (name : String) (cs : List Char) :
    readMembers (fuel + 1) depth ('"' :: (name.toList.flatMap escapeChar ++ '"' :: ':' :: cs)) =
      (readValue fuel depth cs).bind fun p =>
        match skipSpaces p.2 with
        | ',' :: cs => (readMembers fuel depth cs).map fun q => ((name, p.1) :: q.1, q.2)
        | '\x7d' :: cs => some ([(name, p.1)], cs)
        | _ => none := by
  have hquote : skipSpaces ('"' :: (name.toList.flatMap escapeChar ++ '"' :: ':' :: cs)) =
      '"' :: (name.toList.flatMap escapeChar ++ '"' :: ':' :: cs) := skipSpaces_of_begins rfl
  have hcolon : skipSpaces (':' :: cs) = ':' :: cs := rfl
  have hread := readMembers.eq_def (fuel + 1) depth ('"' :: (name.toList.flatMap escapeChar ++ '"' :: ':' :: cs))
  simp only [hquote, readString_quote, Option.bind_eq_bind, Option.bind_some, hcolon, String.ofList_toList] at hread
  exact hread

theorem readMembers_print (h : ∀ m ∈ fields, ReadsIn depth m.2) (hne : fields ≠ []) :
    ∀ fuel rest, 2 * (printMembers fields).toList.length + 1 ≤ fuel →
      readMembers fuel depth ((printMembers fields).toList ++ '\x7d' :: rest) = some (fields, rest) := by
  induction fields with
  | nil => exact absurd rfl hne
  | cons m fields ih =>
    intro fuel rest hfuel
    obtain ⟨name, v⟩ := m
    have hv : ReadsIn depth v := h (name, v) List.mem_cons_self
    have hlength : v.print.toList.length < (printMembers [(name, v)]).toList.length := by
      rw [toList_member]
      simp only [List.length_cons, List.length_append]
      omega
    have hname (cs : List Char) : (printMembers [(name, v)]).toList ++ cs =
        '"' :: (name.toList.flatMap escapeChar ++ '"' :: ':' :: (v.print.toList ++ cs)) := by
      rw [toList_member]
      simp only [List.cons_append, List.append_assoc]
    cases fuel with
    | zero => omega
    | succ fuel =>
      cases fields with
      | nil =>
        have hread := hv fuel ('\x7d' :: rest) (by omega) (.cons rfl)
        rw [hname, readMembers_named, hread]
        rfl
      | cons m fields =>
        rw [toList_members, List.length_append, List.length_cons] at hfuel
        have hread := hv fuel (',' :: ((printMembers (m :: fields)).toList ++ '\x7d' :: rest)) (by omega) (.cons rfl)
        have hmore := ih (fun m hm => h m (List.mem_cons_of_mem _ hm)) (List.cons_ne_nil _ _) fuel rest (by omega)
        rw [toList_members, List.append_assoc, hname, List.cons_append, readMembers_named, hread]
        change (readMembers fuel depth _).map _ = _
        rw [hmore]
        rfl

theorem printItems_begins (h : ∀ v ∈ items, Legible depth v) (hne : items ≠ []) :
    ∃ c cs, (printItems items).toList = c :: cs ∧ begins c = true := by
  cases items with
  | nil => exact absurd rfl hne
  | cons v items =>
    obtain ⟨c, cs, hcs, hb⟩ := print_begins (h v List.mem_cons_self)
    cases items with
    | nil => exact ⟨c, cs, hcs, hb⟩
    | cons v' items =>
      rw [toList_items, hcs]
      exact ⟨c, _, rfl, hb⟩

theorem printMembers_begins (hne : fields ≠ []) : ∃ cs, (printMembers fields).toList = '"' :: cs := by
  cases fields with
  | nil => exact absurd rfl hne
  | cons m fields =>
    obtain ⟨name, v⟩ := m
    cases fields with
    | nil => exact ⟨_, toList_member name v⟩
    | cons m fields =>
      rw [toList_members, toList_member]
      exact ⟨_, rfl⟩

theorem Legible.readsIn (h : Legible depth v)
    (hread : ∀ fuel rest, 2 * v.print.toList.length ≤ fuel + 1 → Stops goesOn rest →
      readValue (fuel + 1) depth (v.print.toList ++ rest) = some (v, rest)) : ReadsIn depth v := by
  intro fuel rest hfuel hrest
  obtain ⟨c, cs, hcs, -⟩ := print_begins h
  cases fuel with
  | zero =>
    rw [hcs, List.length_cons] at hfuel
    omega
  | succ fuel => exact hread fuel rest hfuel hrest

theorem readValue_print (h : Legible depth v) : ReadsIn depth v := by
  induction h with
  | null => exact Legible.null.readsIn fun fuel rest _ _ => rfl
  | bool b =>
    apply (Legible.bool b).readsIn
    intro fuel rest _ _
    cases b <;> rfl
  | int hn hn' =>
    apply (Legible.int hn hn').readsIn
    intro fuel rest _ hrest
    exact readValue_number (readNumber_int hn hn' hrest) _ _
  | float hx =>
    apply (Legible.float hx).readsIn
    intro fuel rest _ hrest
    exact readValue_number (readNumber_append hrest hx) _ _
  | string s =>
    apply (Legible.string s).readsIn
    intro fuel rest _ _
    rw [print, toList_quote, List.cons_append, List.append_assoc, List.cons_append, List.nil_append, readValue,
      skipSpaces_of_begins rfl]
    change (readString _).map _ = _
    rw [readString_quote]
    simp only [Option.map_some, String.ofList_toList]
  | @array depth items h ih =>
    apply (Legible.array h).readsIn
    intro fuel rest hfuel _
    rw [toList_array, List.length_cons, List.length_append, List.length_singleton] at hfuel
    rw [toList_array, List.cons_append, List.append_assoc, List.cons_append, List.nil_append, readValue,
      skipSpaces_of_begins rfl]
    by_cases hne : items = []
    · subst hne
      rfl
    · obtain ⟨c, cs, hcs, hb⟩ := printItems_begins h hne
      have hitems := readItems_print ih hne fuel rest (by omega)
      rw [hcs, List.cons_append] at hitems ⊢
      simp only [skipSpaces_of_begins hb]
      split
      · next heq =>
        rw [(List.cons.inj heq).1] at hb
        cases hb
      · rw [hitems]
        rfl
  | @object depth fields h ih =>
    apply (Legible.object h).readsIn
    intro fuel rest hfuel _
    rw [toList_object, List.length_cons, List.length_append, List.length_singleton] at hfuel
    rw [toList_object, List.cons_append, List.append_assoc, List.cons_append, List.nil_append, readValue,
      skipSpaces_of_begins rfl]
    by_cases hne : fields = []
    · subst hne
      rfl
    · obtain ⟨cs, hcs⟩ := printMembers_begins hne
      have hmembers := readMembers_print ih hne fuel rest (by omega)
      rw [hcs, List.cons_append] at hmembers ⊢
      have hquote : skipSpaces ('"' :: (cs ++ '\x7d' :: rest)) = '"' :: (cs ++ '\x7d' :: rest) :=
        skipSpaces_of_begins rfl
      simp only [hquote]
      change (readMembers fuel depth _).map _ = _
      rw [hmembers]
      rfl

/-- The text of a value is read as that value, to its end. -/
theorem written?_print (h : Legible depthLimit v) : written? v.print.toList = some v := by
  have hread := readValue_print h (2 * v.print.toList.length + 2) [] (by omega) .nil
  rw [List.append_nil] at hread
  rw [written?, hread]
  rfl

theorem writtenBytes?_print (h : Legible depthLimit v) : writtenBytes? v.print.toUTF8 = some v := by
  have hread : String.fromUTF8? v.print.toUTF8 = some v.print := dif_pos v.print.isValidUTF8
  unfold writtenBytes?
  rw [hread]
  exact written?_print h

/-- A value all of whose numbers are numbers of JSON text. -/
inductive Numeric : Json → Prop where
  | null : Numeric .null
  | bool (b : Bool) : Numeric (.bool b)
  | number (h : v.IsNumber) : Numeric v
  | string (s : String) : Numeric (.string s)
  | array {items : List Json} (h : ∀ v ∈ items, Numeric v) : Numeric (.array items)
  | object {fields : List (String × Json)} (h : ∀ m ∈ fields, Numeric m.2) : Numeric (.object fields)

/-- What one round of the three readers of values, lists and members keeps to. -/
structure Reads (fuel : Nat) : Prop where
  value : ∀ {depth cs v rest}, readValue fuel depth cs = some (v, rest) → Numeric v
  items : ∀ {depth cs vs rest}, readItems fuel depth cs = some (vs, rest) → ∀ v ∈ vs, Numeric v
  members : ∀ {depth cs ms rest}, readMembers fuel depth cs = some (ms, rest) → ∀ m ∈ ms, Numeric m.2

theorem readValue_numeric (h : Reads fuel) (hv : readValue (fuel + 1) depth cs = some (v, rest)) : Numeric v := by
  unfold readValue at hv
  split at hv
  · cases hv
    exact .null
  · cases hv
    exact .bool true
  · cases hv
    exact .bool false
  · obtain ⟨⟨s, cs⟩, -, heq⟩ := Option.map_eq_some_iff.mp hv
    cases heq
    exact .string _
  · split at hv
    · cases hv
    · split at hv
      · cases hv
        exact .array nofun
      · obtain ⟨⟨items, cs⟩, hitems, heq⟩ := Option.map_eq_some_iff.mp hv
        cases heq
        exact .array (h.items hitems)
  · split at hv
    · cases hv
    · split at hv
      · cases hv
        exact .object nofun
      · obtain ⟨⟨fields, cs⟩, hfields, heq⟩ := Option.map_eq_some_iff.mp hv
        cases heq
        exact .object (h.members hfields)
  · exact .number (readNumber_isNumber hv)

theorem readItems_numeric (h : Reads fuel) (hi : readItems (fuel + 1) depth cs = some (vs, rest)) :
    ∀ v ∈ vs, Numeric v := by
  unfold readItems at hi
  obtain ⟨⟨v, cs'⟩, hv, hi⟩ := Option.bind_eq_some_iff.mp hi
  simp only at hi
  split at hi
  · obtain ⟨⟨items, cs⟩, hitems, heq⟩ := Option.map_eq_some_iff.mp hi
    cases heq
    intro w hw
    rcases List.mem_cons.mp hw with rfl | hw
    · exact h.value hv
    · exact h.items hitems w hw
  · cases hi
    intro w hw
    rw [List.mem_singleton.mp hw]
    exact h.value hv
  · cases hi

theorem readMembers_numeric (h : Reads fuel) (hm : readMembers (fuel + 1) depth cs = some (ms, rest)) :
    ∀ m ∈ ms, Numeric m.2 := by
  unfold readMembers at hm
  split at hm
  · obtain ⟨⟨name, cs₁⟩, -, hm⟩ := Option.bind_eq_some_iff.mp hm
    simp only at hm
    split at hm
    · obtain ⟨⟨v, cs₂⟩, hv, hm⟩ := Option.bind_eq_some_iff.mp hm
      simp only at hm
      split at hm
      · obtain ⟨⟨fields, cs⟩, hfields, heq⟩ := Option.map_eq_some_iff.mp hm
        cases heq
        intro m hm
        rcases List.mem_cons.mp hm with rfl | hm
        · exact h.value hv
        · exact h.members hfields m hm
      · cases hm
        intro m hm
        rw [List.mem_singleton.mp hm]
        exact h.value hv
      · cases hm
    · cases hm
  · cases hm

theorem reads (fuel : Nat) : Reads fuel := by
  induction fuel with
  | zero =>
    constructor
    · intro depth cs v rest h
      rw [readValue] at h
      cases h
    · intro depth cs vs rest h
      rw [readItems] at h
      cases h
    · intro depth cs ms rest h
      rw [readMembers] at h
      cases h
  | succ fuel ih => exact ⟨readValue_numeric ih, readItems_numeric ih, readMembers_numeric ih⟩

theorem written?_numeric (h : written? text = some v) : Numeric v := by
  unfold written? at h
  split at h
  · next v' rest hread =>
    split at h
    · cases h
      exact (reads _).value hread
    · cases h
  · cases h

theorem Numeric.isNumber (h : Numeric v) : v.IsNumber ∨ v.number? = none := by
  cases h with
  | number h => exact .inl h
  | null => exact .inr rfl
  | bool b => exact .inr rfl
  | string s => exact .inr rfl
  | array h => exact .inr rfl
  | object h => exact .inr rfl

theorem number?_isFinite (h : Numeric v) (hx : v.number? = some x) : x.isFinite = true := by
  obtain hn | hnone := h.isNumber
  · cases v with
    | int n =>
      have hword : n.natAbs < 2 ^ 64 := by
        obtain ⟨hlow, hhigh⟩ := hn
        omega
      have hfinite := isFinite_of_within (within_ofScientific hword)
      cases hx
      split
      · exact isFinite_neg hfinite
      · exact hfinite
    | float y =>
      cases hx
      exact hn
    | null => exact hn.elim
    | bool b => exact hn.elim
    | string s => exact hn.elim
    | array items => exact hn.elim
    | object fields => exact hn.elim
  · rw [hnone] at hx
    cases hx

end QueryGateway.Json
