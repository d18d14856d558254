import Mathlib
import QueryGateway.Sql.Parse
import QueryGateway.Text.Blank

namespace QueryGateway.Sql
set_option autoImplicit true

/-- No character that satisfies `p` comes next. -/
def Stops (p : Char → Bool) (cs : List Char) : Prop :=
  ∀ c ∈ cs.head?, p c = false

namespace Stops

variable {p q : Char → Bool} {text rest : List Char}

theorem nil : Stops p [] := nofun

theorem cons (h : p c = false) : Stops p (c :: rest) := by
  intro c' hc
  cases hc
  exact h

theorem mono (h : Stops p rest) (hpq : ∀ c, q c = true → p c = true) : Stops q rest := by
  intro c hc
  have hp := h c hc
  cases hq : q c with
  | false => rfl
  | true => rw [hpq c hq] at hp; cases hp

theorem takeWhile_append (h : Stops p rest) (ht : ∀ c ∈ text, p c = true) : (text ++ rest).takeWhile p = text := by
  rw [List.takeWhile_append_of_pos ht]
  cases rest with
  | nil => rw [List.takeWhile_nil, List.append_nil]
  | cons c cs => rw [List.takeWhile_cons_of_neg (by rw [h c rfl]; exact Bool.false_ne_true), List.append_nil]

theorem dropWhile_append (h : Stops p rest) (ht : ∀ c ∈ text, p c = true) : (text ++ rest).dropWhile p = rest := by
  rw [List.dropWhile_append_of_pos ht]
  cases rest with
  | nil => rfl
  | cons c cs => rw [List.dropWhile_cons_of_neg (by rw [h c rfl]; exact Bool.false_ne_true)]

theorem of_dropWhile (p : Char → Bool) (cs : List Char) : Stops p (cs.dropWhile p) := by
  intro c hc
  have h := List.head?_dropWhile_not p cs
  rw [Option.mem_def.mp hc] at h
  exact h

end Stops

theorem atWordEnd_iff : atWordEnd cs = true ↔ Stops isWordChar cs := by
  cases cs with
  | nil => exact ⟨fun _ => .nil, fun _ => rfl⟩
  | cons c cs =>
    constructor
    · intro h
      exact .cons (by simpa only [atWordEnd, Bool.not_eq_true'] using h)
    · intro h
      simp only [atWordEnd, h c rfl, Bool.not_false]

theorem takeSome?_eq_some_iff {p : Char → Bool} :
    takeSome? p cs = some (s, rest) ↔
      s.toList ≠ [] ∧ (∀ c ∈ s.toList, p c = true) ∧ Stops p rest ∧ cs = s.toList ++ rest := by
  constructor
  · intro h
    unfold takeSome? at h
    split at h
    · cases h
    · next front hne =>
      cases h
      rw [String.toList_ofList]
      refine ⟨hne, List.all_eq_true.mp List.all_takeWhile, .of_dropWhile p cs, ?_⟩
      exact List.takeWhile_append_dropWhile.symm
  · rintro ⟨hne, hs, hr, rfl⟩
    unfold takeSome?
    rw [hr.takeWhile_append hs, hr.dropWhile_append hs]
    split
    · next hn => exact absurd hn hne
    · rw [String.ofList_toList]

theorem dropWord?_eq_some_iff :
    dropWord? w cs = some rest ↔ ∃ front, cs = front ++ rest ∧ front.map Char.toLower = w.map Char.toLower := by
  induction w generalizing cs with
  | nil =>
    constructor
    · intro h
      cases h
      exact ⟨[], rfl, rfl⟩
    · rintro ⟨front, rfl, hf⟩
      rw [List.map_nil, List.map_eq_nil_iff] at hf
      rw [hf]
      rfl
  | cons a w ih =>
    constructor
    · intro h
      cases cs with
      | nil => cases h
      | cons c cs =>
        simp only [dropWord?] at h
        split at h
        · next hc =>
          obtain ⟨front, rfl, hf⟩ := ih.mp h
          exact ⟨c :: front, rfl, by rw [List.map_cons, List.map_cons, hf, eq_of_beq hc]⟩
        · cases h
    · rintro ⟨front, rfl, hf⟩
      cases front with
      | nil => cases hf
      | cons c front =>
        rw [List.map_cons, List.map_cons, List.cons.injEq] at hf
        have hc : (a.toLower == c.toLower) = true := beq_iff_eq.mpr hf.1.symm
        simp only [List.cons_append, dropWord?, hc, ↓reduceIte]
        exact ih.mpr ⟨front, rfl, hf.2⟩

theorem of_toLower {p : Char → Bool} {c : Char} (hp : ∀ c, c.isUpper = true → p c = true) (h : p c.toLower = true) :
    p c = true := by
  unfold Char.toLower at h
  split at h
  · next hu =>
    apply hp
    simp only [Char.isUpper, decide_eq_true_eq]
    exact hu
  · exact h

theorem isWordChar_of_toLower (h : isWordChar c.toLower = true) : isWordChar c = true := by
  apply of_toLower _ h
  intro c hc
  simp only [isWordChar, Char.isAlphanum, Char.isAlpha, hc, Bool.true_or]

theorem isSpace_iff : isSpace c = true ↔ c = ' ' ∨ c = '\t' ∨ c = '\r' ∨ c = '\n' := by
  simp only [isSpace, Bool.or_eq_true, beq_iff_eq, or_assoc]

theorem isSpace_of_isWordChar (h : isWordChar c = true) : isSpace c = false := by
  rw [← Bool.not_eq_true]
  intro hs
  rcases isSpace_iff.mp hs with rfl | rfl | rfl | rfl
  all_goals cases h

theorem isWordChar_of_map_toLower {front w : List Char} (hw : ∀ c ∈ w, isWordChar c = true)
    (h : front.map Char.toLower = w) : ∀ c ∈ front, isWordChar c = true := by
  intro c hc
  exact isWordChar_of_toLower (hw _ (h ▸ List.mem_map_of_mem hc))

def frontWord (cs : List Char) : List Char :=
  (cs.takeWhile isWordChar).map Char.toLower

theorem frontWord_append (ht : ∀ c ∈ text, isWordChar c = true) (hr : Stops isWordChar rest) :
    frontWord (text ++ rest) = text.map Char.toLower := by
  rw [frontWord, hr.takeWhile_append ht]

theorem frontWord_of_word (ht : ∀ c ∈ text, isWordChar c = true) : frontWord text = text.map Char.toLower := by
  have h := frontWord_append ht .nil
  rw [List.append_nil] at h
  exact h

theorem frontWord_eq_append (ht : ∀ c ∈ text, isWordChar c = true) :
    frontWord (text ++ rest) = text.map Char.toLower ++ frontWord rest := by
  rw [frontWord, List.takeWhile_append_of_pos ht, List.map_append]
  rfl

theorem stops_of_frontWord (h : frontWord cs = []) : Stops isWordChar cs := by
  cases cs with
  | nil => exact .nil
  | cons c cs =>
    refine .cons ?_
    cases hc : isWordChar c with
    | false => rfl
    | true =>
      rw [frontWord, List.takeWhile_cons_of_pos hc] at h
      cases h

/-- The reserved words that the readers of names and values refuse. A text that begins with the letters of a reserved
word is not looked at further, so that the one that extends another is not among them. -/
def refusedWords : List String :=
  reservedWords.erase "order"

theorem reservedWords_lower : ∀ w ∈ reservedWords, w.toList.map Char.toLower = w.toList := by
  decide

theorem reservedWords_word : ∀ w ∈ reservedWords, ∀ c ∈ w.toList, isWordChar c = true := by
  intro w hw
  have h : reservedWords.all (·.toList.all isWordChar) = true := by decide
  exact List.all_eq_true.mp (List.all_eq_true.mp h w hw)

theorem reservedWords_ne_nil : ∀ w ∈ reservedWords, w.toList ≠ [] := by
  decide

theorem refusedWords_subset {w : String} (h : w ∈ refusedWords) : w ∈ reservedWords :=
  List.mem_of_mem_erase h

/-- No reserved word begins with another one, apart from the one that is not refused. -/
theorem refusedWords_prefix :
    ∀ w' ∈ reservedWords, ∀ w ∈ refusedWords, w'.toList <+: w.toList → w' = w := by
  decide

theorem mem_refusedWords_iff : w ∈ refusedWords ↔ w ∈ reservedWords ∧ w ≠ "order" := by
  have hnodup : reservedWords.Nodup := by decide
  rw [refusedWords, hnodup.mem_erase_iff]
  exact and_comm

theorem dropWord?_reserved {w : String} (hw : w ∈ reservedWords) :
    dropWord? w.toList cs = some rest ↔ ∃ front, cs = front ++ rest ∧ front.map Char.toLower = w.toList := by
  rw [dropWord?_eq_some_iff, reservedWords_lower w hw]

theorem startsReserved_order (h : front.map Char.toLower = "order".toList) :
    startsReserved (front ++ rest) = false := by
  change front.map Char.toLower = ['o', 'r', 'd', 'e', 'r'] at h
  obtain ⟨a, front, rfl, ha, h⟩ := List.map_eq_cons_iff.mp h
  obtain ⟨b, front, rfl, hb, h⟩ := List.map_eq_cons_iff.mp h
  obtain ⟨c, front, rfl, hc, h⟩ := List.map_eq_cons_iff.mp h
  have hword : isWordChar c = true := isWordChar_of_toLower (by rw [hc]; rfl)
  have hend : atWordEnd (c :: (front ++ rest)) = false := by simp only [atWordEnd, hword, Bool.not_true]
  simp only [startsReserved, reservedWords, List.findSome?]
  simpa [dropWord?, ha, hb] using hend

theorem startsReserved_iff : startsReserved cs = true ↔ ∃ w ∈ refusedWords, frontWord cs = w.toList := by
  constructor
  · intro h
    unfold startsReserved at h
    split at h
    · next rest hf =>
      obtain ⟨w, hw, hd⟩ := List.exists_of_findSome?_eq_some hf
      obtain ⟨front, rfl, hfront⟩ := (dropWord?_reserved hw).mp hd
      have hword := isWordChar_of_map_toLower (reservedWords_word w hw) hfront
      refine ⟨w, mem_refusedWords_iff.mpr ⟨hw, ?_⟩, by rw [frontWord_append hword (atWordEnd_iff.mp h), hfront]⟩
      rintro rfl
      have hn : startsReserved (front ++ rest) = false := startsReserved_order hfront
      simp only [startsReserved, hf, h] at hn
      cases hn
    · cases h
  · rintro ⟨w, hw, hfront⟩
    have hsome : (reservedWords.findSome? (dropWord? ·.toList cs)).isSome = true := by
      refine List.findSome?_isSome_iff.mpr ⟨w, refusedWords_subset hw, ?_⟩
      have hd : dropWord? w.toList cs = some (cs.dropWhile isWordChar) :=
        (dropWord?_reserved (refusedWords_subset hw)).mpr
          ⟨cs.takeWhile isWordChar, List.takeWhile_append_dropWhile.symm, hfront⟩
      rw [hd]
      rfl
    obtain ⟨rest, hrest⟩ := Option.isSome_iff_exists.mp hsome
    -- the word that is found first begins the whole one, so that it is the whole one
    obtain ⟨w', hw', hd'⟩ := List.exists_of_findSome?_eq_some hrest
    obtain ⟨front, rfl, hf⟩ := (dropWord?_reserved hw').mp hd'
    rw [frontWord_eq_append (isWordChar_of_map_toLower (reservedWords_word w' hw') hf), hf] at hfront
    have heq : w' = w := refusedWords_prefix w' hw' w hw ⟨_, hfront⟩
    rw [heq, List.append_right_eq_self] at hfront
    simp only [startsReserved, hrest]
    exact atWordEnd_iff.mpr (stops_of_frontWord hfront)

/-- A letter or underscore, then letters, digits and underscores. -/
def IsIdentifier (s : String) : Prop :=
  (∀ c ∈ s.toList, isWordChar c = true) ∧ ∃ c ∈ s.toList.head?, (c.isAlpha || c == '_') = true

instance : DecidablePred IsIdentifier := fun s =>
  decidable_of_iff (s.toList.all isWordChar = true ∧ s.toList.head?.any (fun c => c.isAlpha || c == '_') = true)
    (and_congr List.all_eq_true (Option.any_eq_true _ _))

/-- An identifier that is none of the words, in any letter case. -/
structure IsName (words : List String) (s : String) : Prop where
  identifier : IsIdentifier s
  free : Text.lower s ∉ words

instance (words : List String) : DecidablePred (IsName words) := fun s =>
  decidable_of_iff (IsIdentifier s ∧ Text.lower s ∉ words) ⟨fun h => ⟨h.1, h.2⟩, fun h => ⟨h.1, h.2⟩⟩

theorem IsIdentifier.ne_nil (h : IsIdentifier s) : s.toList ≠ [] := by
  obtain ⟨c, hc, -⟩ := h.2
  intro hn
  rw [hn] at hc
  cases hc

theorem lower_eq_iff : Text.lower s = w ↔ s.toList.map Char.toLower = w.toList := by
  constructor
  · rintro rfl
    rw [Text.lower, String.toList_ofList]
  · intro h
    rw [Text.lower, h, String.ofList_toList]

/-- A word is refused exactly if it is one of those words. -/
theorem startsReserved_append (ht : ∀ c ∈ s.toList, isWordChar c = true) (hr : Stops isWordChar rest) :
    startsReserved (s.toList ++ rest) = true ↔ Text.lower s ∈ refusedWords := by
  rw [startsReserved_iff, frontWord_append ht hr]
  constructor
  · rintro ⟨w, hw, h⟩
    rw [lower_eq_iff.mpr h]
    exact hw
  · intro h
    exact ⟨_, h, lower_eq_iff.mp rfl⟩

theorem name?_eq_some_iff :
    name? cs = some (s, rest) ↔ IsName refusedWords s ∧ Stops isWordChar rest ∧ cs = s.toList ++ rest := by
  constructor
  · intro h
    unfold name? at h
    split at h
    · cases h
    · next c cs =>
      split at h
      · cases h
      · next hc =>
        obtain ⟨hne, hs, hr, heq⟩ := takeSome?_eq_some_iff.mp h
        rw [Bool.or_eq_true, not_or, Bool.not_eq_true, heq] at hc
        refine ⟨⟨⟨hs, c, ?_, ?_⟩, fun hw => ?_⟩, hr, heq⟩
        · cases hl : s.toList with
          | nil => exact absurd hl hne
          | cons c' s' =>
            rw [hl] at heq
            cases heq
            rfl
        · simpa only [Bool.not_eq_true', Bool.not_eq_false] using hc.2
        · rw [(startsReserved_append hs hr).mpr hw] at hc
          exact Bool.noConfusion hc.1
  · rintro ⟨⟨hi, hw⟩, hr, rfl⟩
    have hstart : startsReserved (s.toList ++ rest) = false := by
      rw [← Bool.not_eq_true, startsReserved_append hi.1 hr]
      exact hw
    obtain ⟨c, hc, hc'⟩ := hi.2
    have hsome := takeSome?_eq_some_iff.mpr ⟨hi.ne_nil, hi.1, hr, rfl⟩
    cases hl : s.toList with
    | nil => exact absurd hl hi.ne_nil
    | cons c' s' =>
      rw [hl] at hc hstart hsome
      cases hc
      rw [List.cons_append] at hstart hsome ⊢
      simp only [name?, hstart, hc', Bool.not_true, Bool.or_self, Bool.false_eq_true, ↓reduceIte]
      exact hsome

theorem quotedBy?_eq_some_iff :
    quotedBy? quote cs = some (s, rest) ↔ quote ∉ s.toList ∧ cs = quote :: s.toList ++ quote :: rest := by
  constructor
  · intro h
    unfold quotedBy? at h
    split at h
    · cases h
    · next c cs =>
      split at h
      · next hc =>
        split at h
        · cases h
        · next c' rest' hd =>
          cases h
          have hstop := Stops.of_dropWhile (· != quote) cs
          rw [hd] at hstop
          have hq : c' = quote := by simpa only [bne_eq_false_iff_eq] using hstop c' rfl
          have hall : ∀ c ∈ cs.takeWhile (· != quote), (c != quote) = true := List.all_eq_true.mp List.all_takeWhile
          rw [String.toList_ofList, eq_of_beq hc]
          refine ⟨fun hm => ?_, ?_⟩
          · have hne := hall quote hm
            rw [bne_self_eq_false] at hne
            cases hne
          · rw [List.cons_append, List.cons.injEq]
            refine ⟨rfl, ?_⟩
            calc cs = cs.takeWhile (· != quote) ++ cs.dropWhile (· != quote) := List.takeWhile_append_dropWhile.symm
              _ = cs.takeWhile (· != quote) ++ quote :: rest := by rw [hd, hq]
      · cases h
  · rintro ⟨hq, rfl⟩
    have hs : ∀ c ∈ s.toList, (c != quote) = true := fun c hc => bne_iff_ne.mpr fun heq => hq (heq ▸ hc)
    have hr : Stops (· != quote) (quote :: rest) := .cons (bne_self_eq_false quote)
    simp only [quotedBy?, List.cons_append, BEq.rfl, ↓reduceIte, hr.takeWhile_append hs, hr.dropWhile_append hs,
      String.ofList_toList]

theorem quoted?_eq_some_iff :
    quoted? cs = some (s, rest) ↔
      ∃ quote, (quote = '\'' ∨ quote = '"') ∧ quote ∉ s.toList ∧ cs = quote :: s.toList ++ quote :: rest := by
  unfold quoted?
  rw [Option.orElse_eq_orElse, Option.orElse_eq_or, Option.or_eq_some_iff]
  constructor
  · rintro (h | ⟨-, h⟩)
    · exact ⟨'\'', .inl rfl, quotedBy?_eq_some_iff.mp h⟩
    · exact ⟨'"', .inr rfl, quotedBy?_eq_some_iff.mp h⟩
  · rintro ⟨quote, rfl | rfl, h⟩
    · exact .inl (quotedBy?_eq_some_iff.mpr h)
    · refine .inr ⟨?_, quotedBy?_eq_some_iff.mpr h⟩
      rw [h.2]
      rfl

theorem isBareChar_of_isWordChar (h : isWordChar c = true) : isBareChar c = true := by
  unfold isBareChar
  rw [Bool.not_eq_true', ← Bool.not_eq_true]
  intro hb
  simp only [isSpace, Bool.or_eq_true, beq_iff_eq] at hb
  rcases hb with ((((((((rfl | rfl) | rfl) | rfl) | rfl) | rfl) | rfl) | rfl) | rfl) | rfl
  all_goals cases h

theorem frontWord_append_of_stops (text : List Char) (hr : Stops isWordChar rest) :
    frontWord (text ++ rest) = frontWord text := by
  induction text with
  | nil => exact frontWord_append (List.forall_mem_nil _) hr
  | cons c text ih =>
    unfold frontWord at ih ⊢
    rw [List.cons_append, List.takeWhile_cons, List.takeWhile_cons]
    split
    · rw [List.map_cons, List.map_cons, ih]
    · rfl

/-- A value without quotes: it does not begin as a placeholder or with a refused word. -/
structure IsBare (s : String) : Prop where
  ne_nil : s.toList ≠ []
  chars : ∀ c ∈ s.toList, isBareChar c = true
  value : s.toList.head? ≠ some '?'
  free : ∀ w ∈ refusedWords, frontWord s.toList ≠ w.toList

theorem IsBare.lower_not_mem (h : IsBare s) : Text.lower s ∉ refusedWords := by
  intro hw
  have heq := lower_eq_iff.mp (rfl : Text.lower s = Text.lower s)
  have hword := isWordChar_of_map_toLower (reservedWords_word _ (refusedWords_subset hw)) heq
  apply h.free _ hw
  rw [frontWord_of_word hword, heq]

theorem bare?_eq_some_iff (hq : cs.head? ≠ some '?') :
    bare? cs = some (s, rest) ↔ IsBare s ∧ Stops isBareChar rest ∧ cs = s.toList ++ rest := by
  unfold bare?
  constructor
  · intro h
    split at h
    · cases h
    · next hn =>
      obtain ⟨hne, hs, hr, rfl⟩ := takeSome?_eq_some_iff.mp h
      refine ⟨⟨hne, hs, fun hv => hq ?_, fun w hw hf => hn ?_⟩, hr, rfl⟩
      · rw [List.head?_append, hv]
        rfl
      · refine startsReserved_iff.mpr ⟨w, hw, ?_⟩
        rw [frontWord_append_of_stops _ (hr.mono fun _ => isBareChar_of_isWordChar), hf]
  · rintro ⟨hb, hr, rfl⟩
    have hn : ¬ startsReserved (s.toList ++ rest) = true := by
      rw [startsReserved_iff, frontWord_append_of_stops _ (hr.mono fun _ => isBareChar_of_isWordChar)]
      rintro ⟨w, hw, hf⟩
      exact hb.free w hw hf
    rw [if_neg hn]
    exact takeSome?_eq_some_iff.mpr ⟨hb.ne_nil, hb.chars, hr, rfl⟩

theorem keyword?_eq_some_iff {w : String} (hw : w ∈ reservedWords) :
    keyword? w cs = some rest ↔
      ∃ front, cs = front ++ rest ∧ front.map Char.toLower = w.toList ∧ Stops isWordChar rest := by
  unfold keyword?
  rw [Option.filter_eq_some_iff, dropWord?_reserved hw, atWordEnd_iff]
  constructor
  · rintro ⟨⟨front, hcs, hf⟩, hr⟩
    exact ⟨front, hcs, hf, hr⟩
  · rintro ⟨front, hcs, hf, hr⟩
    exact ⟨⟨front, hcs, hf⟩, hr⟩

theorem frontWord_of_keyword? {w : String} (hw : w ∈ reservedWords) (h : keyword? w cs = some rest) :
    frontWord cs = w.toList := by
  obtain ⟨front, rfl, hf, hr⟩ := (keyword?_eq_some_iff hw).mp h
  rw [frontWord_append (isWordChar_of_map_toLower (reservedWords_word w hw) hf) hr, hf]

theorem mark?_eq_some_iff : mark? c cs = some rest ↔ cs = c :: rest := by
  constructor
  · intro h
    cases cs with
    | nil => cases h
    | cons c' cs =>
      simp only [mark?] at h
      split at h
      · next hc =>
        cases h
        rw [eq_of_beq hc]
      · cases h
  · rintro rfl
    simp only [mark?, BEq.rfl, ↓reduceIte]

theorem skipSpaces_append (hg : ∀ c ∈ gap, isSpace c = true) : skipSpaces (gap ++ cs) = skipSpaces cs :=
  List.dropWhile_append_of_pos hg

theorem skipSpaces_of_stops (h : Stops isSpace cs) : skipSpaces cs = cs :=
  h.dropWhile_append (List.forall_mem_nil _)

theorem exists_gap (cs : List Char) : ∃ gap, (∀ c ∈ gap, isSpace c = true) ∧ cs = gap ++ skipSpaces cs :=
  ⟨cs.takeWhile isSpace, List.all_eq_true.mp List.all_takeWhile, List.takeWhile_append_dropWhile.symm⟩

theorem length_skipSpaces_le (cs : List Char) : (skipSpaces cs).length ≤ cs.length := by
  obtain ⟨gap, -, hg⟩ := exists_gap cs
  have h := congrArg List.length hg
  rw [List.length_append] at h
  omega

end QueryGateway.Sql
