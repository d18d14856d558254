import QueryGateway.Proofs.Sql.Language
import QueryGateway.Proofs.Sql.Trees
import QueryGateway.Sql.Builder

namespace QueryGateway.Sql
set_option autoImplicit true

open Pattern

/-- A rule of the grammar and a reader go together: both fail, or the pairs and the value are related and the rests are
the same up to blanks, which the grammar may have skipped before a part that it did not find. -/
inductive Reads (B : List Pair → α → Prop) : Option (List Pair × List Char) → Option (α × List Char) → Prop
  | neither : Reads B none none
  | both (h : B found a) (hr : skipSpaces rest = skipSpaces rest') : Reads B (some (found, rest)) (some (a, rest'))

namespace Reads

variable {B : List Pair → α → Prop} {C : List Pair → β → Prop} {x : Option (List Pair × List Char)}
  {y : Option (α × List Char)}

theorem mono (h : Reads B x y) (hB : ∀ found a, B found a → B' found a) : Reads B' x y := by
  cases h with
  | neither => exact .neither
  | both h hr => exact .both (hB _ _ h) hr

theorem bind {f : List Pair × List Char → Option (List Pair × List Char)} {g : α × List Char → Option (β × List Char)}
    (h : Reads B x y)
    (hf : ∀ found a rest rest', B found a → skipSpaces rest = skipSpaces rest' →
      Reads C (f (found, rest)) (g (a, rest'))) : Reads C (x.bind f) (y.bind g) := by
  cases h with
  | neither => exact .neither
  | both h hr => exact hf _ _ _ _ h hr

theorem eq_none (h : Reads B none y) : y = none := by
  cases h
  rfl

theorem exists_value (h : Reads B (some (found, rest)) y) :
    ∃ a rest', y = some (a, rest') ∧ B found a ∧ skipSpaces rest = skipSpaces rest' := by
  cases h with
  | both h hr => exact ⟨_, _, rfl, h, hr⟩

theorem exists_found (h : Reads B x (some v)) :
    ∃ found rest, x = some (found, rest) ∧ B found v.1 ∧ skipSpaces rest = skipSpaces v.2 := by
  cases h with
  | both h hr => exact ⟨_, _, rfl, h, hr⟩

theorem map {f : α → β} (h : Reads B x y) (hB : ∀ found a, B found a → C found (f a)) :
    Reads C x (y.map fun v => (f v.1, v.2)) := by
  cases h with
  | neither => exact .neither
  | both h hr => exact .both (hB _ _ h) hr

theorem bind_same {o : Option γ} {f : γ → Option (List Pair × List Char)} {g : γ → Option (β × List Char)}
    (h : ∀ c, o = some c → Reads C (f c) (g c)) : Reads C (o.bind f) (o.bind g) := by
  cases o with
  | none => exact .neither
  | some c => exact h c rfl

theorem or (h : Reads B x y) (h' : Reads B x' y') : Reads B (x.or x') (y.or y') := by
  cases h with
  | neither => exact h'
  | both h hr => exact .both h hr

theorem optional {f : α → β} {v : β × List Char} (h : Reads B x y) (hB : ∀ found a, B found a → C found (f a))
    (hd : C [] d) (hsome : ∀ a rest', y = some (a, rest') → v = (f a, rest')) (hnone : y = none → v = (d, rest)) :
    Reads C (x.or (some ([], rest))) (some v) := by
  cases h with
  | neither =>
    rw [hnone rfl]
    exact .both hd rfl
  | both h hr =>
    rw [hsome _ _ rfl]
    exact .both (hB _ _ h) hr

theorem of_map {f : α → List Pair} (y : Option (α × List Char)) :
    Reads (fun found a => found = f a) (y.map fun v => (f v.1, v.2)) y := by
  cases y with
  | none => exact .neither
  | some v => exact .both rfl rfl

end Reads

/-- One pair of the rule, from which the value is built. -/
def Builds (r : Rule) (build : Pair → Except TreeFault α) (found : List Pair) (a : α) : Prop :=
  ∃ p, found = [p] ∧ p.rule = r ∧ build p = .ok a

@[simp] theorem Pair.string_mk (r : Rule) (s : String) (inner : List Pair) : Pair.string ⟨r, s.toList, inner⟩ = s :=
  String.ofList_toList

def Holds (r : Rule) (found : List Pair) (s : String) : Prop :=
  found = [⟨r, s.toList, []⟩]

theorem taken_append (front rest : List Char) : Reading.taken (front ++ rest) rest = front := by
  rw [Reading.taken, List.length_append, Nat.add_sub_cancel, List.take_left]

section

variable (a b : Pattern) (s : Spacing) (cs : List Char)

theorem read_seq :
    (a >> b).read s cs = (a.read s cs).bind fun first =>
      (b.read s (s.skip first.2)).bind fun more => some (first.1 ++ more.1, more.2) := by
  change (a.read s).andThen ((between s).andThen (b.read s)) cs = _
  rw [Reading.andThen]
  simp only [between_andThen, Option.bind_eq_bind, Option.pure_def]

theorem read_alt : (a <|> b).read s cs = (a.read s cs).or (b.read s cs) :=
  rfl

theorem read_opt : (opt a).read s cs = (a.read s cs).or (some ([], cs)) :=
  rfl

theorem read_star :
    (star a).read s cs =
      (((a.read s).andThen (((between s).andThen (a.read s)).repeated cs.length)) cs).or (some ([], cs)) :=
  rfl

theorem read_absent : (absent a).read s cs = if (a.read s cs).isSome then none else some ([], cs) := by
  simp only [Pattern.read, Reading.refute]
  cases a.read s cs <;> rfl

theorem read_rule (r : Rule) :
    (rule r s a).read .spaced cs =
      (a.read s cs).map fun found => ([⟨r, Reading.taken cs found.2, found.1⟩], found.2) := by
  cases s <;> rfl

theorem read_solid_rule (r : Rule) : (rule r .solid a).read .solid cs = a.read .solid cs :=
  rfl

end

/-- What is built from a rule that takes several parts comes from these, not from their text. -/
theorem Reads.rule {a : Pattern} {build : Pair → Except TreeFault α}
    (h : Reads (fun found v => ∀ text, build ⟨r, text, found⟩ = .ok v) (a.read .spaced cs) y) :
    Reads (Builds r build) ((Pattern.rule r .spaced a).read .spaced cs) y := by
  rw [read_rule]
  generalize a.read .spaced cs = x at h
  cases h with
  | neither => exact .neither
  | both h hr => exact .both ⟨_, rfl, rfl, h _⟩ hr

section

variable {w : String}

theorem read_mark (h : w.toList = [c]) (s : Spacing) (cs : List Char) :
    (text w).read s cs = (mark? c cs).map ([], ·) := by
  have hlen : w.length = 1 := by rw [← String.length_toList, h]; rfl
  simp only [Pattern.read, Reading.fromOption, h, hlen]
  cases cs with
  | nil => rfl
  | cons c' cs =>
    simp only [List.isPrefixOf, Bool.and_true, mark?, List.drop_one, List.tail_cons, beq_iff_eq, eq_comm (a := c)]

theorem dropWord?_eq_ite {w : List Char} (hw : w.map Char.toLower = w) (cs : List Char) :
    dropWord? w cs = if w.isPrefixOf ((cs.take w.length).map Char.toLower) then some (cs.drop w.length) else none := by
  induction w generalizing cs with
  | nil => rfl
  | cons c w ih =>
    obtain ⟨hc, hw⟩ := List.cons.inj hw
    cases cs with
    | nil => rfl
    | cons c' cs =>
      simp only [dropWord?, hc, ih hw, List.length_cons, List.take_succ_cons, List.map_cons, List.isPrefixOf,
        List.drop_succ_cons, Bool.and_eq_true]
      split
      · next h => simp only [h, true_and]
      · next h => simp only [h, Bool.false_eq_true, false_and, ↓reduceIte]

theorem read_word (hw : w ∈ reservedWords) (s : Spacing) (cs : List Char) :
    (word w).read s cs = (dropWord? w.toList cs).map ([], ·) := by
  rw [dropWord?_eq_ite (reservedWords_lower w hw), String.length_toList]
  rfl

theorem read_char (p : Char → Bool) (s : Spacing) (c : Char) (cs : List Char) :
    (char p).read s (c :: cs) = if p c then some ([], cs) else none := by
  simp only [Pattern.read, Reading.fromOption, List.head?_cons, Option.any_some, List.drop_one, List.tail_cons]
  split <;> rfl

theorem read_wordEnd (s : Spacing) (cs : List Char) :
    Grammar.wordEnd.read s cs = if atWordEnd cs then some ([], cs) else none := by
  rw [Grammar.wordEnd, read_absent]
  cases cs with
  | nil => rfl
  | cons c cs =>
    have hchar : Grammar.wordChar.read s (c :: cs) = if isWordChar c then some ([], cs) else none :=
      read_char isWordChar s c cs
    rw [hchar, atWordEnd]
    cases hc : isWordChar c <;> rfl

theorem read_keyword (hw : w ∈ reservedWords) (r : Rule) (cs : List Char) :
    (Grammar.keyword r w).read .spaced cs =
      (keyword? w cs).map fun rest => ([⟨r, Reading.taken cs rest, []⟩], rest) := by
  rw [Grammar.keyword, read_rule, read_seq, read_word hw, keyword?]
  cases dropWord? w.toList cs with
  | none => rfl
  | some rest =>
    simp only [Option.map_some, Option.bind_some, Spacing.skip, read_wordEnd, Option.filter_some]
    cases atWordEnd rest <;> rfl

end

theorem read_words (hw : w ∈ reservedWords) {ws : List String}
    (ha : a.read s cs = (ws.findSome? (dropWord? ·.toList cs)).map ([], ·)) :
    (word w <|> a).read s cs = ((w :: ws).findSome? (dropWord? ·.toList cs)).map ([], ·) := by
  rw [read_alt, read_word hw, ha, List.findSome?_cons]
  cases dropWord? w.toList cs <;> rfl

theorem read_absent_reserved (cs : List Char) :
    (absent Grammar.reserved).read .solid cs = if startsReserved cs then none else some ([], cs) := by
  have hlast : (word "like").read .solid cs = (["like"].findSome? (dropWord? ·.toList cs)).map ([], ·) := by
    rw [read_word (by decide), List.findSome?_singleton]
  have hwords : Grammar.reserved.read .solid cs =
      ((reservedWords.findSome? (dropWord? ·.toList cs)).filter atWordEnd).map ([], ·) := by
    rw [Grammar.reserved, read_solid_rule, read_seq, read_words (by decide) (read_words (by decide)
      (read_words (by decide) (read_words (by decide) (read_words (by decide) (read_words (by decide)
        (read_words (by decide) (read_words (by decide) (read_words (by decide) (read_words (by decide)
          (read_words (by decide) hlast))))))))))]
    change (Option.map _ (reservedWords.findSome? (dropWord? ·.toList cs))).bind _ = _
    cases reservedWords.findSome? (dropWord? ·.toList cs) with
    | none => rfl
    | some rest =>
      simp only [Option.map_some, Option.bind_some, Spacing.skip, read_wordEnd, Option.filter_some]
      cases atWordEnd rest <;> rfl
  rw [read_absent, hwords, startsReserved]
  cases reservedWords.findSome? (dropWord? ·.toList cs) with
  | none => rfl
  | some rest =>
    rw [Option.filter_some]
    by_cases hend : atWordEnd rest = true
    · simp only [hend, ↓reduceIte]
      rfl
    · simp only [hend, Bool.false_eq_true, ↓reduceIte]
      rfl

theorem repeated_char (p : Char → Bool) (h : cs.length ≤ bound) :
    Reading.repeated ((char p).read .solid) bound cs = some ([], cs.dropWhile p) := by
  induction bound generalizing cs with
  | zero =>
    rw [List.eq_nil_of_length_eq_zero (Nat.le_zero.mp h)]
    rfl
  | succ bound ih =>
    cases cs with
    | nil => rfl
    | cons c cs =>
      simp only [Reading.repeated, read_char, List.dropWhile_cons]
      cases p c with
      | false => rfl
      | true =>
        simp only [↓reduceIte, List.length_cons, Nat.lt_succ_self, ih (Nat.le_of_succ_le_succ h)]
        rfl

theorem read_star_char (p : Char → Bool) (cs : List Char) :
    (star (char p)).read .solid cs = some ([], cs.dropWhile p) := by
  have hbetween : (between .solid).andThen ((char p).read .solid) = (char p).read .solid :=
    funext (between_andThen .solid _)
  rw [read_star, hbetween]
  cases cs with
  | nil => rfl
  | cons c cs =>
    have hmore := repeated_char p (Nat.le_succ cs.length)
    rw [List.length_cons, Reading.andThen, read_char, List.dropWhile_cons]
    cases p c with
    | false => rfl
    | true =>
      simp only [↓reduceIte, Option.bind_eq_bind, Option.bind_some, hmore]
      rfl

theorem read_plus_char (p : Char → Bool) (cs : List Char) :
    (plus (char p)).read .solid cs = (takeSome? p cs).map fun found => ([], found.2) := by
  rw [plus, read_seq]
  cases cs with
  | nil => rfl
  | cons c cs =>
    rw [read_char, takeSome?, List.takeWhile_cons, List.dropWhile_cons]
    cases p c with
    | false => rfl
    | true => simp only [↓reduceIte, Option.bind_some, Spacing.skip, read_star_char]; rfl

theorem read_lexeme {a : Pattern} {p : List Char → Option (String × List Char)} (r : Rule)
    (ha : a.read .solid cs = (p cs).map fun found => ([], found.2))
    (hp : ∀ s rest, p cs = some (s, rest) → cs = s.toList ++ rest) :
    (rule r .solid a).read .spaced cs = (p cs).map fun found => ([⟨r, found.1.toList, []⟩], found.2) := by
  rw [read_rule, ha]
  cases hread : p cs with
  | none => rfl
  | some found =>
    have htaken : Reading.taken cs found.2 = found.1.toList := by
      rw [hp found.1 found.2 hread]
      exact taken_append _ _
    simp only [Option.map_some, htaken]

theorem read_run (r : Rule) (p : Char → Bool) (cs : List Char) :
    (rule r .solid (plus (char p))).read .spaced cs =
      (takeSome? p cs).map fun found => ([⟨r, found.1.toList, []⟩], found.2) := by
  apply read_lexeme r (read_plus_char p cs)
  intro s rest h
  exact (takeSome?_eq_some_iff.mp h).2.2.2

theorem read_element (cs : List Char) :
    Grammar.element.read .spaced cs = (element? cs).map fun found => ([⟨.element, found.1.toList, []⟩], found.2) :=
  read_run .element isElementChar cs

theorem read_limitValue (cs : List Char) :
    Grammar.limitValue.read .spaced cs =
      (limitToken? cs).map fun found => ([⟨.limitValue, found.1.toList, []⟩], found.2) :=
  read_run .limitValue isLimitChar cs

theorem read_bare (cs : List Char) :
    Grammar.bare.read .spaced cs = (bare? cs).map fun found => ([⟨.bare, found.1.toList, []⟩], found.2) := by
  apply read_lexeme
  · rw [read_seq, read_absent_reserved, bare?]
    cases startsReserved cs with
    | true => rfl
    | false =>
      have hplus := read_plus_char isBareChar cs
      simp only [Bool.false_eq_true, ↓reduceIte, Option.bind_some, Spacing.skip]
      change ((plus (char isBareChar)).read .solid cs).bind _ = _
      rw [hplus]
      cases takeSome? isBareChar cs <;> rfl
  · intro s rest h
    unfold bare? at h
    split at h
    · cases h
    · exact (takeSome?_eq_some_iff.mp h).2.2.2

theorem read_name (cs : List Char) :
    Grammar.name.read .spaced cs = (name? cs).map fun found => ([⟨.name, found.1.toList, []⟩], found.2) := by
  apply read_lexeme
  · rw [read_seq, read_absent_reserved]
    cases cs with
    | nil => rfl
    | cons c cs =>
      rw [name?]
      cases startsReserved (c :: cs) with
      | true => rfl
      | false =>
        have hstar : (star Grammar.wordChar).read .solid cs = some ([], cs.dropWhile isWordChar) :=
          read_star_char isWordChar cs
        simp only [Bool.false_eq_true, ↓reduceIte, Option.bind_some, Spacing.skip, read_seq, read_char,
          Bool.false_or, Bool.not_eq_true']
        cases hc : (c.isAlpha || c == '_') with
        | false => rfl
        | true =>
          have hword : isWordChar c = true := by
            rcases Bool.or_eq_true_iff.mp hc with h | h
            · rw [isWordChar, Char.isAlphanum, h, Bool.true_or, Bool.true_or]
            · rw [isWordChar, h, Bool.or_true]
          rw [takeSome?, List.takeWhile_cons_of_pos hword, List.dropWhile_cons_of_pos hword]
          simp only [↓reduceIte, Option.bind_some, hstar]
          rfl
  · intro s rest h
    exact (name?_eq_some_iff.mp h).2.2

theorem read_body (r : Rule) (quote : Char) (cs : List Char) :
    (Grammar.body r quote).read .joined cs =
      some ([⟨r, cs.takeWhile (· != quote), []⟩], cs.dropWhile (· != quote)) := by
  have hstar : (star (Grammar.anyBut (· == quote))).read .solid cs = some ([], cs.dropWhile (· != quote)) :=
    read_star_char (· != quote) cs
  have htaken : Reading.taken cs (cs.dropWhile (· != quote)) = cs.takeWhile (· != quote) := by
    have h := taken_append (cs.takeWhile (· != quote)) (cs.dropWhile (· != quote))
    rw [List.takeWhile_append_dropWhile] at h
    exact h
  change ((star (Grammar.anyBut (· == quote))).read .solid cs).map _ = _
  rw [hstar]
  simp only [Option.map_some, htaken]

theorem read_quotedBy (hw : w.toList = [quote]) (r : Rule) (cs : List Char) :
    (text w >> Grammar.body r quote >> text w).read .joined cs =
      (quotedBy? quote cs).map fun found => ([⟨r, found.1.toList, []⟩], found.2) := by
  rw [read_seq, read_mark hw]
  cases cs with
  | nil => rfl
  | cons c cs =>
    rw [mark?, quotedBy?]
    cases c == quote with
    | false => rfl
    | true =>
      simp only [↓reduceIte, Option.map_some, Option.bind_some, Spacing.skip, read_seq, read_body, read_mark hw]
      have hstop := Stops.of_dropWhile (· != quote) cs
      cases hd : cs.dropWhile (· != quote) with
      | nil => rfl
      | cons c rest =>
        have hc : (c == quote) = true := by
          rw [hd] at hstop
          simpa only [bne_eq_false_iff_eq, beq_iff_eq] using hstop c rfl
        simp only [mark?, hc, ↓reduceIte, Option.map_some, Option.bind_some, String.toList_ofList]
        rfl

theorem read_quoted (cs : List Char) :
    Reads (fun found s => ∃ r text, found = [⟨.quoted, text, [⟨r, s.toList, []⟩]⟩])
      (Grammar.quoted.read .spaced cs) (quoted? cs) := by
  rw [Grammar.quoted, read_rule, read_alt, read_quotedBy rfl, read_quotedBy rfl, quoted?, Option.orElse_eq_orElse,
    Option.orElse_eq_or]
  cases quotedBy? '\'' cs with
  | some found => exact .both ⟨_, _, rfl⟩ rfl
  | none =>
    cases quotedBy? '"' cs with
    | some found => exact .both ⟨_, _, rfl⟩ rfl
    | none => exact .neither

theorem reads_operand (cs : List Char) :
    Reads (Builds .operand Build.operand) (Grammar.operand.read .spaced cs) (Read.operand cs) := by
  apply Reads.rule
  rw [read_alt, read_alt, Read.operand, Grammar.placeholder, read_rule, read_mark (c := '?') rfl]
  cases mark? '?' cs with
  | some rest =>
    refine .both ?_ rfl
    intro text
    rfl
  | none =>
    rw [Option.map_none, Option.map_none, Option.none_or, Option.orElse_eq_orElse, Option.orElse_eq_or]
    have hquoted := read_quoted cs
    rw [read_bare]
    generalize Grammar.quoted.read .spaced cs = x at hquoted
    generalize quoted? cs = y at hquoted
    cases hquoted with
    | both h hr =>
      obtain ⟨r, inner, rfl⟩ := h
      refine .both ?_ hr
      intro text
      exact congrArg (fun s => Except.ok (Operand.literal s)) String.ofList_toList
    | neither =>
      cases bare? cs with
      | none => exact .neither
      | some found =>
        refine .both ?_ rfl
        intro text
        exact congrArg (fun s => Except.ok (Operand.literal s)) String.ofList_toList

theorem trim_of_word {s : String} (h : ∀ c ∈ s.toList, isWordChar c = true) : Text.trim s = s := by
  have hstop : ∀ cs : List Char, (∀ c ∈ cs, isWordChar c = true) → cs.dropWhile Text.isBlank = cs := by
    intro cs hcs
    cases cs with
    | nil => rfl
    | cons c cs =>
      rw [List.dropWhile_cons_of_neg]
      rw [isBlank_of_isWordChar (hcs c List.mem_cons_self)]
      exact Bool.false_ne_true
  rw [Text.trim, Text.trimLeft, hstop _ h, Text.trimRight, hstop _ fun c hc => h c (List.mem_reverse.mp hc),
    List.reverse_reverse, String.ofList_toList]

theorem ComparisonSpells.build {front : List Char} (h : ComparisonSpells op front rest) :
    Build.comparison (String.ofList front) = .ok op := by
  cases op with
  | like =>
    have hword := isWordChar_of_map_toLower (reservedWords_word _ like_reserved) h.1
    have hlower : Text.lower (String.ofList front) = "like" := by
      rw [lower_eq_iff, String.toList_ofList]
      exact h.1
    rw [Build.comparison, trim_of_word (by rwa [String.toList_ofList]), hlower]
    rfl
  | ne =>
    rcases h with rfl | rfl
    · decide
    · decide
  | gt =>
    rw [h.1]
    decide
  | lt =>
    rw [h.1]
    decide
  | _ =>
    simp only [ComparisonSpells] at h
    rw [h]
    decide

theorem read_text_none {w : String} (h : ∀ rest, cs ≠ w.toList ++ rest) (s : Spacing) :
    (text w).read s cs = none := by
  have hprefix : ¬ w.toList.isPrefixOf cs = true := by
    rw [List.isPrefixOf_iff_prefix]
    rintro ⟨rest, hrest⟩
    exact h rest hrest.symm
  simp only [Pattern.read, Reading.fromOption, if_neg hprefix, Option.map_none]

theorem read_comparison_rest (cs : List Char) :
    ((text ">=" <|> text "<=" <|> text "!=" <|> text "<>" <|> text "=" <|> text ">" <|> text "<" <|>
      Grammar.keyword .wordLike "like").read .spaced cs).map Prod.snd = (Read.comparison cs).map Prod.snd := by
  simp only [read_alt]
  unfold Read.comparison
  split
  · rfl
  · rfl
  · rfl
  · rfl
  · rfl
  · next cs h₁ =>
    have hge : ∀ rest, '>' :: cs ≠ ">=".toList ++ rest := fun rest heq => h₁ rest (List.cons.inj heq).2
    rw [read_text_none hge]
    rfl
  · next cs h₁ h₂ =>
    have hle : ∀ rest, '<' :: cs ≠ "<=".toList ++ rest := fun rest heq => h₁ rest (List.cons.inj heq).2
    have hne : ∀ rest, '<' :: cs ≠ "<>".toList ++ rest := fun rest heq => h₂ rest (List.cons.inj heq).2
    rw [read_text_none hle, read_text_none hne]
    rfl
  · next h₁ h₂ h₃ h₄ h₅ h₆ h₇ =>
    rw [read_text_none h₁, read_text_none h₂, read_text_none h₃, read_text_none h₄, read_text_none h₅,
      read_text_none h₆, read_text_none h₇, read_keyword like_reserved]
    cases keyword? "like" cs <;> rfl

theorem reads_comparison (cs : List Char) :
    Reads (Builds .comparison fun p => Build.comparison p.string) (Grammar.comparison.read .spaced cs)
      (Read.comparison cs) := by
  have hrest := read_comparison_rest cs
  rw [Grammar.comparison, read_rule]
  cases hread : Read.comparison cs with
  | none =>
    rw [hread, Option.map_none, Option.map_eq_none_iff] at hrest
    rw [hrest]
    exact .neither
  | some found =>
    obtain ⟨op, rest⟩ := found
    rw [hread, Option.map_some, Option.map_eq_some_iff] at hrest
    obtain ⟨⟨found, rest⟩, hrest, rfl⟩ := hrest
    obtain ⟨front, rfl, hs⟩ := comparison_eq_some_iff.mp hread
    rw [hrest]
    refine .both ⟨_, rfl, rfl, ?_⟩ rfl
    simp only [Pair.string, taken_append]
    exact hs.build

end QueryGateway.Sql
