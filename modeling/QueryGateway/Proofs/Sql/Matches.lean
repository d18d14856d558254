import QueryGateway.Proofs.Sql.Trees

namespace QueryGateway.Sql
set_option autoImplicit true

namespace Pattern

/-- As many items as follow one another, each of which uses up some of the text. -/
inductive Repeats (item : List Char → Option (List Char) → Prop) : List Char → List Char → Prop
  | stop (h : item cs none) : Repeats item cs cs
  | stuck (h : item cs (some rest)) (hr : ¬ rest.length < cs.length) : Repeats item cs cs
  | more (h : item cs (some rest)) (hr : rest.length < cs.length) (hs : Repeats item rest rest') :
    Repeats item cs rest'

theorem repeats_iff {item : List Char → Option (List Char) → Prop} :
    Repeats item cs rest ↔ item cs none ∧ rest = cs ∨
      ∃ next, item cs (some next) ∧ if next.length < cs.length then Repeats item next rest else rest = cs := by
  constructor
  · intro h
    cases h with
    | stop h => exact .inl ⟨h, rfl⟩
    | stuck h hr => exact .inr ⟨_, h, by rw [if_neg hr]⟩
    | more h hr hs => exact .inr ⟨_, h, by rwa [if_pos hr]⟩
  · rintro (⟨h, rfl⟩ | ⟨next, h, hs⟩)
    · exact .stop h
    · split at hs
      · next hr => exact .more h hr hs
      · next hr =>
        subst hs
        exact .stuck h hr

/-- What a pattern leaves of a text, or that it does not match there. The first of two choices that matches is taken,
and what may be missing or be repeated is taken where it matches. -/
def Leaves : Pattern → Spacing → List Char → Option (List Char) → Prop
  | text w, _, cs, r => ∀ rest, r = some rest ↔ cs = w.toList ++ rest
  | word w, _, cs, r => ∀ rest, r = some rest ↔ ∃ front, cs = front ++ rest ∧ front.map Char.toLower = w.toList
  | char p, _, cs, r => ∀ rest, r = some rest ↔ ∃ c, cs = c :: rest ∧ p c = true
  | finish, _, cs, r => ∀ rest, r = some rest ↔ cs = [] ∧ rest = []
  | seq a b, s, cs, r =>
    a.Leaves s cs none ∧ r = none ∨ ∃ rest, a.Leaves s cs (some rest) ∧ b.Leaves s (s.skip rest) r
  | alt a b, s, cs, r => a.Leaves s cs r ∧ r ≠ none ∨ a.Leaves s cs none ∧ b.Leaves s cs r
  | opt a, s, cs, r => a.Leaves s cs r ∧ r ≠ none ∨ a.Leaves s cs none ∧ r = some cs
  | star a, s, cs, r =>
    a.Leaves s cs none ∧ r = some cs ∨
      ∃ first rest, a.Leaves s cs (some first) ∧ Repeats (fun cs => a.Leaves s (s.skip cs)) first rest ∧ r = some rest
  | absent a, s, cs, r => a.Leaves s cs none ∧ r = some cs ∨ (∃ rest, a.Leaves s cs (some rest)) ∧ r = none
  | rule _ inner a, s, cs, r => a.Leaves (inner.within s) cs r

end Pattern

/-- A reading leaves what a relation says. -/
def Reading.Means (a : Reading) (leaves : List Char → Option (List Char) → Prop) : Prop :=
  ∀ cs r, leaves cs r ↔ (a cs).map Prod.snd = r

namespace Reading.Means

variable {a b : Reading} {A B : List Char → Option (List Char) → Prop}

theorem fromOption {next : List Char → Option (List Char)} {P : List Char → List Char → Prop}
    (h : ∀ cs rest, next cs = some rest ↔ P cs rest) :
    (Reading.fromOption next).Means fun cs r => ∀ rest, r = some rest ↔ P cs rest := by
  intro cs r
  have hnext : (Reading.fromOption next cs).map Prod.snd = next cs := by
    rw [Reading.fromOption, Option.map_map]
    exact Option.map_id_fun' ▸ rfl
  rw [hnext]
  constructor
  · intro hr
    apply Option.ext
    intro rest
    exact (h cs rest).trans (hr rest).symm
  · rintro rfl rest
    exact h cs rest

theorem andThen (ha : a.Means A) (hb : b.Means B) :
    (a.andThen b).Means fun cs r => A cs none ∧ r = none ∨ ∃ rest, A cs (some rest) ∧ B rest r := by
  intro cs r
  simp only [ha cs, hb _ r, Reading.andThen]
  cases hread : a cs with
  | none => simp [eq_comm]
  | some found =>
    obtain ⟨first, rest⟩ := found
    cases hmore : b rest with
    | none => simp [hmore]
    | some found' => simp [hmore]

theorem between (hb : b.Means B) (s : Spacing) : ((Pattern.between s).andThen b).Means fun cs => B (s.skip cs) := by
  intro cs r
  rw [between_andThen]
  exact hb _ r

theorem orElse (ha : a.Means A) (hb : b.Means B) :
    (a.orElse b).Means fun cs r => A cs r ∧ r ≠ none ∨ A cs none ∧ B cs r := by
  intro cs r
  simp only [ha cs, hb cs, Reading.orElse]
  cases a cs with
  | none => simp [eq_comm (a := r)]
  | some found =>
    simp
    rintro rfl hnone
    cases hnone

theorem optional (ha : a.Means A) :
    a.optional.Means fun cs r => A cs r ∧ r ≠ none ∨ A cs none ∧ r = some cs := by
  intro cs r
  simp only [ha cs, Reading.optional]
  cases a cs with
  | none => simp [eq_comm (a := r)]
  | some found =>
    simp
    rintro rfl hnone
    cases hnone

theorem repeated (ha : a.Means A) (hlen : cs.length ≤ bound) (rest : List Char) :
    Pattern.Repeats A cs rest ↔ (a.repeated bound cs).map Prod.snd = some rest := by
  induction bound generalizing cs with
  | zero =>
    cases List.eq_nil_of_length_eq_zero (Nat.le_zero.mp hlen)
    simp only [Pattern.repeats_iff, ha [], Reading.repeated, List.length_nil, Nat.not_lt_zero, ↓reduceIte]
    cases a [] <;> simp [eq_comm]
  | succ bound ih =>
    rw [Pattern.repeats_iff]
    simp only [ha cs, Reading.repeated]
    cases a cs with
    | none => simp [eq_comm]
    | some found =>
      obtain ⟨first, next⟩ := found
      by_cases hr : next.length < cs.length
      · have hmore : Pattern.Repeats A next rest ↔ (a.repeated bound next).map Prod.snd = some rest :=
          ih (Nat.le_of_lt_succ (Nat.lt_of_lt_of_le hr hlen))
        simp [hr, hmore, Option.map_map, Function.comp_def]
      · simp [hr, eq_comm]

theorem refute (ha : a.Means A) :
    a.refute.Means fun cs r => A cs none ∧ r = some cs ∨ (∃ rest, A cs (some rest)) ∧ r = none := by
  intro cs r
  simp only [ha cs, Reading.refute]
  cases a cs with
  | none => simp [eq_comm]
  | some found => simp [eq_comm]

end Reading.Means

theorem Reading.exists_repeated (a : Reading) (bound : Nat) (cs : List Char) :
    ∃ found rest, a.repeated bound cs = some (found, rest) := by
  induction bound generalizing cs with
  | zero => exact ⟨_, _, rfl⟩
  | succ bound ih =>
    simp only [Reading.repeated]
    split
    · exact ⟨_, _, rfl⟩
    · next found rest hread =>
      split
      · obtain ⟨more, rest', hmore⟩ := ih rest
        exact ⟨_, _, by rw [hmore]; rfl⟩
      · exact ⟨_, _, rfl⟩

namespace Pattern

/-- A pattern reads what it means. -/
theorem read_means (a : Pattern) (s : Spacing) : (a.read s).Means (a.Leaves s) := by
  induction a generalizing s with
  | text w =>
    apply Reading.Means.fromOption
    intro cs rest
    rw [Option.ite_none_right_eq_some, List.isPrefixOf_iff_prefix, Option.some.injEq, ← String.length_toList]
    constructor
    · rintro ⟨⟨rest', rfl⟩, rfl⟩
      rw [List.drop_left]
    · rintro rfl
      exact ⟨List.prefix_append _ _, List.drop_left⟩
  | word w =>
    apply Reading.Means.fromOption
    intro cs rest
    rw [Option.ite_none_right_eq_some, List.isPrefixOf_iff_prefix, Option.some.injEq, ← String.length_toList]
    constructor
    · rintro ⟨hfront, rfl⟩
      refine ⟨cs.take w.toList.length, (List.take_append_drop _ _).symm, (hfront.eq_of_length_le ?_).symm⟩
      rw [List.length_map, List.length_take]
      exact Nat.min_le_left _ _
    · rintro ⟨front, rfl, hw⟩
      rw [← hw, List.length_map]
      exact ⟨by rw [List.take_left], List.drop_left⟩
  | char p =>
    apply Reading.Means.fromOption
    intro cs rest
    cases cs with
    | nil => simp
    | cons c cs => simp [and_comm]
  | finish =>
    apply Reading.Means.fromOption
    intro cs rest
    cases cs <;> simp [eq_comm]
  | seq a b iha ihb => exact (iha s).andThen ((ihb s).between s)
  | alt a b iha ihb => exact (iha s).orElse (ihb s)
  | opt a ih => exact (ih s).optional
  | star a ih =>
    intro cs r
    simp only [Leaves, ih s cs, Pattern.read, Reading.optional, Reading.andThen]
    cases hread : a.read s cs with
    | none => simp [eq_comm]
    | some found =>
      obtain ⟨found, first⟩ := found
      have hle := (read_splits a s _ _ _ hread).length_le
      have hrepeats := ((ih s).between s).repeated hle
      obtain ⟨more, rest, hmore⟩ := Reading.exists_repeated ((between s).andThen (a.read s)) cs.length first
      simp only [hmore, Option.map_some, Option.some.injEq] at hrepeats
      simp [hmore, hrepeats, eq_comm]
  | absent a ih => exact (ih s).refute
  | rule r inner a ih =>
    intro cs r
    rw [read]
    split
    · exact ih _ cs r
    · rw [Reading.paired, Option.map_map]
      exact ih _ cs r

/-- The pattern matches all of the text. -/
def Matches (a : Pattern) (cs : List Char) : Prop :=
  a.Leaves .spaced cs (some [])

theorem matches_iff_read (a : Pattern) (cs : List Char) :
    a.Matches cs ↔ ∃ pairs, a.read .spaced cs = some (pairs, []) := by
  rw [Matches, a.read_means .spaced cs, Option.map_eq_some_iff, Prod.exists]
  simp only [exists_eq_right]

/-- To follow a pattern is to look whether it matches. -/
theorem matches_iff_follow (a : Pattern) (cs : List Char) :
    a.Matches cs ↔ (a.follow .spaced ⟨0, cs⟩ ⟨0, []⟩).1 = some ⟨cs.length, []⟩ := by
  obtain ⟨seen, h⟩ := a.follow_follows .spaced ⟨0, cs⟩ ⟨0, []⟩
  rw [matches_iff_read, h, Option.map_eq_some_iff]
  constructor
  · rintro ⟨pairs, hread⟩
    refine ⟨_, hread, ?_⟩
    simp only [Cursor.reach, List.length_nil, Nat.sub_zero, Nat.zero_add]
  · rintro ⟨⟨pairs, rest⟩, hread, heq⟩
    cases congrArg Cursor.rest heq
    exact ⟨pairs, hread⟩

end Pattern

end QueryGateway.Sql
