import QueryGateway.Proofs.Sql.Words
import QueryGateway.Sql.Tree

namespace QueryGateway.Sql
set_option autoImplicit true

/-- What a reading leaves is the end of the text. -/
def Reading.Splits (a : Reading) : Prop :=
  ∀ cs found rest, a cs = some (found, rest) → rest <:+ cs

namespace Reading

theorem andThen_eq_some_iff {a b : Reading} :
    a.andThen b cs = some (found, rest) ↔
      ∃ first cs' more, a cs = some (first, cs') ∧ b cs' = some (more, rest) ∧ first ++ more = found := by
  simp only [andThen, Option.bind_eq_bind, Option.bind_eq_some_iff, Prod.exists, Option.pure_def, Option.some.injEq,
    Prod.mk.injEq]
  constructor
  · rintro ⟨first, cs', ha, more, rest', hb, rfl, rfl⟩
    exact ⟨first, cs', more, ha, hb, rfl⟩
  · rintro ⟨first, cs', more, ha, hb, rfl⟩
    exact ⟨first, cs', ha, more, rest, hb, rfl, rfl⟩

theorem paired_eq_some_iff {a : Reading} :
    a.paired r cs = some (found, rest) ↔
      ∃ inner, a cs = some (inner, rest) ∧ found = [⟨r, taken cs rest, inner⟩] := by
  simp only [paired, Option.map_eq_some_iff, Prod.exists, Prod.mk.injEq]
  constructor
  · rintro ⟨inner, _, h, rfl, rfl⟩
    exact ⟨inner, h, rfl⟩
  · rintro ⟨inner, h, rfl⟩
    exact ⟨inner, rest, h, rfl, rfl⟩

namespace Splits

variable {a b : Reading}

theorem fromOption {next : List Char → Option (List Char)} (h : ∀ cs rest, next cs = some rest → rest <:+ cs) :
    (Reading.fromOption next).Splits := by
  intro cs found rest hr
  obtain ⟨_, hn, heq⟩ := Option.map_eq_some_iff.mp hr
  cases heq
  exact h cs _ hn

theorem andThen (ha : a.Splits) (hb : b.Splits) : (a.andThen b).Splits := by
  intro cs found rest h
  obtain ⟨first, cs', more, h₁, h₂, -⟩ := andThen_eq_some_iff.mp h
  exact (hb _ _ _ h₂).trans (ha _ _ _ h₁)

theorem orElse (ha : a.Splits) (hb : b.Splits) : (a.orElse b).Splits := by
  intro cs found rest h
  rcases Option.or_eq_some_iff.mp h with h | ⟨-, h⟩
  · exact ha _ _ _ h
  · exact hb _ _ _ h

theorem optional (ha : a.Splits) : a.optional.Splits := by
  intro cs found rest h
  rcases Option.or_eq_some_iff.mp h with h | ⟨-, h⟩
  · exact ha _ _ _ h
  · cases h
    exact List.suffix_refl cs

theorem repeated (ha : a.Splits) (bound : Nat) : (a.repeated bound).Splits := by
  induction bound with
  | zero =>
    intro cs found rest h
    cases h
    exact List.suffix_refl cs
  | succ bound ih =>
    intro cs found rest h
    simp only [Reading.repeated] at h
    split at h
    · cases h
      exact List.suffix_refl cs
    · next found' rest' hf =>
      split at h
      · obtain ⟨⟨more, rest''⟩, hm, heq⟩ := Option.map_eq_some_iff.mp h
        cases heq
        exact (ih _ _ _ hm).trans (ha _ _ _ hf)
      · cases h
        exact List.suffix_refl cs

theorem refute (a : Reading) : a.refute.Splits := by
  intro cs found rest h
  simp only [Reading.refute] at h
  split at h
  · cases h
    exact List.suffix_refl cs
  · cases h

theorem paired (ha : a.Splits) (r : Rule) : (a.paired r).Splits := by
  intro cs found rest h
  obtain ⟨inner, hi, -⟩ := paired_eq_some_iff.mp h
  exact ha _ _ _ hi

end Splits

end Reading

namespace Pattern

theorem between_splits (s : Spacing) : (between s).Splits := by
  cases s with
  | spaced =>
    apply Reading.Splits.fromOption
    intro cs rest h
    cases h
    exact List.dropWhile_suffix isSpace
  | joined =>
    apply Reading.Splits.fromOption
    intro cs rest h
    cases h
    exact List.suffix_refl cs
  | solid =>
    apply Reading.Splits.fromOption
    intro cs rest h
    cases h
    exact List.suffix_refl cs

theorem read_splits (a : Pattern) (s : Spacing) : (a.read s).Splits := by
  have hdrop {p : List Char → Prop} [DecidablePred p] (n : Nat) :
      (Reading.fromOption fun cs => if p cs then some (cs.drop n) else none).Splits := by
    apply Reading.Splits.fromOption
    intro cs rest h
    obtain ⟨-, heq⟩ := Option.ite_none_right_eq_some.mp h
    cases heq
    exact List.drop_suffix n cs
  induction a generalizing s with
  | text w => exact hdrop w.length
  | word w => exact hdrop w.length
  | char p => exact hdrop 1
  | finish => exact hdrop 0
  | seq a b iha ihb => exact (iha s).andThen ((between_splits s).andThen (ihb s))
  | alt a b iha ihb => exact (iha s).orElse (ihb s)
  | opt a ih => exact (ih s).optional
  | star a ih =>
    intro cs
    exact ((ih s).andThen (((between_splits s).andThen (ih s)).repeated cs.length)).optional cs
  | absent a ih => exact Reading.Splits.refute _
  | rule r inner a ih =>
    simp only [read]
    split
    · exact ih _
    · exact (ih _).paired r

end Pattern

def Spacing.skip : Spacing → List Char → List Char
  | .spaced, cs => skipSpaces cs
  | _, cs => cs

theorem between_andThen (s : Spacing) (a : Reading) (cs : List Char) :
    (Pattern.between s).andThen a cs = a (s.skip cs) := by
  have hbetween : Pattern.between s cs = some ([], s.skip cs) := by
    cases s <;> rfl
  simp only [Reading.andThen, hbetween, Option.bind_eq_bind, Option.bind_some, List.nil_append, Option.pure_def]
  exact Option.bind_fun_some _

namespace Cursor

/-- The cursor at which `rest` is still to come. -/
def reach (c : Cursor) (rest : List Char) : Cursor :=
  ⟨c.position + (c.rest.length - rest.length), rest⟩

theorem reach_self (c : Cursor) : c.reach c.rest = c := by
  rw [reach, Nat.sub_self]
  rfl

theorem reach_reach {c : Cursor} {rest rest' : List Char} (h₁ : rest <:+ c.rest) (h₂ : rest' <:+ rest) :
    (c.reach rest).reach rest' = c.reach rest' := by
  have h₁ := h₁.length_le
  have h₂ := h₂.length_le
  simp only [reach, Cursor.mk.injEq, and_true]
  omega

theorem advance_eq {c : Cursor} (h : n ≤ c.rest.length) : c.advance n = c.reach (c.rest.drop n) := by
  simp only [advance, reach, List.length_drop, Cursor.mk.injEq, and_true]
  omega

end Cursor

/-- A step goes to the rest that a reading leaves, and fails where the reading does. -/
def Step.Follows (a : Step) (r : Reading) : Prop :=
  ∀ c seen, ∃ seen', a c seen = ((r c.rest).map fun found => c.reach found.2, seen')

namespace Step.Follows

variable {a b : Step} {r t : Reading}

theorem fromOption {next : Cursor → Option Cursor} {take : List Char → Option (List Char)}
    (h : ∀ c, next c = (take c.rest).map c.reach) : (Step.fromOption next).Follows (Reading.fromOption take) := by
  intro c seen
  refine ⟨seen, ?_⟩
  simp only [Step.fromOption, Reading.fromOption, h, Option.map_map]
  rfl

theorem andThen (ha : a.Follows r) (hb : b.Follows t) (hr : r.Splits) (ht : t.Splits) :
    (a.andThen b).Follows (r.andThen t) := by
  intro c seen
  obtain ⟨seen₁, h₁⟩ := ha c seen
  simp only [Step.andThen, Reading.andThen, h₁]
  cases hfirst : r c.rest with
  | none => exact ⟨seen₁, rfl⟩
  | some found =>
    obtain ⟨first, rest⟩ := found
    obtain ⟨seen₂, h₂⟩ := hb (c.reach rest) seen₁
    refine ⟨seen₂, h₂.trans ?_⟩
    change ((t rest).map _, seen₂) = _
    cases hmore : t rest with
    | none => simp [hmore]
    | some found' =>
      have hreach := Cursor.reach_reach (hr _ _ _ hfirst) (ht _ _ _ hmore)
      simp [hmore, hreach]

theorem orElse (ha : a.Follows r) (hb : b.Follows t) : (a.orElse b).Follows (r.orElse t) := by
  intro c seen
  obtain ⟨seen₁, h₁⟩ := ha c seen
  simp only [Step.orElse, Reading.orElse, h₁]
  cases r c.rest with
  | none => exact hb c seen₁
  | some found => exact ⟨seen₁, rfl⟩

theorem optional (ha : a.Follows r) : a.optional.Follows r.optional := by
  intro c seen
  obtain ⟨seen₁, h₁⟩ := ha c seen
  refine ⟨seen₁, ?_⟩
  simp only [Step.optional, Reading.optional, h₁]
  cases r c.rest with
  | none => exact congrArg (some · , seen₁) c.reach_self.symm
  | some found => rfl

theorem repeated (ha : a.Follows r) (hr : r.Splits) (bound : Nat) :
    (a.repeated bound).Follows (r.repeated bound) := by
  induction bound with
  | zero =>
    intro c seen
    exact ⟨seen, congrArg (some · , seen) c.reach_self.symm⟩
  | succ bound ih =>
    intro c seen
    obtain ⟨seen₁, h₁⟩ := ha c seen
    simp only [Step.repeated, Reading.repeated, h₁]
    cases hfirst : r c.rest with
    | none => exact ⟨seen₁, congrArg (some · , seen₁) c.reach_self.symm⟩
    | some found =>
      obtain ⟨first, rest⟩ := found
      have hrest := hr _ _ _ hfirst
      have hmoves : (c.reach rest).position > c.position ↔ rest.length < c.rest.length := by
        have hle := hrest.length_le
        simp only [Cursor.reach]
        omega
      simp only [Option.map_some, hmoves]
      split
      · obtain ⟨seen₂, h₂⟩ := ih (c.reach rest) seen₁
        refine ⟨seen₂, h₂.trans ?_⟩
        change ((r.repeated bound rest).map _, seen₂) = _
        cases hmore : r.repeated bound rest with
        | none => rfl
        | some found' =>
          have hreach := Cursor.reach_reach hrest (hr.repeated bound _ _ _ hmore)
          simp [hreach]
      · exact ⟨seen₁, congrArg (some · , seen₁) c.reach_self.symm⟩

theorem refute (ha : a.Follows r) : a.refute.Follows r.refute := by
  intro c seen
  obtain ⟨seen₁, h₁⟩ := ha c seen
  refine ⟨seen, ?_⟩
  simp only [Step.refute, Reading.refute, h₁]
  cases r c.rest with
  | none => exact congrArg (some · , seen) c.reach_self.symm
  | some found => rfl

theorem recorded (ha : a.Follows r) (rule : Rule) : (a.recorded rule).Follows (r.paired rule) := by
  intro c seen
  obtain ⟨seen₁, h₁⟩ := ha c seen
  simp only [Step.recorded, Reading.paired, h₁]
  cases r c.rest with
  | none => exact ⟨_, rfl⟩
  | some found => exact ⟨seen₁, rfl⟩

end Step.Follows

namespace Pattern

theorem blanks_follows (s : Spacing) : (blanks s).Follows (between s) := by
  cases s with
  | spaced =>
    apply Step.Follows.fromOption
    intro c
    have hle := (List.takeWhile_prefix isSpace (l := c.rest)).length_le
    have hdrop : c.rest.drop (c.rest.takeWhile isSpace).length = skipSpaces c.rest := by
      calc c.rest.drop (c.rest.takeWhile isSpace).length
          = (c.rest.takeWhile isSpace ++ c.rest.dropWhile isSpace).drop (c.rest.takeWhile isSpace).length := by
            rw [List.takeWhile_append_dropWhile]
        _ = skipSpaces c.rest := List.drop_left
    rw [Option.map_some, ← hdrop]
    exact congrArg some (Cursor.advance_eq hle)
  | joined => exact .fromOption fun c => congrArg some c.reach_self.symm
  | solid => exact .fromOption fun c => congrArg some c.reach_self.symm

/-- A pattern is followed to where it is read to. -/
theorem follow_follows (a : Pattern) (s : Spacing) : (a.follow s).Follows (a.read s) := by
  have htake (p : List Char → Bool) (n : Nat) (hp : ∀ cs, p cs = true → n ≤ cs.length) :
      (Step.fromOption fun c => if p c.rest then some (c.advance n) else none).Follows
        (Reading.fromOption fun cs => if p cs then some (cs.drop n) else none) := by
    apply Step.Follows.fromOption
    intro c
    split
    · next h => exact congrArg some (Cursor.advance_eq (hp _ h))
    · rfl
  induction a generalizing s with
  | text w =>
    apply htake (w.toList.isPrefixOf ·) w.length
    intro cs h
    exact (List.isPrefixOf_iff_prefix.mp h).length_le
  | word w =>
    apply htake (fun cs => w.toList.isPrefixOf ((cs.take w.length).map Char.toLower)) w.length
    intro cs h
    have hle := (List.isPrefixOf_iff_prefix.mp h).length_le
    rw [List.length_map, List.length_take] at hle
    exact hle.trans (Nat.min_le_right _ _)
  | char p =>
    apply htake (·.head?.any p) 1
    intro cs h
    cases cs with
    | nil => cases h
    | cons c cs => exact Nat.succ_le_succ (Nat.zero_le _)
  | finish =>
    apply Step.Follows.fromOption
    intro c
    split
    · next h => exact congrArg some c.reach_self.symm
    · rfl
  | seq a b iha ihb =>
    have hsplit := (between_splits s).andThen (read_splits b s)
    exact (iha s).andThen ((blanks_follows s).andThen (ihb s) (between_splits s) (read_splits b s))
      (read_splits a s) hsplit
  | alt a b iha ihb => exact (iha s).orElse (ihb s)
  | opt a ih => exact (ih s).optional
  | star a ih =>
    intro c
    have hsplit := (between_splits s).andThen (read_splits a s)
    have hitem := (blanks_follows s).andThen (ih s) (between_splits s) (read_splits a s)
    exact ((ih s).andThen (hitem.repeated hsplit c.rest.length) (read_splits a s)
      (hsplit.repeated c.rest.length)).optional c
  | absent a ih => exact (ih s).refute
  | rule r inner a ih =>
    have hrule : (rule r inner a).follow s =
        if s = .solid then a.follow (inner.within s) else (a.follow (inner.within s)).recorded r := by
      cases inner <;> rfl
    rw [hrule, read]
    split
    · exact ih _
    · exact (ih _).recorded r

end Pattern

end QueryGateway.Sql
