import Mathlib
import QueryGateway.Execution

namespace QueryGateway
set_option autoImplicit true

open Store

/-- What has a key stands where the order of the keys puts it; what has none comes last. -/
def NoneLast (le : α → α → Prop) : Option α → Option α → Prop
  | some x, some y => le x y
  | some _, none => True
  | none, some _ => False
  | none, none => True

namespace NoneLast

variable {le : α → α → Prop}

theorem trans (h : ∀ x y z, le x y → le y z → le x z) (x y z : Option α) (hxy : NoneLast le x y)
    (hyz : NoneLast le y z) : NoneLast le x z := by
  match x, y, z with
  | some x, some y, some z => exact h x y z hxy hyz
  | some x, _, none => trivial
  | none, none, none => trivial
  | some x, none, some z => cases hyz
  | none, some y, _ => cases hxy
  | none, none, some z => cases hyz

theorem total (h : ∀ x y, le x y ∨ le y x) (x y : Option α) : NoneLast le x y ∨ NoneLast le y x := by
  match x, y with
  | some x, some y => exact h x y
  | some x, none => exact .inl trivial
  | none, some y => exact .inr trivial
  | none, none => exact .inl trivial

theorem pairwise_mergeSort (key : β → Option α) {before : β → β → Bool}
    (h : ∀ a b, before a b = true ↔ NoneLast le (key a) (key b)) (htrans : ∀ x y z, le x y → le y z → le x z)
    (htotal : ∀ x y, le x y ∨ le y x) (l : List β) :
    (l.mergeSort before).Pairwise fun a b => NoneLast le (key a) (key b) := by
  have hsorted : (l.mergeSort before).Pairwise fun a b => before a b = true := by
    apply List.pairwise_mergeSort
    · intro a b c hab hbc
      exact (h a c).mpr (trans htrans _ _ _ ((h a b).mp hab) ((h b c).mp hbc))
    · intro a b
      rw [Bool.or_eq_true, h, h]
      exact total htotal _ _
  exact hsorted.imp fun hab => (h _ _).mp hab

end NoneLast

def Direction.Le : Direction → List Int → List Int → Prop
  | .ascending, x, y => ¬ y < x
  | .descending, x, y => ¬ x < y

theorem Direction.le_trans (d : Direction) (x y z : List Int) (hxy : d.Le x y) (hyz : d.Le y z) : d.Le x z := by
  cases d with
  | ascending => exact List.not_lt.mpr (List.le_trans (List.not_lt.mp hxy) (List.not_lt.mp hyz))
  | descending => exact List.not_lt.mpr (List.le_trans (List.not_lt.mp hyz) (List.not_lt.mp hxy))

theorem Direction.le_total (d : Direction) (x y : List Int) : d.Le x y ∨ d.Le y x := by
  cases d with
  | ascending => exact (List.le_total x y).imp List.not_lt.mpr List.not_lt.mpr
  | descending => exact (List.le_total y x).imp List.not_lt.mpr List.not_lt.mpr

theorem Store.Value.notAfter_iff {a b : Value} : a.notAfter d b = true ↔ NoneLast d.Le a.key? b.key? := by
  unfold notAfter NoneLast
  cases a.key? with
  | none => cases b.key? <;> simp only [Bool.false_eq_true]
  | some x =>
    cases b.key? with
    | none => simp only
    | some y =>
      cases d with
      | ascending => simp only [Direction.Le, Bool.not_eq_true', decide_eq_false_iff_not]
      | descending => simp only [Direction.Le, Bool.not_eq_true', decide_eq_false_iff_not]

theorem Store.Value.pairwise_mergeSort (value : α → Value) (d : Direction) (l : List α) :
    (l.mergeSort fun a b => (value a).notAfter d (value b)).Pairwise
      fun a b => NoneLast d.Le (value a).key? (value b).key? :=
  NoneLast.pairwise_mergeSort (fun a => (value a).key?) (fun _ _ => notAfter_iff) d.le_trans d.le_total l

def FloatLe (x y : Float) : Prop :=
  floatRank x ≤ floatRank y

theorem FloatLe.trans (x y z : Float) (hxy : FloatLe x y) (hyz : FloatLe y z) : FloatLe x z :=
  Int.le_trans hxy hyz

theorem FloatLe.total (x y : Float) : FloatLe x y ∨ FloatLe y x :=
  Int.le_total _ _

theorem Ranking.notAfter_iff {x y : Option Float} : notAfter x y = true ↔ NoneLast FloatLe x y := by
  match x, y with
  | some x, some y => exact decide_eq_true_iff
  | some x, none => exact iff_of_true rfl trivial
  | none, some y => exact iff_of_false Bool.false_ne_true id
  | none, none => exact iff_of_true rfl trivial

theorem Ranking.pairwise_mergeSort (dist : α → Option Float) (l : List α) :
    (l.mergeSort fun a b => notAfter (dist a) (dist b)).Pairwise fun a b => NoneLast FloatLe (dist a) (dist b) :=
  NoneLast.pairwise_mergeSort dist (fun _ _ => notAfter_iff) FloatLe.trans FloatLe.total l

/-- The best of the candidates: as many as the limit allows, in order, and none that is left out comes before them. -/
structure Chosen (R : α → α → Prop) (limit : Option Nat) (candidates chosen : List α) : Prop where
  count : chosen.length = match limit with
    | none => candidates.length
    | some n => min n candidates.length
  ordered : chosen.Pairwise R
  others : ∃ omitted, (chosen ++ omitted).Perm candidates ∧ ∀ a ∈ chosen, ∀ b ∈ omitted, R a b

theorem Ranking.exists_cut (limit : Option Nat) (l : List α) : ∃ rest, cut limit l ++ rest = l := by
  cases limit with
  | none => exact ⟨[], List.append_nil l⟩
  | some n => exact ⟨l.drop n, List.take_append_drop n l⟩

theorem Ranking.map_cut (limit : Option Nat) (f : α → β) (l : List α) : (cut limit l).map f = cut limit (l.map f) := by
  cases limit with
  | none => rfl
  | some n => exact List.map_take

/-- The first of the candidates in order are the best of them. -/
theorem Chosen.of_sorted {sorted candidates : List α} (hperm : sorted.Perm candidates) (hsorted : sorted.Pairwise R)
    (limit : Option Nat) : Chosen R limit candidates (Ranking.cut limit sorted) := by
  obtain ⟨rest, hrest⟩ := Ranking.exists_cut limit sorted
  rw [← hrest] at hsorted
  obtain ⟨hchosen, -, hacross⟩ := List.pairwise_append.mp hsorted
  refine ⟨?_, hchosen, rest, hrest.symm ▸ hperm, hacross⟩
  cases limit with
  | none => exact hperm.length_eq
  | some n => rw [Ranking.cut, List.length_take, hperm.length_eq]

theorem Ranking.nearestFirst_map {l : List α} {row : α → Row} {dist : α → Option Float}
    (h : ∀ a ∈ l, distance? column metric vector (row a) = dist a) :
    nearestFirst column metric vector (l.map row) = (l.mergeSort fun a b => notAfter (dist a) (dist b)).map row := by
  have hpairs : (l.map row).map (fun r => (distance? column metric vector r, r)) = l.map fun a => (dist a, row a) := by
    rw [List.map_map]
    exact List.map_congr_left fun a ha => congrArg (·, row a) (h a ha)
  have hsort : (l.map fun a => (dist a, row a)).mergeSort (fun p q => notAfter p.1 q.1) =
      (l.mergeSort fun a b => notAfter (dist a) (dist b)).map fun a => (dist a, row a) := by
    symm
    apply List.map_mergeSort
    intro a _ b _
    rfl
  rw [nearestFirst, hpairs, hsort, List.map_map]
  rfl

end QueryGateway
