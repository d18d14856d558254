import QueryGateway.Proofs.Execution.Order
import QueryGateway.Proofs.Traversal

namespace QueryGateway
set_option autoImplicit true

theorem pairwise_mergeSort_stable {le : α → α → Bool} {Earlier : α → α → Prop}
    (htrans : ∀ a b c, le a b = true → le b c = true → le a c = true) (htotal : ∀ a b, (le a b || le b a) = true)
    {l : List α} (hl : l.Pairwise Earlier) :
    (l.mergeSort le).Pairwise fun a b => le a b = true ∧ (le b a = true → Earlier a b) := by
  rw [← List.mergeSort_zipIdx, List.pairwise_map]
  have hsorted := List.pairwise_mergeSort (List.zipIdxLE_trans htrans) (List.zipIdxLE_total htotal) l.zipIdx
  have hplaces : (l.zipIdx.mergeSort (List.zipIdxLE le)).Pairwise fun p q => p.2 ≠ q.2 := by
    apply ((List.mergeSort_perm l.zipIdx _).pairwise_iff fun h => Ne.symm h).mpr
    rw [← List.pairwise_map (f := Prod.snd), List.zipIdx_map_snd]
    exact List.nodup_range'
  have hentry : ∀ p ∈ l.zipIdx.mergeSort (List.zipIdxLE le), l[p.2]? = some p.1 := by
    intro p hp
    exact List.mem_zipIdx_iff_getElem?.mp (List.mem_mergeSort.mp hp)
  refine (hsorted.and hplaces).imp_of_mem fun {p q} hp hq ⟨hle, hne⟩ => ?_
  unfold List.zipIdxLE at hle
  split at hle
  · next hpq =>
    refine ⟨hpq, fun hqp => ?_⟩
    rw [if_pos hqp] at hle
    have hlt : p.2 < q.2 := Nat.lt_of_le_of_ne (of_decide_eq_true hle) hne
    obtain ⟨hi, hpi⟩ := List.getElem?_eq_some_iff.mp (hentry p hp)
    obtain ⟨hj, hqj⟩ := List.getElem?_eq_some_iff.mp (hentry q hq)
    have hearlier := List.pairwise_iff_getElem.mp hl p.2 q.2 hi hj hlt
    rwa [hpi, hqj] at hearlier
  · exact absurd hle Bool.false_ne_true

theorem floatRank_inj {x y : Float} : floatRank x = floatRank y ↔ x = y := by
  refine ⟨fun h => Float.toBits_inj.mp (UInt64.toNat_inj.mp ?_), fun h => congrArg floatRank h⟩
  unfold floatRank at h
  have hx := x.toBits.toNat_lt
  have hy := y.toBits.toNat_lt
  simp only at h
  split at h <;> split at h <;> omega

namespace Ranking

/-- Why a row has no distance to a vector. -/
inductive Incomparable (column : String) (metric : Metric) (vector : List Float) (row : Row) : Prop where
  | missing (h : row.lookup column = none)
  | notAList (h : row.lookup column = some v) (hv : ∀ items, v ≠ .array items)
  | notANumber (h : row.lookup column = some (.array items)) (hw : w ∈ items) (hn : w.number? = none)
  | dimension (h : row.lookup column = some (.array items)) (hl : items.length ≠ vector.length)
  | undefined (h : row.lookup column = some (.array items))
      (hx : List.Forall₂ (fun w x => w.number? = some x) items xs) (hd : metric.distance xs vector = none)

/-- The first is strictly nearer; what has a distance is nearer than what has none. -/
def Nearer : Option Float → Option Float → Prop
  | some x, some y => floatRank x < floatRank y
  | some _, none => True
  | none, _ => False

/-- What is nearer comes first, and of what is equally near that which came first before. -/
def Precedes (dist : Fin n → Option Float) (i j : Fin n) : Prop :=
  Nearer (dist i) (dist j) ∨ dist i = dist j ∧ i < j

/-- All positions, each of them once, by distance. -/
structure Arranged (dist : Fin n → Option Float) (order : List (Fin n)) : Prop where
  perm : order.Perm (List.finRange n)
  sorted : order.Pairwise (Precedes dist)

theorem distance_other_length (metric : Metric) (h : xs.length ≠ vector.length) : metric.distance xs vector = none := by
  cases metric with
  | cosine =>
    change Vector.cosineDistance xs vector = none
    rw [Vector.cosineDistance, if_pos (by rw [Bool.or_eq_true, decide_eq_true_eq]; exact .inl h)]

theorem distance?_of_array (h : row.lookup column = some (.array items)) :
    distance? column metric vector row = (items.mapM Json.number?).bind (metric.distance · vector) := by
  simp only [distance?, h, Json.vector?, Json.array?, Option.bind_eq_bind, Option.bind_some]

theorem distance?_of_not_array (h : row.lookup column = some v) (hv : ∀ items, v ≠ .array items) :
    distance? column metric vector row = none := by
  have harray : v.array? = none := by
    cases v with
    | array items => exact absurd rfl (hv items)
    | _ => rfl
  simp only [distance?, h, Json.vector?, harray, Option.bind_eq_bind, Option.bind_some, Option.bind_none]

/-- A row is without a distance exactly for one of the reasons there are. -/
theorem distance?_eq_none_iff :
    distance? column metric vector row = none ↔ Incomparable column metric vector row := by
  constructor
  · intro h
    cases hrow : row.lookup column with
    | none => exact .missing hrow
    | some v =>
      by_cases hv : ∃ items, v = .array items
      · obtain ⟨items, rfl⟩ := hv
        rw [distance?_of_array hrow] at h
        cases hnumbers : items.mapM Json.number? with
        | none =>
          obtain ⟨w, hw, hn⟩ := mapM_eq_none_iff.mp hnumbers
          exact .notANumber hrow hw hn
        | some xs =>
          rw [hnumbers, Option.bind_some] at h
          exact .undefined hrow (mapM_eq_some_iff.mp hnumbers) h
      · exact .notAList hrow fun items he => hv ⟨items, he⟩
  · intro h
    cases h with
    | missing hrow => simp only [distance?, hrow, Option.bind_eq_bind, Option.bind_none]
    | notAList hrow hv => exact distance?_of_not_array hrow hv
    | notANumber hrow hw hn =>
      rw [distance?_of_array hrow, mapM_eq_none_iff.mpr ⟨_, hw, hn⟩, Option.bind_none]
    | dimension hrow hl =>
      rw [distance?_of_array hrow, Option.bind_eq_none_iff]
      intro xs hxs
      apply distance_other_length
      rwa [← (mapM_eq_some_iff.mp hxs).length_eq]
    | undefined hrow hx hd => rw [distance?_of_array hrow, mapM_eq_some_iff.mpr hx, Option.bind_some, hd]

theorem noneLast_iff {x y : Option Float} : NoneLast FloatLe x y ↔ Nearer x y ∨ x = y := by
  match x, y with
  | some x, some y =>
    rw [Option.some.injEq, ← floatRank_inj]
    exact Int.le_iff_lt_or_eq
  | some x, none => exact iff_of_true trivial (.inl trivial)
  | none, some y => exact iff_of_false id (fun h => h.elim id nofun)
  | none, none => exact iff_of_true trivial (.inr rfl)

theorem not_nearer_iff {x y : Option Float} : ¬ Nearer y x ↔ NoneLast FloatLe x y := by
  match x, y with
  | some x, some y => exact Int.not_lt
  | some x, none => exact iff_of_true id trivial
  | none, some y => exact iff_of_false (fun h => h trivial) id
  | none, none => exact iff_of_true id trivial

theorem notAfter_trans (x y z : Option Float) (hxy : notAfter x y = true) (hyz : notAfter y z = true) :
    notAfter x z = true :=
  notAfter_iff.mpr (NoneLast.trans FloatLe.trans x y z (notAfter_iff.mp hxy) (notAfter_iff.mp hyz))

theorem notAfter_total (x y : Option Float) : (notAfter x y || notAfter y x) = true := by
  rw [Bool.or_eq_true, notAfter_iff, notAfter_iff]
  exact NoneLast.total FloatLe.total x y

theorem arranged_mergeSort (dist : Fin n → Option Float) :
    Arranged dist ((List.finRange n).mergeSort fun i j => notAfter (dist i) (dist j)) where
  perm := List.mergeSort_perm _ _
  sorted := by
    refine (pairwise_mergeSort_stable (fun i j k => notAfter_trans (dist i) (dist j) (dist k))
      (fun i j => notAfter_total (dist i) (dist j)) (List.pairwise_lt_finRange n)).imp fun {i j} ⟨hle, htie⟩ => ?_
    rcases noneLast_iff.mp (notAfter_iff.mp hle) with hnearer | heq
    · exact .inl hnearer
    · have hback : notAfter (dist j) (dist i) = true := notAfter_iff.mpr (noneLast_iff.mpr (.inr heq.symm))
      exact .inr ⟨heq, htie hback⟩

theorem Precedes.asymm {dist : Fin n → Option Float} (h : Precedes dist i j) (h' : Precedes dist j i) : i = j := by
  rcases h with h | ⟨heq, hlt⟩
  · rcases h' with h' | ⟨heq, -⟩
    · exact absurd h' (not_nearer_iff.mpr (noneLast_iff.mpr (.inl h)))
    · exact absurd h (not_nearer_iff.mpr (noneLast_iff.mpr (.inr heq)))
  · rcases h' with h' | ⟨-, hlt'⟩
    · exact absurd h' (not_nearer_iff.mpr (noneLast_iff.mpr (.inr heq)))
    · exact absurd hlt' (Fin.lt_asymm hlt)

/-- Positions can be arranged in one way only. -/
theorem Arranged.unique {dist : Fin n → Option Float} (h : Arranged dist order) (h' : Arranged dist order') :
    order = order' :=
  (h.perm.trans h'.perm.symm).eq_of_pairwise (fun _ _ _ _ => Precedes.asymm) h.sorted h'.sorted

section

variable (column : String) (metric : Metric) (vector : List Float) (rows : List Row)

theorem nearestFirst_eq :
    nearestFirst column metric vector rows = rows.mergeSort fun a b =>
      notAfter (distance? column metric vector a) (distance? column metric vector b) := by
  have h : nearestFirst column metric vector (rows.map id) = (rows.mergeSort fun a b =>
      notAfter (distance? column metric vector a) (distance? column metric vector b)).map id :=
    nearestFirst_map fun _ _ => rfl
  rwa [List.map_id, List.map_id] at h

theorem nearestFirst_positions :
    nearestFirst column metric vector rows =
      ((List.finRange rows.length).mergeSort fun i j =>
        notAfter (distance? column metric vector rows[i]) (distance? column metric vector rows[j])).map (rows[·]) := by
  have hall : (List.finRange rows.length).map (rows[·]) = rows := List.map_getElem_finRange rows
  rw [← nearestFirst_map fun _ _ => rfl, hall]

theorem nearestFirst_sorted :
    (nearestFirst column metric vector rows).Pairwise fun a b =>
      NoneLast FloatLe (distance? column metric vector a) (distance? column metric vector b) := by
  rw [nearestFirst_eq]
  exact pairwise_mergeSort _ rows

theorem nearestFirst_of_sorted (h : rows.Pairwise fun a b =>
    NoneLast FloatLe (distance? column metric vector a) (distance? column metric vector b)) :
    nearestFirst column metric vector rows = rows := by
  rw [nearestFirst_eq]
  exact List.mergeSort_of_pairwise (h.imp notAfter_iff.mpr)

theorem cut_eq_take (limit : Option Nat) (l : List α) : cut limit l = l.take (limit.elim l.length (min · l.length)) := by
  cases limit with
  | none => exact List.take_length.symm
  | some n => exact List.take_eq_take_min

theorem cut_of_cut (limit : Option Nat) (l : List α) : cut limit (cut limit l) = cut limit l := by
  cases limit with
  | none => rfl
  | some n => rw [cut, cut, List.take_take, Nat.min_self]

/-- The rows by distance, up to a limit, are the beginning of the one arrangement in which what is equally near keeps
its order and what has no distance comes last. None that is left out is nearer than one that is there, no row is lost
or there twice, a smaller limit leaves a beginning of what a larger one does, and ranking once more changes nothing. -/
theorem nearestFirst_stable :
    (∀ row, distance? column metric vector row = none ↔ Incomparable column metric vector row) ∧
    let dist := distance? column metric vector
    let top := fun limit => cut limit (nearestFirst column metric vector rows)
    (∃ order, Arranged (fun i => dist rows[i]) order ∧
      (∀ other, Arranged (fun i => dist rows[i]) other → other = order) ∧
      ∀ limit, top limit = (order.map (rows[·])).take (limit.elim rows.length (min · rows.length))) ∧
    (∀ limit, ∃ omitted, (top limit ++ omitted).Perm rows ∧
      ∀ a ∈ top limit, ∀ b ∈ omitted, ¬ Nearer (dist b) (dist a)) ∧
    (∀ m n, m ≤ n → top (some m) <+: top (some n)) ∧ (∀ limit, top limit <+: top none) ∧
    ∀ limit, cut limit (nearestFirst column metric vector (top limit)) = top limit := by
  refine ⟨fun row => distance?_eq_none_iff, ?_⟩
  intro dist top
  have hperm : (nearestFirst column metric vector rows).Perm rows := by
    rw [nearestFirst_eq]
    exact List.mergeSort_perm _ _
  have hsorted := nearestFirst_sorted column metric vector rows
  have hbegins : ∀ limit, top limit <+: top none := fun limit => exists_cut limit _
  refine ⟨⟨_, arranged_mergeSort _, fun other h => h.unique (arranged_mergeSort _), fun limit => ?_⟩,
    fun limit => ?_, fun m n hmn => ?_, hbegins, fun limit => ?_⟩
  · change cut limit (nearestFirst column metric vector rows) = _
    rw [cut_eq_take, hperm.length_eq]
    exact congrArg _ (nearestFirst_positions column metric vector rows)
  · obtain ⟨omitted, hall, hbetter⟩ := (Chosen.of_sorted hperm hsorted limit).others
    exact ⟨omitted, hall, fun a ha b hb => not_nearer_iff.mpr (hbetter a ha b hb)⟩
  · exact List.take_prefix_take_left hmn
  · have hkept : nearestFirst column metric vector (top limit) = top limit :=
      nearestFirst_of_sorted column metric vector _ (hsorted.sublist (hbegins limit).sublist)
    rw [hkept]
    exact cut_of_cut limit _

end

end Ranking

end QueryGateway
