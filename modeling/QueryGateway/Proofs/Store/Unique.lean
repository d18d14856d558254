import QueryGateway.Proofs.Store.Keys
import QueryGateway.Proofs.Store.Rows

namespace QueryGateway.Store
set_option autoImplicit true

/-- A value that is not null compares with others. -/
def Value.IsPlain (v : Value) : Prop :=
  v.key? = none → v.isNull = true

def Record.IsPlain (r : Record) : Prop :=
  ∀ v ∈ r.cells, v.IsPlain

instance (r : Record) : Decidable r.IsPlain :=
  inferInstanceAs (Decidable (∀ v ∈ r.cells, v.key? = none → v.isNull = true))

theorem Cast.vector?_eq_some (h : vector? size s = some v) : ∃ items, v = .array items := by
  obtain ⟨inner, -, hinner⟩ := Option.bind_eq_some_iff.mp h
  simp only at hinner
  generalize (if (dropSpaces inner).isEmpty = true then [] else elements none inner) = pieces at hinner
  by_cases hsize : pieces.length ≠ size
  · rw [if_pos hsize] at hinner
    exact nomatch hinner
  · rw [if_neg hsize] at hinner
    obtain ⟨items, -, hitems⟩ := Option.bind_eq_some_iff.mp hinner
    exact ⟨items, (Option.some.inj hitems).symm⟩

theorem ColumnType.isPlain_cast {t : ColumnType} (h : t.cast s = .ok v) : v.IsPlain := by
  cases s with
  | none =>
    cases Except.ok.inj h
    exact fun _ => rfl
  | some s =>
    have hcast : t.cast? s = some v := by
      rw [cast] at h
      split at h
      · next v' hv =>
        cases Except.ok.inj h
        exact hv
      · cases h
    have hkey : v.key? ≠ none := by
      cases t <;> simp only [cast?, Option.map_eq_some_iff] at hcast
      case text =>
        cases hcast
        exact Option.some_ne_none _
      case vector size =>
        obtain ⟨items, rfl⟩ := Cast.vector?_eq_some hcast
        exact Option.some_ne_none _
      all_goals
        obtain ⟨x, -, rfl⟩ := hcast
        exact Option.some_ne_none _
    exact fun hnone => absurd hnone hkey

namespace TableInfo

variable {t : TableInfo} {given : Given} {r : Record}

theorem isPlain_cell (h : r.IsPlain) (c : Column) : (t.cell c r).IsPlain := by
  rw [cell]
  cases hl : (t.columns.zip r.cells).lookup c with
  | none => exact fun _ => rfl
  | some v =>
    obtain ⟨front, back, heq, -⟩ := List.lookup_eq_some_iff.mp hl
    have hmem : (c, v) ∈ t.columns.zip r.cells := heq ▸ List.mem_append_right _ List.mem_cons_self
    exact h v (List.of_mem_zip hmem).2

theorem isPlain_cells (hg : Binding.castAll bs = .ok given) {old : Column → Value} (ho : ∀ c, (old c).IsPlain) :
    ∀ v ∈ Binding.cells t given old, v.IsPlain := by
  intro v hv
  obtain ⟨c, -, rfl⟩ := List.mem_map.mp hv
  cases hl : given.lookup c with
  | none => exact ho c
  | some v =>
    obtain ⟨front, back, heq, -⟩ := List.lookup_eq_some_iff.mp hl
    have hmem : (c, v) ∈ given := heq ▸ List.mem_append_right _ List.mem_cons_self
    obtain ⟨b, -, -, hcast⟩ := exists_of_mem_left (Binding.castAll_eq_ok_iff.mp hg).flip hmem
    exact ColumnType.isPlain_cast hcast

theorem isPlain_fresh (hg : Binding.castAll bs = .ok given) (id : Nat) : (t.fresh given id).IsPlain :=
  isPlain_cells hg fun _ _ => rfl

theorem isPlain_put (hg : Binding.castAll bs = .ok given) (hr : r.IsPlain) : (t.put given r).IsPlain :=
  isPlain_cells hg fun c => isPlain_cell hr c

theorem isPlain_amend (hg : Binding.castAll bs = .ok given) (hr : r.IsPlain) (wanted : Given) :
    (t.amend given wanted r).IsPlain := by
  by_cases h : t.Has r wanted
  · rw [amend_of_has h]
    exact isPlain_put hg hr
  · rw [amend_of_not_has h]
    exact hr

end TableInfo

/-- Two rows have a value in common. -/
def TableInfo.Clash (t : TableInfo) (k : Column) (a b : Record) : Prop :=
  (t.cell k a).isNull = false ∧ (t.cell k b).same (t.cell k a) = true

theorem TableInfo.Clash.symm {t : TableInfo} (ha : a.IsPlain) (h : t.Clash k a b) : t.Clash k b a := by
  obtain ⟨hnull, hsame⟩ := h
  have hkey : (t.cell k b).key? = (t.cell k a).key? := beq_iff_eq.mp hsame
  refine ⟨?_, beq_iff_eq.mpr hkey.symm⟩
  have hplain := t.isPlain_cell ha k
  cases hb : t.cell k b with
  | null =>
    rw [hb] at hkey
    exact nomatch hnull.symm.trans (hplain hkey.symm)
  | _ => rfl

namespace Table

/-- No column that is unique has a value twice. -/
def IsDistinct (t : Table) : Prop :=
  ∀ r ∈ t.records, t.duplicate? t.info.columns r = none

instance (t : Table) : Decidable t.IsDistinct :=
  inferInstanceAs (Decidable (∀ r ∈ t.records, _))

theorem taken_eq_false {t : Table} : t.taken k r.id (t.info.cell k r) = false ↔
    ∀ b ∈ t.records, b.id ≠ r.id → ¬ t.info.Clash k r b := by
  cases hv : (t.info.cell k r).isNull with
  | true =>
    rw [taken, hv]
    exact iff_of_true rfl fun b _ _ hclash => nomatch hv.symm.trans hclash.1
  | false =>
    rw [taken, hv, Bool.not_false, Bool.true_and, List.any_eq_false]
    simp only [Bool.and_eq_true, bne_iff_ne, ne_eq, not_and, Bool.not_eq_true, TableInfo.Clash, hv, true_implies]

theorem duplicate?_eq_none {t : Table} : t.duplicate? columns r = none ↔
    ∀ k ∈ columns, k.unique = true → t.taken k r.id (t.info.cell k r) = false := by
  rw [duplicate?, Option.map_eq_none_iff, List.find?_eq_none]
  simp only [Bool.and_eq_true, not_and, Bool.not_eq_true]

theorem isDistinct_iff {t : Table} : t.IsDistinct ↔ ∀ k ∈ t.info.columns, k.unique = true →
    ∀ a ∈ t.records, ∀ b ∈ t.records, b.id ≠ a.id → ¬ t.info.Clash k a b := by
  constructor
  · intro h k hk hunique a ha
    exact taken_eq_false.mp (duplicate?_eq_none.mp (h a ha) k hk hunique)
  · intro h a ha
    exact duplicate?_eq_none.mpr fun k hk hunique => taken_eq_false.mpr (h k hk hunique a ha)

theorem IsDistinct.timeless {t u : Table} (h : t.IsDistinct) (heq : u.timeless = t.timeless) : u.IsDistinct := by
  have hinfo : u.info = t.info := info_of_timeless heq
  have old : ∀ a ∈ u.records, ∃ a' ∈ t.records, a'.id = a.id ∧ a'.cells = a.cells := by
    intro a ha
    have hmem : { a with stamp := 0 } ∈ t.timeless.records := heq ▸ List.mem_map_of_mem ha
    obtain ⟨a', ha', hid, hcells⟩ := mem_timeless hmem
    exact ⟨a', ha', hid, hcells⟩
  rw [isDistinct_iff] at h ⊢
  intro k hk hunique a ha b hb hne hclash
  obtain ⟨a', ha', hida, hcellsa⟩ := old a ha
  obtain ⟨b', hb', hidb, hcellsb⟩ := old b hb
  refine h k (hinfo ▸ hk) hunique a' ha' b' hb' (by rw [hida, hidb]; exact hne) ?_
  rw [TableInfo.Clash, TableInfo.cell, TableInfo.cell, hcellsa, hcellsb, ← hinfo]
  exact hclash

/-- A row that repeats no value of the others leaves none twice. -/
theorem IsDistinct.add {t : Table} (h : t.IsDistinct) (hplain : ∀ a ∈ t.records, a.IsPlain)
    (hnone : t.duplicate? t.info.columns r = none) : (t.add r).IsDistinct := by
  rw [isDistinct_iff] at h ⊢
  intro k hk hunique
  have hnew := taken_eq_false.mp (duplicate?_eq_none.mp hnone k hk hunique)
  intro a ha b hb hne hclash
  rcases List.mem_append.mp ha with holda | hnewa
  · rcases List.mem_append.mp hb with holdb | hnewb
    · exact h k hk hunique a holda b holdb hne hclash
    · obtain rfl := List.mem_singleton.mp hnewb
      exact hnew a holda hne.symm (hclash.symm (hplain a holda))
  · obtain rfl := List.mem_singleton.mp hnewa
    rcases List.mem_append.mp hb with holdb | hnewb
    · exact hnew b holdb hne hclash
    · exact hne (congrArg Record.id (List.mem_singleton.mp hnewb))

/-- Rows that are changed leave no value twice if, in the columns that are set, none of them repeats a value once all
are changed. -/
theorem IsDistinct.set {t : Table} (h : t.IsDistinct) (hplain : ∀ a ∈ (t.set given wanted).records, a.IsPlain)
    (hnone : ∀ r ∈ t.records, t.info.Has r wanted →
      (t.set given wanted).duplicate? (given.map (·.1)) (t.info.put given r) = none) :
    (t.set given wanted).IsDistinct := by
  rw [isDistinct_iff] at h ⊢
  intro k hk hunique a' ha' b' hb' hne hclash
  have hplain' := hplain a' ha'
  obtain ⟨a, ha, rfl⟩ := List.mem_map.mp ha'
  obtain ⟨b, hb, rfl⟩ := List.mem_map.mp hb'
  have hne' : b.id ≠ a.id := by rwa [TableInfo.id_amend, TableInfo.id_amend] at hne
  by_cases hg : k ∈ given.map (·.1)
  · -- A new value is in no other row.
    have hnew : ∀ r ∈ t.records, t.info.Has r wanted → ∀ r' ∈ (t.set given wanted).records, r'.id ≠ r.id →
        ¬ t.info.Clash k (t.info.amend given wanted r) r' := by
      intro r hr hhas
      rw [TableInfo.amend_of_has hhas]
      exact taken_eq_false.mp (duplicate?_eq_none.mp (hnone r hr hhas) k hg hunique)
    by_cases hhasa : t.info.Has a wanted
    · rw [TableInfo.id_amend t.info given wanted a] at hne
      exact hnew a ha hhasa _ hb' hne hclash
    · by_cases hhasb : t.info.Has b wanted
      · rw [TableInfo.id_amend t.info given wanted b] at hne
        exact hnew b hb hhasb _ ha' hne.symm (hclash.symm hplain')
      · rw [TableInfo.amend_of_not_has hhasa, TableInfo.amend_of_not_has hhasb] at hclash
        exact h k hk hunique a ha b hb hne' hclash
  · refine h k hk hunique a ha b hb hne' ?_
    have hold := hclash
    change t.info.Clash _ _ _ at hold
    rwa [TableInfo.Clash, TableInfo.cell_amend_of_not_mem hg, TableInfo.cell_amend_of_not_mem hg] at hold

end Table

end QueryGateway.Store
