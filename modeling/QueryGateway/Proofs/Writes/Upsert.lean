import QueryGateway.Proofs.Store.Guards
import QueryGateway.Proofs.Store.Rows

namespace QueryGateway
set_option autoImplicit true

open Store

namespace Store.Value

theorem same_iff {a b : Value} : a.same b = true ↔ a.key? = b.key? :=
  beq_iff_eq

end Store.Value

namespace Writes

/-- The key of a row of a batch: the values that its texts stand for in the key columns. -/
def rowKey (t : TableInfo) (b : Batch) (ks : List String) (i : Nat) : Except Fault Given := do
  Binding.castAll (← t.bind (key b ks i))

def keyOf (t : TableInfo) (b : Batch) (ks : List String) (i : Nat) : Given :=
  (rowKey t b ks i).toOption.getD []

/-- Two keys are the same, null being the same as null. -/
def SameKey (x y : Given) : Prop :=
  List.Forall₂ (fun u v => u.1 = v.1 ∧ u.2.same v.2 = true) x y

theorem sameKey_iff : SameKey x y ↔ (x.map fun u => (u.1, u.2.key?)) = y.map fun u => (u.1, u.2.key?) := by
  rw [SameKey, ← List.forall₂_eq_eq_eq, List.forall₂_map_left_iff, List.forall₂_map_right_iff]
  simp only [Prod.mk.injEq, Value.same_iff]

instance (x y : Given) : Decidable (SameKey x y) :=
  decidable_of_iff' _ sameKey_iff

/-- A row of a batch comes first with its key: no row of the table has it, nor an earlier row of the batch. -/
def First (t : Table) (b : Batch) (ks : List String) (i : Nat) : Prop :=
  (∀ r ∈ t.records, ¬ t.info.Has r (keyOf t.info b ks i)) ∧
    ∀ j < i, ¬ SameKey (keyOf t.info b ks j) (keyOf t.info b ks i)

instance (t : Table) (b : Batch) (ks : List String) (i : Nat) : Decidable (First t b ks i) :=
  inferInstanceAs (Decidable (_ ∧ _))

/-- Of the first `n` rows of a batch those that come first with their key. -/
def firsts (t : Table) (b : Batch) (ks : List String) (n : Nat) : List Nat :=
  (List.range n).filter (First t b ks ·)

/-- A row of a batch as a row of a table: in each column the value that the text of the batch stands for, and null in
columns that the batch does not have. -/
def IsRow (t : TableInfo) (b : Batch) (i : Nat) (r : Record) : Prop :=
  List.Forall₂ (fun c v =>
    (∃ g ∈ b.columns, t.column g.1 = .ok c ∧ c.type.cast (g.2[i]?.bind Json.scalarText?) = .ok v) ∨
      (∀ g ∈ b.columns, t.column g.1 ≠ .ok c) ∧ v = .null) t.columns r.cells

section

variable {t : TableInfo} {b : Batch} {ks : List String} {x y : Given} {r : Record}

theorem rowKey_eq_ok_iff : rowKey t b ks i = .ok x ↔ List.Forall₂ (fun k u =>
    t.column k = .ok u.1 ∧ u.1.type.cast ((b.value? k i).bind Json.scalarText?) = .ok u.2) ks x := by
  rw [rowKey, TableInfo.castAll_bind_eq_ok_iff, key, List.forall₂_map_left_iff]

theorem keyOf_of_ok (h : rowKey t b ks i = .ok x) : keyOf t b ks i = x := by
  rw [keyOf, h]
  rfl

theorem SameKey.has (h : SameKey x y) (hr : t.Has r x) : t.Has r y := by
  intro v hv
  obtain ⟨u, hu, hc, hsame⟩ := exists_of_mem_left h.flip hv
  have hcell := Value.same_iff.mp (hr u hu)
  rw [hc] at hcell
  exact Value.same_iff.mpr (hcell.trans (Value.same_iff.mp hsame))

theorem has_of_cells (h : ∀ u ∈ x, t.cell u.1 r = u.2) : t.Has r x := fun u hu =>
  Value.same_iff.mpr (congrArg Value.key? (h u hu))

theorem sameKey_of_has (hx : rowKey t b ks i = .ok x) (hy : rowKey t b ks j = .ok y)
    (hcells : ∀ u ∈ x, t.cell u.1 r = u.2) (hr : t.Has r y) : SameKey x y := by
  have hx' := rowKey_eq_ok_iff.mp hx
  have hy' := rowKey_eq_ok_iff.mp hy
  clear hx hy
  induction hx' generalizing y with
  | nil =>
    cases hy'
    exact .nil
  | @cons k u ks x hu _ ih =>
    cases hy' with
    | @cons _ v _ y hv hvs =>
      obtain ⟨hcell, hcells⟩ := List.forall_mem_cons.mp hcells
      obtain ⟨hhead, htail⟩ := List.forall_mem_cons.mp hr
      have hcolumn : u.1 = v.1 := Except.ok.inj (hu.1.symm.trans hv.1)
      rw [← hcolumn, hcell] at hhead
      exact .cons ⟨hcolumn, hhead⟩ (ih hcells htail hvs)

theorem firsts_succ (t : Table) (b : Batch) (ks : List String) (m : Nat) :
    firsts t b ks (m + 1) = firsts t b ks m ++ if First t b ks m then [m] else [] := by
  rw [firsts, List.range_succ, List.filter_append, firsts, List.filter_cons, List.filter_nil]
  simp only [decide_eq_true_eq]

theorem mem_firsts {t : Table} : i ∈ firsts t b ks m ↔ i < m ∧ First t b ks i := by
  rw [firsts, List.mem_filter, List.mem_range, decide_eq_true_iff]

theorem isRow_cells {cs : List Column} (hi : i < b.rowCount) (hcs : b.columnNames.mapM t.column = .ok cs)
    (hdistinct : Binding.checkDistinct t (cs.map (⟨·, none⟩)) = .ok ())
    (hg : Binding.castAll (List.zipWith Binding.mk cs ((b.row i).map (·.2.scalarText?))) = .ok given) (id stamp : Nat) :
    IsRow t b i ⟨id, Binding.cells t given fun _ => .null, stamp⟩ := by
  have hrow := Binding.forall₂_ofRow (t := t) (fun g hg => (b.length_eq g hg).symm ▸ hi) (mapM_ok_iff.mp hcs)
  have honce := (Binding.nodup_of_checkDistinct hdistinct).sublist
    (Binding.map_column_zipWith cs ((b.row i).map (·.2.scalarText?)))
  rw [IsRow, Binding.cells, List.forall₂_map_right_iff, List.forall₂_same]
  intro c _
  by_cases hc : ∃ g ∈ b.columns, t.column g.1 = .ok c
  · obtain ⟨g, hgmem, hcolumn⟩ := hc
    obtain ⟨w, hw, hcolumn', hvalue⟩ := exists_of_mem_left hrow hgmem
    obtain rfl : c = w.column := Except.ok.inj (hcolumn.symm.trans hcolumn')
    obtain ⟨v, hv, hlookup⟩ := Binding.lookup_castAll hg honce hw
    refine .inl ⟨g, hgmem, hcolumn, ?_⟩
    rw [hlookup, ← hvalue]
    exact hv
  · refine .inr ⟨fun g hgmem hcolumn => hc ⟨g, hgmem, hcolumn⟩, ?_⟩
    have hnone : given.lookup c = none := by
      refine List.lookup_eq_none_iff.mpr fun x hx => ?_
      obtain ⟨w, hw, hsame, -⟩ := exists_of_mem_left (Binding.castAll_eq_ok_iff.mp hg).flip hx
      obtain ⟨g, hgmem, hcolumn, -⟩ := exists_of_mem_left (List.Forall₂.flip hrow) hw
      refine bne_iff_ne.mpr fun heq => hc ⟨g, hgmem, ?_⟩
      rw [hcolumn, hsame, heq]
    rw [hnone]
    rfl

theorem rowKey_cells {cs : List Column} (hreq : b.requireKeys ks = .ok ()) (hi : i < b.rowCount)
    (hwanted : t.bind (key b ks i) = .ok wanted) (hcs : b.columnNames.mapM t.column = .ok cs)
    (hdistinct : Binding.checkDistinct t (cs.map (⟨·, none⟩)) = .ok ())
    (hg : Binding.castAll (List.zipWith Binding.mk cs ((b.row i).map (·.2.scalarText?))) = .ok given) (id stamp : Nat) :
    ∃ x, rowKey t b ks i = .ok x ∧
      ∀ u ∈ x, t.cell u.1 ⟨id, Binding.cells t given fun _ => .null, stamp⟩ = u.2 := by
  have hcovers := covers_row hreq (fun k hk => hk) hi hwanted hcs hdistinct
  have heach : ∀ w ∈ wanted, ∃ u : Column × Value, (w.column = u.1 ∧ w.column.type.cast w.value = .ok u.2) ∧
      t.cell u.1 ⟨id, Binding.cells t given fun _ => .null, stamp⟩ = u.2 := by
    intro w hw
    obtain ⟨v, hv, hlookup⟩ := Binding.lookup_castAll hg hcovers.once (hcovers.given w hw)
    obtain ⟨k, -, hcolumn⟩ := hcovers.named w hw
    have hmem : w.column ∈ t.columns := List.mem_of_find?_eq_some (TableInfo.column_eq_ok_iff.mp hcolumn)
    exact ⟨(w.column, v), ⟨rfl, hv⟩, by rw [t.cell_cells given _ id stamp hmem, hlookup]; rfl⟩
  obtain ⟨x, hx⟩ := exists_forall₂ heach
  refine ⟨x, ?_, fun u hu => ?_⟩
  · rw [rowKey, hwanted]
    exact Binding.castAll_eq_ok_iff.mpr (hx.imp fun w u h => h.1)
  · obtain ⟨w, -, -, hcell⟩ := exists_of_mem_left hx.flip hu
    exact hcell

variable {d d' : Database} {t : Table} {front back : List Table} {s n : String} {done done' : Upserted}

theorem work_insertRows (hp : Placed s n front t.info) (hview : d.engine.view c = front ++ t :: back)
    (hi : i < b.rowCount) (h : d.work c (Work.insertRows t.info b [i]) = (.done m, d')) :
    m = 1 ∧ ∃ cs given id stamp, b.columnNames.mapM t.info.column = .ok cs ∧
      Binding.checkDistinct t.info (cs.map (⟨·, none⟩)) = .ok () ∧
      Binding.castAll (List.zipWith Binding.mk cs ((b.row i).map (·.2.scalarText?))) = .ok given ∧
      d'.engine.view c = front ++ t.add ⟨id, Binding.cells t.info given fun _ => .null, stamp⟩ :: back := by
  rw [Work.insertRows] at h
  obtain ⟨cs, d₁, hcolumns, hchecked⟩ := Database.work_bind_done h
  obtain ⟨hcs, rfl⟩ := Database.work_lift_done hcolumns
  obtain ⟨_, d₂, hcheck, hrows⟩ := Database.work_bind_done hchecked
  obtain ⟨hdistinct, rfl⟩ := Database.work_lift_done hcheck
  obtain ⟨_, d₃, hall, hlength⟩ := Database.work_bind_done hrows
  obtain ⟨_, d₄, hrow, hnil⟩ := Database.work_bind_done hall
  obtain ⟨hm, rfl⟩ := Prod.mk.inj hlength
  obtain ⟨-, rfl⟩ := Prod.mk.inj hnil
  change d₂.work c (Work.insertRow t.info cs b i) = _ at hrow
  rw [Work.insertRow_of_lt hi] at hrow
  obtain ⟨given, id, stamp, hg, hadded⟩ := Database.perform_insert hp hview (Database.work_ask_done hrow)
  cases hm
  exact ⟨rfl, cs, given, id, stamp, hcs, hdistinct, hg, hadded⟩

theorem work_upsertRow (hp : Placed s n front t.info) (hview : d.engine.view c = front ++ t :: back)
    (hreq : b.requireKeys ks = .ok ()) (hi : i < b.rowCount)
    (h : d.work c (upsertRow t.info b ks done i) = (.done done', d')) :
    ∃ x, rowKey t.info b ks i = .ok x ∧
      ((∃ r ∈ t.records, t.info.Has r x) ∧ done' = { done with skipped := done.skipped + 1 } ∧
          d'.engine.view c = front ++ t :: back ∨
        (∀ r ∈ t.records, ¬ t.info.Has r x) ∧ done' = { done with inserted := done.inserted + 1 } ∧
          ∃ r, IsRow t.info b i r ∧ (∀ u ∈ x, t.info.cell u.1 r = u.2) ∧
            d'.engine.view c = front ++ t.add r :: back) := by
  obtain ⟨found, d₁, hcontains, hrest⟩ := Database.work_bind_done h
  obtain ⟨wanted, d₀, hbound, hask⟩ := Database.work_bind_done hcontains
  obtain ⟨hwanted, rfl⟩ := Database.work_lift_done hbound
  obtain ⟨⟨rs, hrs, rfl⟩, hpin⟩ := Database.perform_contains hp hview (Database.work_ask_done hask)
  have hview₁ : d₁.engine.view c = front ++ t :: back := by rw [hpin, Engine.view_pin, hview]
  by_cases hempty : rs = []
  · -- Where no row is found the columns are looked up and checked once more, for this row alone.
    subst hempty
    change d₁.work c (Work.insertRows t.info b [i] >>= fun m => pure { done with inserted := done.inserted + m }) = _
      at hrest
    obtain ⟨m, d₂, hinsert, hdone⟩ := Database.work_bind_done hrest
    obtain ⟨hdone', rfl⟩ := Prod.mk.inj hdone
    obtain ⟨rfl, cs, given, id, stamp, hcs, hdistinct, hg, hadded⟩ := work_insertRows hp hview₁ hi hinsert
    obtain ⟨x, hx, hcells⟩ := rowKey_cells hreq hi hwanted hcs hdistinct hg id stamp
    have hcast : Binding.castAll wanted = .ok x := by
      rw [rowKey, hwanted] at hx
      exact hx
    refine ⟨x, hx, .inr ⟨fun r hr hhas => ?_, ?_, _, isRow_cells hi hcs hdistinct hg id stamp, hcells, hadded⟩⟩
    · rw [Binding.applyAll_of_castAll hcast] at hrs
      exact List.filter_eq_nil_iff.mp (Except.ok.inj hrs) r hr (decide_eq_true hhas)
    · cases hdone'
      rfl
  · obtain ⟨x, hcast⟩ := Binding.exists_castAll hrs hempty
    rw [List.isEmpty_eq_false_iff.mpr hempty] at hrest
    obtain ⟨hdone', rfl⟩ := Prod.mk.inj hrest
    refine ⟨x, by rw [rowKey, hwanted]; exact hcast, .inl ⟨?_, ?_, hview₁⟩⟩
    · rw [Binding.applyAll_of_castAll hcast] at hrs
      obtain ⟨r, hr⟩ := List.exists_mem_of_ne_nil rs hempty
      rw [← Except.ok.inj hrs] at hr
      obtain ⟨hmem, hhas⟩ := List.mem_filter.mp hr
      exact ⟨r, hmem, of_decide_eq_true hhas⟩
    · cases hdone'
      rfl

/-- How far an upsert has come after `m` rows: those that come first with their key have been appended. -/
structure Progress (t : Table) (b : Batch) (ks : List String) (m : Nat) (done : Upserted) (new : List Record) :
    Prop where
  keyed : ∀ i < m, ∃ x, rowKey t.info b ks i = .ok x
  rows : List.Forall₂ (fun i r => IsRow t.info b i r ∧ ∀ u ∈ keyOf t.info b ks i, t.info.cell u.1 r = u.2)
    (firsts t b ks m) new
  inserted : done.inserted = (firsts t b ks m).length
  total : done.inserted + done.skipped = m

namespace Progress

variable {new : List Record}

theorem start (t : Table) (b : Batch) (ks : List String) : Progress t b ks 0 ⟨0, 0⟩ [] :=
  ⟨nofun, .nil, rfl, rfl⟩

/-- The keys of all rows so far are there: each was there before, or has been appended where it came first. -/
theorem held (h : Progress t b ks m done new) (hi : i < m) :
    ∃ r ∈ t.records ++ new, t.info.Has r (keyOf t.info b ks i) := by
  induction i using Nat.strongRecOn with
  | _ i ih =>
    by_cases hfirst : First t b ks i
    · obtain ⟨r, hr, -, hcells⟩ := exists_of_mem_left h.rows (mem_firsts.mpr ⟨hi, hfirst⟩)
      exact ⟨r, List.mem_append_right _ hr, has_of_cells hcells⟩
    · -- An earlier row with the same key need not come first itself, but its key is there too.
      rw [First, not_and_or] at hfirst
      push Not at hfirst
      rcases hfirst with ⟨r, hr, hhas⟩ | ⟨j, hj, hsame⟩
      · exact ⟨r, List.mem_append_left _ hr, hhas⟩
      · obtain ⟨r, hr, hhas⟩ := ih j hj (Nat.lt_trans hj hi)
        exact ⟨r, hr, hsame.has hhas⟩

theorem first_iff (h : Progress t b ks m done new) (hx : rowKey t.info b ks m = .ok x) :
    First t b ks m ↔ ∀ r ∈ t.records ++ new, ¬ t.info.Has r x := by
  have hkey := keyOf_of_ok hx
  constructor
  · rintro ⟨habsent, hbefore⟩ r hr hhas
    rcases List.mem_append.mp hr with hr | hr
    · exact habsent r hr (hkey ▸ hhas)
    · obtain ⟨i, hi, -, hcells⟩ := exists_of_mem_left h.rows.flip hr
      obtain ⟨hlt, -⟩ := mem_firsts.mp hi
      obtain ⟨y, hy⟩ := h.keyed i hlt
      rw [keyOf_of_ok hy] at hcells
      refine hbefore i hlt ?_
      rw [hkey, keyOf_of_ok hy]
      exact sameKey_of_has hy hx hcells hhas
  · intro hnone
    refine ⟨fun r hr hhas => hnone r (List.mem_append_left _ hr) (hkey ▸ hhas), fun j hj hsame => ?_⟩
    obtain ⟨r, hr, hhas⟩ := h.held hj
    exact hnone r hr (hkey ▸ hsame.has hhas)

theorem keyed_succ (h : Progress t b ks m done new) (hx : rowKey t.info b ks m = .ok x) :
    ∀ i < m + 1, ∃ x, rowKey t.info b ks i = .ok x := fun i hi =>
  (Nat.lt_succ_iff_lt_or_eq.mp hi).elim (h.keyed i) fun heq => ⟨x, heq ▸ hx⟩

theorem skip (h : Progress t b ks m done new) (hx : rowKey t.info b ks m = .ok x) (hfirst : ¬ First t b ks m) :
    Progress t b ks (m + 1) { done with skipped := done.skipped + 1 } new := by
  have hfirsts : firsts t b ks (m + 1) = firsts t b ks m := by rw [firsts_succ, if_neg hfirst, List.append_nil]
  refine ⟨h.keyed_succ hx, hfirsts ▸ h.rows, hfirsts ▸ h.inserted, ?_⟩
  exact congrArg (· + 1) h.total

theorem add (h : Progress t b ks m done new) (hx : rowKey t.info b ks m = .ok x) (hfirst : First t b ks m)
    (hrow : IsRow t.info b m r) (hcells : ∀ u ∈ x, t.info.cell u.1 r = u.2) :
    Progress t b ks (m + 1) { done with inserted := done.inserted + 1 } (new ++ [r]) := by
  have hfirsts : firsts t b ks (m + 1) = firsts t b ks m ++ [m] := by rw [firsts_succ, if_pos hfirst]
  refine ⟨h.keyed_succ hx, ?_, ?_, ?_⟩
  · rw [hfirsts]
    exact List.rel_append h.rows (.cons ⟨hrow, keyOf_of_ok hx ▸ hcells⟩ .nil)
  · rw [hfirsts, List.length_append, h.inserted]
    rfl
  · exact (Nat.add_right_comm ..).trans (congrArg (· + 1) h.total)

theorem distinct (h : Progress t b ks m done new) : new.Pairwise fun r r' => ¬ SameOn ks t.info r r' := by
  have hbefore : (firsts t b ks m).Pairwise fun i j => i < j ∧ j < m ∧ First t b ks j := by
    refine (List.Pairwise.filter _ List.pairwise_lt_range).imp_of_mem fun _ hj hlt => ⟨hlt, mem_firsts.mp hj⟩
  obtain ⟨hkeyed, hrows, -, -⟩ := h
  generalize firsts t b ks m = is at hbefore hrows
  induction hrows with
  | nil => exact .nil
  | @cons i r is new hr hrest ih =>
    obtain ⟨hfirst, hlater⟩ := List.pairwise_cons.mp hbefore
    refine List.pairwise_cons.mpr ⟨fun r' hr' hsame => ?_, ih hlater⟩
    obtain ⟨j, hj, -, hcells⟩ := exists_of_mem_left hrest.flip hr'
    obtain ⟨hlt, hjm, -, hnew⟩ := hfirst j hj
    obtain ⟨x, hx⟩ := hkeyed i (Nat.lt_trans hlt hjm)
    obtain ⟨y, hy⟩ := hkeyed j hjm
    refine hnew i hlt ?_
    rw [keyOf_of_ok hy] at hcells
    rw [keyOf_of_ok hx, keyOf_of_ok hy]
    refine sameKey_of_has hx hy (keyOf_of_ok hx ▸ hr.2) fun v hv => ?_
    obtain ⟨k, hk, hcolumn, -⟩ := exists_of_mem_left (rowKey_eq_ok_iff.mp hy).flip hv
    have hcell := hsame k hk v.1 hcolumn
    rwa [hcells v hv] at hcell

end Progress

/-- The loop of an upsert, from any row on. -/
theorem work_rows {new : List Record} (hp : Placed s n front t.info) (hreq : b.requireKeys ks = .ok ())
    (hm : m + k ≤ b.rowCount) (h : Progress t b ks m done new)
    (hview : d.engine.view c = front ++ { t with records := t.records ++ new } :: back)
    (hwork : d.work c ((List.range' m k).foldlM (upsertRow t.info b ks) done) = (.done done', d')) :
    ∃ new', Progress t b ks (m + k) done' new' ∧
      d'.engine.view c = front ++ { t with records := t.records ++ new' } :: back := by
  induction k generalizing d m done new with
  | zero =>
    obtain ⟨hdone, rfl⟩ := Prod.mk.inj hwork
    cases hdone
    exact ⟨new, h, hview⟩
  | succ k ih =>
    rw [List.range'_succ, List.foldlM_cons] at hwork
    obtain ⟨done₁, d₁, hrow, hrest⟩ := Database.work_bind_done hwork
    have hlt : m < b.rowCount := Nat.lt_of_lt_of_le (Nat.lt_add_of_pos_right (Nat.succ_pos k)) hm
    have hle : m + 1 + k ≤ b.rowCount := by rwa [Nat.add_right_comm]
    rw [show m + (k + 1) = m + 1 + k by rw [Nat.add_right_comm, Nat.add_assoc]]
    obtain ⟨x, hx, ⟨⟨r, hr, hhas⟩, rfl, hview₁⟩ | ⟨hnone, rfl, r, hrow, hcells, hview₁⟩⟩ :=
      work_upsertRow (t := { t with records := t.records ++ new }) hp hview hreq hlt hrow
    · refine ih hle (h.skip hx fun hfirst => ?_) hview₁ hrest
      exact (h.first_iff hx).mp hfirst r hr hhas
    · refine ih hle (h.add hx ((h.first_iff hx).mpr hnone) hrow hcells) ?_ hrest
      rw [hview₁, Table.add, List.append_assoc]

theorem work_rows_present (hp : Placed s n front t.info)
    (hkeys : ∀ i < b.rowCount, ∃ x, rowKey t.info b ks i = .ok x ∧ ∃ r ∈ t.records, t.info.Has r x)
    (hm : m + k ≤ b.rowCount) (hview : d.engine.view c = front ++ t :: back) :
    ∃ d', d.work c ((List.range' m k).foldlM (upsertRow t.info b ks) ⟨0, m⟩) = (.done ⟨0, m + k⟩, d') ∧
      (d'.engine = d.engine ∨ d'.engine = d.engine.pin c) := by
  induction k generalizing d m with
  | zero => exact ⟨d, rfl, .inl rfl⟩
  | succ k ih =>
    have hlt : m < b.rowCount := Nat.lt_of_lt_of_le (Nat.lt_add_of_pos_right (Nat.succ_pos k)) hm
    have hle : m + 1 + k ≤ b.rowCount := by rwa [Nat.add_right_comm]
    obtain ⟨x, hx, r, hr, hhas⟩ := hkeys m hlt
    obtain ⟨wanted, hwanted, hcast⟩ := bind_ok hx
    have hfound : (d.perform c (.contains t.info wanted)).1 = .ok true := by
      rw [Database.perform_contains_of_castAll hp hview hcast]
      have hmem : r ∈ t.records.filter (t.info.Has · x) := List.mem_filter.mpr ⟨hr, decide_eq_true hhas⟩
      rw [List.isEmpty_eq_false_iff.mpr (List.ne_nil_of_mem hmem)]
      rfl
    have hpin := d.engine_perform c (.contains t.info wanted) rfl rfl
    generalize hd₁ : (d.perform c (.contains t.info wanted)).2 = d₁ at hpin
    have hask : d.work c (Work.contains t.info (key b ks m)) = (.done true, d₁) := by
      rw [Work.contains, hwanted]
      exact Database.work_ask_of_ok (Prod.ext hfound hd₁)
    have hstep : d.work c (upsertRow t.info b ks ⟨0, m⟩ m) = (.done ⟨0, m + 1⟩, d₁) :=
      (Database.work_bind_of_done hask _).trans rfl
    obtain ⟨d', hwork, hengine⟩ := ih hle (d := d₁) (by rw [hpin, Engine.view_pin, hview])
    refine ⟨d', ?_, .inr ?_⟩
    · rw [List.range'_succ, List.foldlM_cons, Database.work_bind_of_done hstep, hwork]
      rw [Nat.add_right_comm, Nat.add_assoc]
    · rcases hengine with heq | heq
      · rw [heq, hpin]
      · rw [heq, hpin, Engine.pin_pin]

theorem upsert_eq (hb : Batch.ofMembers data = .ok b) (hks : ks.isEmpty = false) (n : String) :
    upsert n data ks = (do
      (b.requireKeys ks).mapError Rpc.Failure.ofBatchError
      let t ← (Work.describe n).mapError Rpc.Failure.ofFault
      ((List.range' 0 b.rowCount).foldlM (upsertRow t b ks) ⟨0, 0⟩).mapError Rpc.Failure.ofFault) := by
  rw [upsert, hks, hb, ← List.range_eq_range']
  rfl

theorem work_upsert_eq (hs : d.Sees c n t) (hb : Batch.ofMembers data = .ok b) (hks : ks.isEmpty = false)
    (hreq : b.requireKeys ks = .ok ()) : d.work c (upsert n data ks) = (d.perform c (.describe n)).2.work c
      (((List.range' 0 b.rowCount).foldlM (upsertRow t.info b ks) ⟨0, 0⟩).mapError Rpc.Failure.ofFault) := by
  rw [upsert_eq hb hks, hreq]
  exact Database.work_perform hs.describe _

theorem keys_of_upsert (hb : Batch.ofMembers data = .ok b) (h : d.work c (upsert n data ks) = (.done done, d')) :
    ks.isEmpty = false ∧ b.requireKeys ks = .ok () := by
  cases hks : ks.isEmpty with
  | true =>
    rw [upsert, hks] at h
    exact nomatch (Prod.mk.inj h).1
  | false =>
    refine ⟨rfl, ?_⟩
    rw [upsert_eq hb hks] at h
    obtain ⟨_, d₁, hreq, -⟩ := Database.work_bind_done h
    obtain ⟨hok, -⟩ := Database.work_lift_done hreq
    cases hkeys : b.requireKeys ks with
    | ok u => rfl
    | error e =>
      rw [hkeys] at hok
      exact nomatch hok

variable {place : Place} {ofFault : Fault → Rpc.Failure}

/-- An upsert that succeeds, wherever it is done: the key of each row of the batch can be read; the table has its rows
as before and after them, in order, those rows of the batch that come first with their key, of which no two have the
same key; no other table is changed; it is told how many rows were appended and how many were not; all keys are there
then, and to do it again appends nothing. -/
theorem upsert_exact (hd : d.Orderly) (hs : d.Sees place.connection n t) (hb : Batch.ofMembers data = .ok b)
    (h : d.workAt ofFault (upsert n data ks) place = (.done done, d')) :
    (∀ i < b.rowCount, ∃ x, rowKey t.info b ks i = .ok x) ∧
    (∃ front back new, d.engine.view place.connection = front ++ t :: back ∧
      (d'.engine.view place.connection).map Table.timeless =
        (front ++ { t with records := t.records ++ new } :: back).map Table.timeless ∧
      List.Forall₂ (IsRow t.info b) (firsts t b ks b.rowCount) new ∧
      new.Pairwise (fun r r' => ¬ SameOn ks t.info r r') ∧
      ∀ i < b.rowCount, ∃ r ∈ t.records ++ new, t.info.Has r (keyOf t.info b ks i)) ∧
    done.inserted = (firsts t b ks b.rowCount).length ∧ done.inserted + done.skipped = b.rowCount ∧
    ∃ d'', d'.workAt ofFault (upsert n data ks) place = (.done ⟨0, b.rowCount⟩, d'') ∧
      (d''.engine.view place.connection).map Table.timeless =
        (d'.engine.view place.connection).map Table.timeless := by
  obtain ⟨front, back, hview, hplaced⟩ := hs.placed
  obtain ⟨hbefore, hafter, hschema, d₂, hwork, hseen⟩ := Database.workAt_done hd h
  have hd' : Database.Orderly d' := by
    have hserve := hd.serve ofFault (.work place (upsert n data ks))
    rwa [Database.serve, h] at hserve
  obtain ⟨hks, hreq⟩ := keys_of_upsert hb hwork
  have hview₁ : (place.enter d).engine.view place.connection = front ++ t :: back :=
    (Database.view_enter hd hbefore).trans hview
  -- The rows, one after another.
  have hs₁ : (place.enter d).Sees place.connection n t := by
    rw [Database.Sees, Database.schema_enter, Database.view_enter hd hbefore]
    exact hs
  rw [work_upsert_eq hs₁ hb hks hreq] at hwork
  have hview₂ : ((place.enter d).perform place.connection (.describe n)).2.engine.view place.connection =
      front ++ { t with records := t.records ++ [] } :: back := by
    rw [Database.engine_perform _ _ (.describe n) rfl rfl, Engine.view_pin, hview₁, List.append_nil]
  obtain ⟨new, hprogress, hview₃⟩ := work_rows hplaced hreq (Nat.le_of_eq (Nat.zero_add _)) (.start t b ks) hview₂
    (Database.work_mapError_done hwork)
  rw [Nat.zero_add] at hprogress
  refine ⟨hprogress.keyed, ⟨front, back, new, hview, ?_, ?_, hprogress.distinct, fun i hi => hprogress.held hi⟩,
    hprogress.inserted, hprogress.total, ?_⟩
  · rw [hseen, hview₃]
  · exact hprogress.rows.imp fun i r hr => hr.1
  · -- What is there after the first time is found by the second.
    rw [hview₃] at hseen
    obtain ⟨front', rest, hview', hfront, hrest⟩ := List.map_eq_append_iff.mp (hseen.trans List.map_append)
    obtain ⟨t', back', rfl, hsame, -⟩ := List.map_eq_cons_iff.mp hrest
    have hinfo : t'.info = t.info := (Table.info_of_timeless hsame).trans rfl
    have hplaced' : Placed d'.schema n front' t'.info := by
      rw [hinfo, hschema]
      exact hplaced.timeless hfront
    have hs' := hplaced'.sees hview'
    have hkeys : ∀ i < b.rowCount, ∃ x, rowKey t'.info b ks i = .ok x ∧ ∃ r ∈ t'.records, t'.info.Has r x := by
      intro i hi
      obtain ⟨x, hx⟩ := hprogress.keyed i hi
      obtain ⟨r, hr, hhas⟩ := hprogress.held hi
      rw [keyOf_of_ok hx] at hhas
      have hmem : { r with stamp := 0 } ∈ t'.timeless.records := by
        rw [hsame]
        exact List.mem_map_of_mem hr
      obtain ⟨r', hr', -, hcells⟩ := Table.mem_timeless hmem
      refine ⟨x, hinfo ▸ hx, r', hr', ?_⟩
      intro u hu
      rw [TableInfo.cell, hcells, hinfo]
      exact hhas u hu
    refine Database.workAt_reading hd' hafter ?_
    have hview'' := (Database.view_enter hd' hafter).trans hview'
    have hs'' : (place.enter d').Sees place.connection n t' := by
      rw [Database.Sees, Database.schema_enter, Database.view_enter hd' hafter]
      exact hs'
    have hpin := Database.engine_perform (place.enter d') place.connection (.describe n) rfl rfl
    obtain ⟨d₄, hwork', hengine⟩ := work_rows_present hplaced' hkeys (Nat.le_of_eq (Nat.zero_add _))
      (d := ((place.enter d').perform place.connection (.describe n)).2) (by rw [hpin, Engine.view_pin, hview''])
    rw [Nat.zero_add] at hwork'
    refine ⟨d₄, ?_, ?_⟩
    · rw [work_upsert_eq hs'' hb hks hreq]
      exact Database.work_mapError_of_done hwork' _
    · rcases hengine with heq | heq
      · rw [heq, hpin]
      · rw [heq, hpin, Engine.pin_pin]

/-- A key that the table has, one that the batch spells in two ways, and null twice: of five rows two are appended. -/
theorem upsert_exact_repeated :
    let t : Table := ⟨⟨"main", "t", [⟨"id", .integer .regular, false, false⟩, ⟨"name", .text, false, false⟩]⟩,
      [⟨0, [.integer .regular 1, .text "a"], 0⟩]⟩
    let b : Batch := ⟨[("ID", [.string "1", .string "02", .int 2, .null, .null])], 5, by decide⟩
    let w := upsert "t" [("ID", .array [.string "1", .string "02", .int 2, .null, .null])] ["ID"]
    firsts t b ["ID"] 5 = [1, 3] ∧
    ∃ d', (Database.ofTables none "main" [t]).workAt Rpc.Failure.ofFault w .atomic = (.done ⟨2, 3⟩, d') ∧
      ∃ d'', d'.workAt Rpc.Failure.ofFault w .atomic = (.done ⟨0, 5⟩, d'') := by
  intro t b w
  have hsees : (Database.ofTables none "main" [t]).Sees (Place.connection .atomic) "t" t :=
    List.find?_cons_of_pos (by decide +kernel)
  have hbatch : Batch.ofMembers [("ID", .array [.string "1", .string "02", .int 2, .null, .null])] = .ok b := rfl
  have hdone : ((Database.ofTables none "main" [t]).workAt Rpc.Failure.ofFault w .atomic).1 = .done ⟨2, 3⟩ := by
    decide +kernel
  obtain ⟨d', hwork⟩ : ∃ d', (Database.ofTables none "main" [t]).workAt Rpc.Failure.ofFault w .atomic =
      (.done ⟨2, 3⟩, d') := ⟨_, Prod.ext hdone rfl⟩
  obtain ⟨-, -, -, -, d'', hagain, -⟩ :=
    upsert_exact (Database.orderly_ofTables none "main" [t]) hsees hbatch hwork
  exact ⟨by decide +kernel, d', hwork, d'', hagain⟩

end

end Writes

end QueryGateway
