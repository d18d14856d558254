import QueryGateway.Execution
import QueryGateway.Proofs.Traversal

namespace QueryGateway
set_option autoImplicit true

open Store

namespace Text

theorem sameName_iff : sameName s s' = true ↔ lower s = lower s' :=
  beq_iff_eq

theorem sameName_refl (s : String) : sameName s s = true :=
  sameName_iff.mpr rfl

theorem sameName_congr (h : sameName s s' = true) (n : String) : sameName n s = sameName n s' := by
  rw [sameName, sameName, sameName_iff.mp h]

end Text

namespace Store.TableInfo

theorem column_eq_ok_iff {t : TableInfo} :
    t.column n = .ok c ↔ t.columns.find? (Text.sameName ·.name n) = some c := by
  unfold column
  cases t.columns.find? (Text.sameName ·.name n) with
  | none => exact iff_of_false nofun nofun
  | some c' => exact ⟨fun h => congrArg some (Except.ok.inj h), fun h => congrArg Except.ok (Option.some.inj h)⟩

theorem sameName_of_column {t : TableInfo} (h : t.column n = .ok c) : Text.sameName c.name n = true := by
  have hname := List.find?_some (column_eq_ok_iff.mp h)
  exact hname

theorem column_congr {t : TableInfo} (h : Text.sameName n n' = true) : t.column n = .ok c ↔ t.column n' = .ok c := by
  simp only [column_eq_ok_iff, Text.sameName_congr h]

theorem column_self {t : TableInfo} (h : t.column n = .ok c) : t.column c.name = .ok c :=
  (column_congr (sameName_of_column h)).mpr h

theorem column_unique {t : TableInfo} (h : t.column n = .ok c) (h' : t.column n' = .ok c')
    (hn : c.name = c'.name) : c = c' := by
  have hc := column_self h
  rw [hn, column_self h'] at hc
  exact (Except.ok.inj hc).symm

/-- The columns that a request shows: those it names, or all. -/
def Shows (t : TableInfo) : Option (List String) → List Column → Prop
  | none, cs => cs = t.columns
  | some ns, cs => List.Forall₂ (fun n c => t.column n = .ok c) ns cs

theorem exists_shows {t : TableInfo} (h : ∀ ns ∈ names, ∀ n ∈ ns, ∃ c, t.column n = .ok c) :
    ∃ cs, t.Shows names cs := by
  cases names with
  | none => exact ⟨t.columns, rfl⟩
  | some ns => exact exists_forall₂ (h ns rfl)

theorem Shows.resolve {t : TableInfo} (h : t.Shows names cs) :
    ∃ found, names.mapM (fun ns => ns.mapM t.column) = .ok found ∧ found.getD t.columns = cs := by
  cases names with
  | none => exact ⟨none, rfl, h.symm⟩
  | some ns =>
    refine ⟨some cs, ?_, rfl⟩
    rw [Option.mapM_some, mapM_ok_iff.mpr h]
    rfl

theorem Shows.ne_nil {t : TableInfo} (h : t.Shows names cs) (ht : t.columns ≠ []) (hn : names ≠ some []) :
    cs ≠ [] := by
  cases names with
  | none => exact h ▸ ht
  | some ns =>
    rintro rfl
    exact hn (congrArg some (List.forall₂_nil_right_iff.mp h))

theorem Shows.column_of_mem {t : TableInfo} {ns : List String} (h : t.Shows (some ns) cs) (hc : c ∈ cs) :
    ∃ n ∈ ns, t.column n = .ok c := by
  induction h with
  | nil => cases hc
  | cons hn _ ih =>
    rcases List.mem_cons.mp hc with rfl | hmem
    · exact ⟨_, List.mem_cons_self, hn⟩
    · obtain ⟨n, hns, hcol⟩ := ih hmem
      exact ⟨n, List.mem_cons_of_mem _ hns, hcol⟩

theorem Shows.mem_of_name {t : TableInfo} {ns : List String} (h : t.Shows (some ns) cs) (hn : n ∈ ns) :
    ∃ c ∈ cs, t.column n = .ok c := by
  induction h with
  | nil => cases hn
  | cons hc _ ih =>
    rcases List.mem_cons.mp hn with rfl | hmem
    · exact ⟨_, List.mem_cons_self, hc⟩
    · obtain ⟨c, hcs, hcol⟩ := ih hmem
      exact ⟨c, List.mem_cons_of_mem _ hcs, hcol⟩

/-- The keys of a row are the columns in their order, under the names of the catalog, each of them once. -/
theorem row_keys (t : TableInfo) (cs : List Column) (r : Record) :
    (t.row cs r).map Prod.fst = cs.eraseDups.map Column.name := by
  rw [row, List.map_map]
  rfl

end Store.TableInfo

theorem lookup_map_pair (cs : List Column) (f : Column → Json) (key : String) :
    (cs.map fun c => (c.name, f c)).lookup key = (cs.find? (·.name == key)).map f := by
  induction cs with
  | nil => rfl
  | cons c cs ih =>
    rw [List.map_cons, List.lookup_cons, List.find?_cons, ih]
    by_cases h : c.name = key
    · rw [beq_iff_eq.mpr h, beq_iff_eq.mpr h.symm]
      rfl
    · rw [beq_false_of_ne h, beq_false_of_ne (Ne.symm h)]

theorem find?_eraseDups (p : Column → Bool) (cs : List Column) : cs.eraseDups.find? p = cs.find? p := by
  -- The repeats of the head are taken out of the tail, which is not the tail that structural induction knows.
  induction hn : cs.length using Nat.strongRecOn generalizing cs with
  | ind n ih =>
    cases cs with
    | nil => rfl
    | cons c cs =>
      rw [List.eraseDups_cons, List.find?_cons, List.find?_cons]
      cases hp : p c with
      | true => rfl
      | false =>
        have hlength : (cs.filter fun b => !b == c).length < n := by
          rw [← hn, List.length_cons]
          exact Nat.lt_succ_of_le (List.length_filter_le _ _)
        have hnew : ∀ b, (!b == c && p b) = p b := by
          intro b
          by_cases hb : b = c
          · rw [hb, hp, Bool.and_false]
          · rw [beq_false_of_ne hb, Bool.not_false, Bool.true_and]
        simp only [ih _ hlength _ rfl, List.find?_filter, Bool.decide_and, Bool.decide_eq_true, hnew]

namespace Store.TableInfo

theorem lookup_row (t : TableInfo) (cs : List Column) (r : Record) (key : String) :
    (t.row cs r).lookup key = (cs.find? (·.name == key)).map fun c => (t.cell c r).toJson := by
  rw [row, lookup_map_pair, find?_eraseDups]

theorem Shows.first_of_name {t : TableInfo} (h : t.Shows names cs) (hc : t.column n = .ok c)
    (hm : names = none ∨ c ∈ cs) : cs.find? (·.name == c.name) = some c := by
  cases names with
  | none =>
    obtain rfl : cs = t.columns := h
    obtain ⟨-, front, back, heq, hfront⟩ := List.find?_eq_some_iff_append.mp (column_eq_ok_iff.mp hc)
    apply List.find?_eq_some_iff_append.mpr
    refine ⟨beq_self_eq_true _, front, back, heq, ?_⟩
    intro b hb
    apply (Bool.not_eq_true' _).mpr
    apply beq_false_of_ne
    intro hname
    have hnot := hfront b hb
    rw [hname, sameName_of_column hc] at hnot
    cases hnot
  | some ns =>
    have hmem : c ∈ cs := hm.resolve_left nofun
    cases hfind : cs.find? (·.name == c.name) with
    | none =>
      have hnone := List.find?_eq_none.mp hfind c hmem
      exact absurd (beq_self_eq_true _) hnone
    | some c' =>
      obtain ⟨n', -, hn'⟩ := h.column_of_mem (List.mem_of_find?_eq_some hfind)
      have hname := List.find?_some hfind
      exact congrArg some (column_unique hn' hc (beq_iff_eq.mp hname))

end Store.TableInfo

namespace Execution

theorem isAuxiliary_eq_false_iff : isAuxiliary (some ns) key = false ↔ ∃ n ∈ ns, Text.sameName n key = true := by
  rw [isAuxiliary, Option.any_some, Bool.not_eq_false', List.any_eq_true]

theorem fetched_of_auxiliary (h : isAuxiliary (some ns) key = true) : fetched ns key = ns ++ [key] := by
  have hnone : ns.any (Text.sameName · key) = false := (Bool.not_eq_true' _).mp h
  rw [fetched, hnone, if_neg Bool.false_ne_true]

theorem fetched_of_named (h : isAuxiliary (some ns) key = false) : fetched ns key = ns := by
  have hsome : ns.any (Text.sameName · key) = true := (Bool.not_eq_false' _).mp h
  rw [fetched, if_pos hsome]

/-- The columns that are fetched for a ranking: those shown, then the one that decides if it is not among them. -/
def fetchedColumns (names : Option (List String)) (cs : List Column) (c : Column) : List Column :=
  if isAuxiliary names c.name then cs ++ [c] else cs

theorem fetchedColumns_of_auxiliary (h : isAuxiliary names c.name = true) : fetchedColumns names cs c = cs ++ [c] :=
  if_pos h

theorem fetchedColumns_of_named (h : isAuxiliary names c.name = false) : fetchedColumns names cs c = cs := by
  rw [fetchedColumns, h, if_neg Bool.false_ne_true]

theorem fetchedColumns_ne_nil (h : cs ≠ []) (names : Option (List String)) (c : Column) :
    fetchedColumns names cs c ≠ [] := by
  unfold fetchedColumns
  split
  · exact List.append_ne_nil_of_left_ne_nil h _
  · exact h

theorem fetched_shows {t : TableInfo} (h : t.Shows names cs) (hc : t.column n = .ok c) :
    t.Shows (names.map (fetched · c.name)) (fetchedColumns names cs c) := by
  cases names with
  | none => exact h
  | some ns =>
    cases haux : isAuxiliary (some ns) c.name with
    | false =>
      rw [Option.map_some, fetched_of_named haux, fetchedColumns_of_named haux]
      exact h
    | true =>
      rw [Option.map_some, fetched_of_auxiliary haux, fetchedColumns_of_auxiliary haux]
      exact List.rel_append h (.cons (TableInfo.column_self hc) .nil)

theorem lookup_fetched {t : TableInfo} (h : t.Shows names cs) (hc : t.column n = .ok c) (r : Record) :
    (t.row (fetchedColumns names cs c) r).lookup c.name = some (t.cell c r).toJson := by
  rw [TableInfo.lookup_row, (fetched_shows h hc).first_of_name hc]
  · rfl
  · cases names with
    | none => exact .inl rfl
    | some ns =>
      right
      cases haux : isAuxiliary (some ns) c.name with
      | true =>
        rw [fetchedColumns_of_auxiliary haux]
        exact List.mem_append_right _ List.mem_cons_self
      | false =>
        rw [fetchedColumns_of_named haux]
        obtain ⟨m, hm, hsame⟩ := isAuxiliary_eq_false_iff.mp haux
        obtain ⟨c', hc', hcol⟩ := h.mem_of_name hm
        have hself := (TableInfo.column_congr hsame).mpr (TableInfo.column_self hc)
        rw [hcol] at hself
        cases hself
        exact hc'

theorem name_ne_of_auxiliary {t : TableInfo} (h : t.Shows names cs) (haux : isAuxiliary names key = true) :
    ∀ c ∈ cs, c.name ≠ key := by
  intro c hc hname
  cases names with
  | none => cases haux
  | some ns =>
    obtain ⟨m, hm, hcol⟩ := h.column_of_mem hc
    have hsame : Text.sameName m key = true := by
      rw [← hname, Text.sameName_congr (TableInfo.sameName_of_column hcol)]
      exact Text.sameName_refl m
    rw [isAuxiliary_eq_false_iff.mpr ⟨m, hm, hsame⟩] at haux
    cases haux

theorem withoutColumn_row (t : TableInfo) {cs : List Column} (h : ∀ c' ∈ cs, c'.name ≠ c.name) (r : Record) :
    withoutColumn c.name (t.row (cs ++ [c]) r) = t.row cs r := by
  have hnot : c ∉ cs := fun hm => h c hm rfl
  have hnew : [c].removeAll cs = [c] := by
    rw [List.removeAll, List.filter_eq_self]
    intro c' hc'
    rw [List.mem_singleton.mp hc', List.elem_eq_mem, decide_eq_false hnot]
    rfl
  have herase : (cs ++ [c]).eraseDups = cs.eraseDups ++ [c] := by
    rw [List.eraseDups_append, hnew]
    rfl
  have hkeep : withoutColumn c.name (t.row cs r) = t.row cs r := by
    apply List.filter_eq_self.mpr
    intro x hx
    obtain ⟨c', hc', rfl⟩ := List.mem_map.mp hx
    exact bne_iff_ne.mpr (h c' (List.mem_eraseDups.mp hc'))
  have hdrop : withoutColumn c.name [(c.name, (t.cell c r).toJson)] = [] := by
    rw [withoutColumn, List.filter_cons_of_neg, List.filter_nil]
    exact fun hne => bne_iff_ne.mp hne rfl
  have hrow : t.row (cs ++ [c]) r = t.row cs r ++ [(c.name, (t.cell c r).toJson)] := by
    rw [TableInfo.row, herase, List.map_append]
    rfl
  rw [hrow, withoutColumn, List.filter_append]
  exact (congrArg₂ (· ++ ·) hkeep hdrop).trans (List.append_nil _)

/-- What is left of a fetched row is the row that is shown. -/
theorem shown_row {t : TableInfo} (h : t.Shows names cs) (c : Column) (r : Record) :
    (if isAuxiliary names c.name then withoutColumn c.name else id) (t.row (fetchedColumns names cs c) r) =
      t.row cs r := by
  cases haux : isAuxiliary names c.name with
  | false => rw [fetchedColumns_of_named haux, if_neg Bool.false_ne_true, id]
  | true =>
    rw [fetchedColumns_of_auxiliary haux, if_pos rfl]
    exact withoutColumn_row t (name_ne_of_auxiliary h haux) r

end Execution

end QueryGateway
