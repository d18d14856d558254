import Mathlib.Data.Option.Basic
import QueryGateway.Proofs.Store.Connections

namespace QueryGateway.Store
set_option autoImplicit true

/-- Values of columns. -/
abbrev Given := List (Column × Value)

namespace TableInfo

/-- The row with these values in their columns, and its own in all others. -/
def put (t : TableInfo) (given : Given) (r : Record) : Record :=
  { r with cells := Binding.cells t given (t.cell · r) }

/-- A new row with these values, and null in all other columns. -/
def fresh (t : TableInfo) (given : Given) (id : Nat) : Record :=
  ⟨id, Binding.cells t given fun _ => .null, 0⟩

end TableInfo

namespace Engine

variable {e e' : Engine}

theorem duplicate?_eq_none {t : Table} : e.duplicate? c i t columns r = none ↔
    t.duplicate? columns r = none ∧ (e.rivals c i t).duplicate? columns r = none :=
  Option.orElse_eq_none ..

/-- A row is appended where its values can be read, none of them is missing, and none is there that may be there only
once. -/
theorem insert_cases (h : e.insert c info bs = .ok e') : ∃ i t given,
    findTable? (e.view c) info.schema info.name = some (i, t) ∧ Binding.castAll bs = .ok given ∧
    Table.missing? t.info t.info.columns (t.info.fresh given e.nextId) = none ∧
    e.duplicate? c i t t.info.columns (t.info.fresh given e.nextId) = none ∧
    e' = { e.write c [.add i (t.info.fresh given e.nextId)] with nextId := e.nextId + 1 } := by
  unfold insert at h
  split at h
  · cases h
  · next i t hfind =>
    cases hg : Binding.castAll bs with
    | error f => simp only [hg, bind, Except.bind] at h; cases h
    | ok given =>
      simp only [hg, bind, Except.bind] at h
      split at h
      · cases h
      · next hchecks =>
        obtain ⟨hmissing, hduplicate⟩ := (Option.orElse_eq_none ..).mp hchecks
        exact ⟨i, t, given, hfind, rfl, hmissing, hduplicate, (Except.ok.inj h).symm⟩

/-- The rows that are to be changed can be changed: their new values are not missing, nobody else holds them, and none
of the values is there that may be there only once. -/
structure Changes (e : Engine) (c i : Nat) (t : Table) (columns : List Column) (given : Given) (found : List Record) :
    Prop where
  complete : ∀ r ∈ found, Table.missing? t.info columns (t.info.put given r) = none
  free : ∀ r ∈ found, e.contested c i r.id = false
  distinct : ∀ r ∈ found,
    e.duplicate? c i ((found.map (t.info.put given)).foldl Table.replace t) columns (t.info.put given r) = none

/-- A change finds rows. If there are any, its values are read, and put into all of them or into none. -/
theorem update_cases (h : e.update c info assignments wanted = .ok (m, e')) : ∃ i t found,
    findTable? (e.view c) info.schema info.name = some (i, t) ∧
    Binding.applyAll t.info wanted t.records = .ok found ∧ m = found.length ∧
    (found = [] ∧ e' = e ∨ found ≠ [] ∧ ∃ given, Binding.castAll assignments = .ok given ∧
      e.Changes c i t (assignments.map (·.column)) given found ∧
      e' = e.write c ((found.map (t.info.put given)).map (.replace i))) := by
  unfold update at h
  split at h
  · cases h
  · next i t hfind =>
    cases hw : Binding.applyAll t.info wanted t.records with
    | error f => simp only [hw, bind, Except.bind] at h; cases h
    | ok found =>
      simp only [hw, bind, Except.bind] at h
      split at h
      · next hempty =>
        cases h
        obtain rfl := List.isEmpty_iff.mp hempty
        exact ⟨i, t, [], hfind, hw, rfl, .inl ⟨rfl, rfl⟩⟩
      · next hsome =>
        cases hg : Binding.castAll assignments with
        | error f => simp only [hg] at h; cases h
        | ok given =>
          simp only [hg] at h
          split at h
          · cases h
          · next hmissing =>
            split at h
            · cases h
            · next hfree =>
              split at h
              · cases h
              · next hduplicate =>
                cases h
                refine ⟨i, t, found, hfind, hw, List.length_map _, .inr ⟨?_, given, rfl, ⟨?_, ?_, ?_⟩, rfl⟩⟩
                · exact fun hnil => hsome (List.isEmpty_iff.mpr hnil)
                · exact List.forall_mem_map.mp (List.findSome?_eq_none_iff.mp hmissing)
                · exact fun r hr => Bool.eq_false_iff.mpr (List.any_eq_false.mp (Bool.eq_false_iff.mpr hfree) r hr)
                · exact List.forall_mem_map.mp (List.findSome?_eq_none_iff.mp hduplicate)

theorem update_of_found {t : Table} (hfind : findTable? (e.view c) info.schema info.name = some (i, t))
    (hw : Binding.applyAll t.info wanted t.records = .ok found) (hg : Binding.castAll assignments = .ok given)
    (hne : found ≠ []) :
    (e.Changes c i t (assignments.map (·.column)) given found →
      e.update c info assignments wanted =
        .ok (found.length, e.write c ((found.map (t.info.put given)).map (.replace i)))) ∧
    (¬ e.Changes c i t (assignments.map (·.column)) given found →
      ∃ f, e.update c info assignments wanted = .error f) := by
  constructor
  · intro hchanges
    have hmissing := List.findSome?_eq_none_iff.mpr (List.forall_mem_map.mpr hchanges.complete)
    have hduplicate := List.findSome?_eq_none_iff.mpr (List.forall_mem_map.mpr hchanges.distinct)
    have hfree : (found.any fun r => e.contested c i r.id) = false :=
      List.any_eq_false.mpr fun r hr => Bool.eq_false_iff.mp (hchanges.free r hr)
    have hempty : found.isEmpty = false := List.isEmpty_eq_false_iff.mpr hne
    unfold update
    simp only [hfind, hw, hg, bind, Except.bind, hempty, Bool.false_eq_true, if_false]
    unfold TableInfo.put at hmissing hduplicate
    simp only [hmissing, hfree, Bool.false_eq_true, if_false, hduplicate, List.length_map]
    rfl
  · intro hnot
    cases h : e.update c info assignments wanted with
    | error f => exact ⟨f, rfl⟩
    | ok r =>
      obtain ⟨m, e'⟩ := r
      obtain ⟨i', t', found', hfind', hw', -, hresult⟩ := update_cases h
      obtain ⟨rfl, rfl⟩ := Prod.mk.inj (Option.some.inj (hfind'.symm.trans hfind))
      obtain rfl := Except.ok.inj (hw'.symm.trans hw)
      rcases hresult with ⟨hnone, -⟩ | ⟨-, given', hg', hchanges, -⟩
      · exact absurd hnone hne
      · obtain rfl := Except.ok.inj (hg'.symm.trans hg)
        exact absurd hchanges hnot

end Engine

end QueryGateway.Store
