import QueryGateway.Proofs.Execution.Answers

namespace QueryGateway.Store
set_option autoImplicit true

/-- Two rows have the same values in the columns of a key, null being the same as null. -/
def SameOn (key : List String) (t : TableInfo) (a b : Record) : Prop :=
  ∀ k ∈ key, ∀ c, t.column k = .ok c → (t.cell c a).same (t.cell c b) = true

instance (key : List String) (t : TableInfo) (a b : Record) : Decidable (SameOn key t a b) :=
  decidable_of_iff (∀ k ∈ key, (t.column k).toOption.all (fun c => (t.cell c a).same (t.cell c b)) = true) <| by
    refine forall₂_congr fun k _ => ?_
    cases t.column k with
    | ok c => exact ⟨fun h _ hc => Except.ok.inj hc ▸ h, fun h => h c rfl⟩
    | error f => exact iff_of_true rfl nofun

/-- No two rows of the table have the same key. -/
def Table.HasKey (t : Table) (key : List String) : Prop :=
  t.records.Pairwise fun a b => ¬ SameOn key t.info a b

instance (t : Table) (key : List String) : Decidable (t.HasKey key) :=
  inferInstanceAs (Decidable (t.records.Pairwise _))

namespace Change

def addedTo (i : Nat) : Change → Option Record
  | add j r => if j = i then some r else none
  | replace .. => none

def IsAdd (change : Change) : Prop :=
  ∃ i r, change = .add i r

theorem map_info_modify (tables : List Table) (i : Nat) {f : Table → Table} (h : ∀ t, (f t).info = t.info) :
    (tables.modify i f).map (·.info) = tables.map (·.info) := by
  apply List.ext_getElem?
  intro j
  rw [List.getElem?_map, List.getElem?_map, List.getElem?_modify]
  split
  · cases tables[j]? with
    | none => rfl
    | some t => exact congrArg some (h t)
  · rw [id_map']

theorem map_info_apply (stamp : Nat) (tables : List Table) (change : Change) :
    (apply stamp tables change).map (·.info) = tables.map (·.info) := by
  cases change with
  | add i r => exact map_info_modify tables i fun _ => rfl
  | replace i r => exact map_info_modify tables i fun _ => rfl

theorem map_info_applyAll (stamp : Nat) (tables : List Table) (changes : List Change) :
    (applyAll stamp tables changes).map (·.info) = tables.map (·.info) := by
  induction changes generalizing tables with
  | nil => rfl
  | cons change changes ih => exact (ih (apply stamp tables change)).trans (map_info_apply stamp tables change)

theorem getElem?_applyAll (stamp : Nat) {tables : List Table} {t : Table} {changes : List Change}
    (h : ∀ ch ∈ changes, ch.IsAdd) (ht : tables[i]? = some t) : (applyAll stamp tables changes)[i]? =
      some { t with
        records := t.records ++ (changes.filterMap (addedTo i)).map fun r : Record => { r with stamp } } := by
  induction changes generalizing tables t with
  | nil =>
    rw [List.filterMap_nil, List.map_nil, List.append_nil]
    exact ht
  | cons change changes ih =>
    obtain ⟨⟨j, r, rfl⟩, hrest⟩ := List.forall_mem_cons.mp h
    change (applyAll stamp (tables.modify j (·.add { r with stamp })) changes)[i]? = _
    by_cases hj : j = i
    · have hi : (tables.modify j (·.add { r with stamp }))[i]? = some (t.add { r with stamp }) := by
        rw [List.getElem?_modify, ht, Option.map_eq_map, Option.map_some, if_pos hj]
      have hadded : addedTo i (.add j r) = some r := if_pos hj
      rw [ih hrest hi, List.filterMap_cons_some hadded, List.map_cons, List.append_cons]
      rfl
    · have hi : (tables.modify j (·.add { r with stamp }))[i]? = some t := by
        rw [List.getElem?_modify, ht, Option.map_eq_map, Option.map_some, if_neg hj]
      have hadded : addedTo i (.add j r) = none := if_neg hj
      rw [ih hrest hi, List.filterMap_cons_none hadded]

end Change

/-- A table under the name and the schema of this one is this one. -/
def Named (infos : List TableInfo) (t : TableInfo) : Prop :=
  infos.find? (fun u => u.schema == t.schema && u.name == t.name) = some t

namespace Engine

theorem findTable?_eq_some {tables : List Table} (h : findTable? tables schema name = some (i, t)) :
    tables[i]? = some t ∧
      (tables.map (·.info)).find? (fun u => u.schema == schema && u.name == name) = some t.info := by
  obtain ⟨⟨t', i'⟩, hfind, heq⟩ := Option.map_eq_some_iff.mp h
  cases heq
  refine ⟨List.mem_zipIdx_iff_getElem?.mp (List.mem_of_find?_eq_some hfind), ?_⟩
  have hfst : tables.find? ((fun u => u.schema == schema && u.name == name) ∘ (·.info)) = some t := by
    rw [← List.zipIdx_map_fst 0 tables, List.find?_map]
    exact congrArg (Option.map Prod.fst) hfind
  rw [List.find?_map, hfst]
  rfl

/-- What is described under a name is found again by its own. -/
theorem describe_named {tables : List Table} (h : describe tables schema name = .ok t) :
    Named (tables.map (·.info)) t := by
  unfold describe at h
  split at h
  · next t' hfind =>
    cases h
    obtain ⟨hthis, front, back, heq, hfront⟩ := List.find?_eq_some_iff_append.mp hfind
    -- A table before it with exactly its name would have been described in its place.
    refine List.find?_eq_some_iff_append.mpr ⟨?_, front.map (·.info), back.map (·.info), ?_, ?_⟩
    · rw [beq_self_eq_true, beq_self_eq_true, Bool.and_self]
    · rw [heq, List.map_append, List.map_cons]
    · intro u hu
      obtain ⟨t'', ht'', rfl⟩ := List.mem_map.mp hu
      have hnot := hfront t'' ht''
      by_contra hsame
      obtain ⟨hschema, hname⟩ : t''.info.schema = t'.info.schema ∧ t''.info.name = t'.info.name := by simpa using hsame
      rw [hschema, hname, hthis] at hnot
      cases hnot
  · cases h

end Engine

namespace Binding

theorem applyAll_eq_nil {wanted : List Binding} (h : applyAll t wanted rs = .ok []) (ha : a ∈ rs) :
    ∃ b ∈ wanted, ∃ v, b.column.type.cast b.value = .ok v ∧ (t.cell b.column a).same v = false := by
  induction wanted generalizing rs with
  | nil =>
    cases h
    exact absurd ha List.not_mem_nil
  | cons b wanted ih =>
    have hsome : rs.isEmpty = false := List.isEmpty_eq_false_iff_exists_mem.mpr ⟨a, ha⟩
    rw [applyAll, apply, hsome] at h
    cases hv : b.column.type.cast b.value with
    | error f =>
      rw [hv] at h
      exact nomatch h
    | ok v =>
      rw [hv] at h
      cases hs : (t.cell b.column a).same v with
      | false => exact ⟨b, List.mem_cons_self, v, hv, hs⟩
      | true =>
        obtain ⟨b', hb', hdiffers⟩ := ih h (List.mem_filter.mpr ⟨ha, hs⟩)
        exact ⟨b', List.mem_cons_of_mem b hb', hdiffers⟩

theorem lookup_castAll {bs : List Binding} (h : castAll bs = .ok given) (hd : (bs.map (·.column)).Nodup) (hb : b ∈ bs) :
    ∃ v, b.column.type.cast b.value = .ok v ∧ given.lookup b.column = some v := by
  induction bs generalizing given with
  | nil => exact absurd hb List.not_mem_nil
  | cons b' bs ih =>
    obtain ⟨hnot, hrest⟩ := List.nodup_cons.mp hd
    rw [castAll, List.mapM_cons] at h
    cases hv : b'.column.type.cast b'.value with
    | error f =>
      rw [hv] at h
      exact nomatch h
    | ok v =>
      rw [hv] at h
      cases hg : castAll bs with
      | error f =>
        rw [castAll] at hg
        simp only [hg] at h
        exact nomatch h
      | ok given' =>
        have hgiven : (b'.column, v) :: given' = given := by
          rw [castAll] at hg
          simp only [hg] at h
          exact Except.ok.inj h
        rw [← hgiven, List.lookup_cons]
        rcases List.mem_cons.mp hb with rfl | hb
        · exact ⟨v, hv, by rw [beq_self_eq_true]⟩
        · have hne : b.column ≠ b'.column := fun heq => hnot (List.mem_map.mpr ⟨b, hb, heq⟩)
          rw [beq_false_of_ne hne]
          exact ih hg hrest hb

end Binding

theorem TableInfo.cell_cells (t : TableInfo) (given : List (Column × Value)) (old : Column → Value) (id stamp : Nat)
    (hc : c ∈ t.columns) :
    t.cell c ⟨id, Binding.cells t given old, stamp⟩ = (given.lookup c).getD (old c) := by
  have hlookup : ∀ cs : List Column, c ∈ cs → ∀ f : Column → Value, (cs.zip (cs.map f)).lookup c = some (f c) := by
    intro cs hcs f
    induction cs with
    | nil => exact absurd hcs List.not_mem_nil
    | cons c' cs ih =>
      rw [List.map_cons, List.zip_cons_cons, List.lookup_cons]
      by_cases heq : c = c'
      · rw [heq, beq_self_eq_true]
      · rw [beq_false_of_ne heq]
        exact ih ((List.mem_cons.mp hcs).resolve_left heq)
  rw [cell, Binding.cells, hlookup t.columns hc]
  rfl

/-- A row to be appended has the values that were looked for, and these are in columns of the key. -/
structure Covers (key : List String) (t : TableInfo) (wanted bs : List Binding) : Prop where
  given : ∀ b ∈ wanted, b ∈ bs
  named : ∀ b ∈ wanted, ∃ k ∈ key, t.column k = .ok b.column
  once : (bs.map (·.column)).Nodup

theorem Covers.differs {given : List (Column × Value)} (h : Covers key t wanted bs)
    (hg : Binding.castAll bs = .ok given) (habsent : Binding.applyAll t wanted rs = .ok []) (ha : a ∈ rs) (old : Column → Value) (id stamp : Nat) :
    ¬ SameOn key t a ⟨id, Binding.cells t given old, stamp⟩ := by
  intro hsame
  obtain ⟨b, hb, v, hv, hdiffers⟩ := Binding.applyAll_eq_nil habsent ha
  obtain ⟨k, hk, hcolumn⟩ := h.named b hb
  obtain ⟨v', hv', hlookup⟩ := Binding.lookup_castAll hg h.once (h.given b hb)
  have heq : v' = v := Except.ok.inj (hv'.symm.trans hv)
  have hmem : b.column ∈ t.columns := List.mem_of_find?_eq_some (TableInfo.column_eq_ok_iff.mp hcolumn)
  have hkey := hsame k hk b.column hcolumn
  rw [t.cell_cells given old id stamp hmem, hlookup, heq, Option.getD_some, hdiffers] at hkey
  exact nomatch hkey

namespace Pending

variable {p : Pending} {t : Table} {i : Nat}

/-- All that a transaction has done is append rows, each with a key that no row had that it saw. -/
structure Fresh (key : List String) (p : Pending) : Prop where
  adds : ∀ ch ∈ p.changes, ch.IsAdd
  apart : ∀ i t, p.base[i]? = some t → ∀ a ∈ t.records, ∀ b ∈ p.changes.filterMap (Change.addedTo i),
    ¬ SameOn key t.info a b
  distinct : ∀ i t, p.base[i]? = some t →
    (p.changes.filterMap (Change.addedTo i)).Pairwise fun a b => ¬ SameOn key t.info a b

theorem Fresh.nil (key : List String) (since : Nat) (base : List Table) : Fresh key ⟨since, base, []⟩ :=
  ⟨nofun, fun _ _ _ _ _ => nofun, fun _ _ _ => .nil⟩

theorem map_info_view (p : Pending) : p.view.map (·.info) = p.base.map (·.info) :=
  Change.map_info_applyAll p.since p.base p.changes

/-- What a transaction sees of a table: the rows it began with and those it has appended. -/
theorem Fresh.view (h : p.Fresh key) (ht : p.base[i]? = some t) : p.view[i]? =
    some { t with records := t.records ++ (p.changes.filterMap (Change.addedTo i)).map fun r : Record =>
      { r with stamp := p.since } } :=
  Change.getElem?_applyAll p.since h.adds ht

theorem exists_base (ht : p.view[i]? = some t) : ∃ t' : Table, p.base[i]? = some t' := by
  have hlen : p.view.length = p.base.length := by
    have := congrArg List.length p.map_info_view
    rwa [List.length_map, List.length_map] at this
  obtain ⟨hi, -⟩ := List.getElem?_eq_some_iff.mp ht
  exact ⟨_, List.getElem?_eq_getElem (hlen ▸ hi)⟩

theorem filterMap_concat (changes : List Change) (i j : Nat) (r : Record) :
    (changes ++ [Change.add i r]).filterMap (Change.addedTo j) =
      changes.filterMap (Change.addedTo j) ++ if i = j then [r] else [] := by
  rw [List.filterMap_append]
  by_cases hj : i = j
  · rw [if_pos hj, List.filterMap_cons_some (show Change.addedTo j (.add i r) = some r from if_pos hj)]
    rfl
  · rw [if_neg hj, List.filterMap_cons_none (show Change.addedTo j (.add i r) = none from if_neg hj)]
    rfl

theorem Fresh.add (h : p.Fresh key) (ht : p.view[i]? = some t) (hr : ∀ a ∈ t.records, ¬ SameOn key t.info a r) :
    Fresh key { p with changes := p.changes ++ [.add i r] } := by
  obtain ⟨t', ht'⟩ := exists_base ht
  obtain rfl := Option.some.inj ((h.view ht').symm.trans ht)
  -- In its own table the row differs from those before the transaction and from those it has appended.
  have hbase : ∀ a ∈ t'.records, ¬ SameOn key t'.info a r := fun a ha => hr a (List.mem_append_left _ ha)
  have hadded : ∀ a ∈ p.changes.filterMap (Change.addedTo i), ¬ SameOn key t'.info a r := fun a ha =>
    hr { a with stamp := p.since } (List.mem_append_right _ (List.mem_map.mpr ⟨a, ha, rfl⟩))
  refine ⟨fun ch hch => ?_, fun j u hu a ha b hb => ?_, fun j u hu => ?_⟩
  · rcases List.mem_append.mp hch with hch | hch
    · exact h.adds ch hch
    · exact ⟨i, r, List.mem_singleton.mp hch⟩
  · rw [filterMap_concat] at hb
    rcases List.mem_append.mp hb with hold | hnew
    · exact h.apart j u hu a ha b hold
    · by_cases hj : i = j
      · rw [if_pos hj] at hnew
        subst hj
        cases ht'.symm.trans hu
        rw [List.mem_singleton.mp hnew]
        exact hbase a ha
      · rw [if_neg hj] at hnew
        exact absurd hnew List.not_mem_nil
  · rw [filterMap_concat]
    by_cases hj : i = j
    · subst hj
      cases ht'.symm.trans hu
      rw [if_pos rfl]
      refine List.pairwise_append.mpr ⟨h.distinct i t' hu, List.pairwise_singleton _ _, fun a ha b hb => ?_⟩
      rw [List.mem_singleton.mp hb]
      exact hadded a ha
    · rw [if_neg hj, List.append_nil]
      exact h.distinct j u hu

end Pending

theorem Engine.insert_fresh {e e' : Engine} {p : Pending} (he : e.connection c = .reading p) (hf : p.Fresh key)
    (hn : Named (p.base.map (·.info)) t) (hfind : findTable? p.view t.schema t.name = some (i, u))
    (habsent : Binding.applyAll u.info wanted u.records = .ok []) (hc : Covers key t wanted bs)
    (h : e.insert c t bs = .ok e') :
    ∃ p', e'.connection c = .reading p' ∧ p'.base = p.base ∧ p'.Fresh key := by
  obtain ⟨hi, hinfo⟩ := findTable?_eq_some hfind
  have hu : u.info = t := by
    rw [p.map_info_view, hn] at hinfo
    exact (Option.some.inj hinfo).symm
  have hview : e.view c = p.view := by rw [view, he]
  have hlen : c < e.connections.length := lt_of_inTransaction (by rw [he]; rfl)
  unfold insert at h
  rw [hview, hfind] at h
  cases hg : Binding.castAll bs with
  | error f =>
    simp only [hg, bind, Except.bind] at h
    cases h
  | ok given =>
    simp only [hg, bind, Except.bind] at h
    split at h
    · cases h
    · cases h
      refine ⟨{ p with changes := p.changes ++ [.add i ⟨e.nextId, Binding.cells u.info given fun _ => .null, 0⟩] },
        ?_, rfl, hf.add hi fun a ha => ?_⟩
      · rw [write_reading he]
        exact connection_setConnection_self e _ hlen
      · rw [hu] at habsent ⊢
        exact hc.differs hg habsent ha _ _ _

end QueryGateway.Store
