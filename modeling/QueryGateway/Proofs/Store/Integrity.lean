import QueryGateway.Proofs.Store.Unique

namespace QueryGateway.Store
set_option autoImplicit true

namespace Table

def ids (t : Table) : List Nat :=
  t.records.map (·.id)

theorem ids_add (t : Table) (r : Record) : (t.add r).ids = t.ids ++ [r.id] :=
  List.map_append

theorem ids_replace (t : Table) (r : Record) : (t.replace r).ids = t.ids := by
  rw [ids, replace, List.map_map, ids]
  apply List.map_congr_left
  intro old _
  simp only [Function.comp_apply]
  split
  · next h => exact h.symm
  · rfl

end Table

theorem perm_flatMap_set {l : List α} {g : α → List β} (h : l[i]? = some a) (b : α) :
    ((l.set i b).flatMap g ++ g a).Perm (l.flatMap g ++ g b) := by
  induction l generalizing i with
  | nil => cases h
  | cons x l ih =>
    cases i with
    | zero =>
      cases h
      rw [List.set_cons_zero, List.flatMap_cons, List.flatMap_cons, List.append_assoc]
      exact List.perm_append_comm.trans (List.Perm.append_right _ List.perm_append_comm)
    | succ i =>
      rw [List.set_cons_succ, List.flatMap_cons, List.flatMap_cons, List.append_assoc, List.append_assoc]
      exact (ih h).append_left _

theorem nodup_of_subperm {l l' : List α} (h : l.Subperm l') (hn : l'.Nodup) : l.Nodup := by
  obtain ⟨m, hperm, hsub⟩ := h
  exact hperm.nodup_iff.mp (hn.sublist hsub)

theorem mem_modify {l : List α} {f : α → α} (h : b ∈ l.modify i f) : b ∈ l ∨ ∃ a, l[i]? = some a ∧ b = f a := by
  obtain ⟨j, hj⟩ := List.mem_iff_getElem?.mp h
  rw [List.getElem?_modify] at hj
  obtain ⟨a, ha, hb⟩ := Option.map_eq_some_iff.mp hj
  by_cases hij : i = j
  · rw [if_pos hij] at hb
    exact .inr ⟨a, hij ▸ ha, hb.symm⟩
  · rw [if_neg hij] at hb
    exact .inl (List.mem_of_getElem? (hb ▸ ha))

def idsOf (tables : List Table) : List Nat :=
  tables.flatMap Table.ids

theorem nodup_ids {tables : List Table} (h : (idsOf tables).Nodup) (ht : t ∈ tables) : t.ids.Nodup :=
  h.sublist (List.sublist_flatten_of_mem (List.mem_map_of_mem ht))

def EachRow (P : Record → Prop) (tables : List Table) : Prop :=
  ∀ t ∈ tables, ∀ r ∈ t.records, P r

instance (P : Record → Prop) [DecidablePred P] (tables : List Table) : Decidable (EachRow P tables) :=
  inferInstanceAs (Decidable (∀ t ∈ tables, ∀ r ∈ t.records, P r))

namespace Change

def record : Change → Record
  | add _ r => r
  | replace _ r => r

def newIds (changes : List Change) : List Nat :=
  changes.flatMap fun
    | add _ r => [r.id]
    | replace .. => []

theorem newIds_append (changes more : List Change) : newIds (changes ++ more) = newIds changes ++ newIds more :=
  List.flatMap_append

theorem idsOf_apply (stamp : Nat) (tables : List Table) (change : Change) : ∃ ids,
    ids.Sublist (newIds [change]) ∧ (idsOf (apply stamp tables change)).Perm (idsOf tables ++ ids) := by
  cases change with
  | add i r =>
    have hset := List.modify_eq_set_getElem? (fun t : Table => t.add { r with stamp }) i tables
    cases ht : tables[i]? with
    | none =>
      rw [ht] at hset
      refine ⟨[], List.nil_sublist _, ?_⟩
      rw [List.append_nil, apply, hset]
      exact .refl _
    | some t =>
      rw [ht] at hset
      refine ⟨[r.id], .refl _, (List.perm_append_right_iff t.ids).mp ?_⟩
      rw [apply, hset]
      have hperm := perm_flatMap_set (g := Table.ids) ht (t.add { r with stamp })
      rw [Table.ids_add] at hperm
      refine hperm.trans ?_
      rw [List.append_assoc]
      exact List.perm_append_comm.append_left _
  | replace i r =>
    refine ⟨[], List.nil_sublist _, ?_⟩
    have hmap : (tables.modify i (·.replace { r with stamp })).map Table.ids = (tables.map Table.ids).modify i id :=
      map_modify Table.ids (fun t => t.ids_replace _) tables i
    rw [List.modify_id] at hmap
    rw [List.append_nil]
    exact .of_eq (congrArg List.flatten hmap)

theorem idsOf_applyAll (stamp : Nat) (tables : List Table) (changes : List Change) : ∃ ids,
    ids.Sublist (newIds changes) ∧ (idsOf (applyAll stamp tables changes)).Perm (idsOf tables ++ ids) := by
  induction changes generalizing tables with
  | nil => exact ⟨[], .refl _, .of_eq (List.append_nil _).symm⟩
  | cons change changes ih =>
    obtain ⟨ids, hids, hperm⟩ := idsOf_apply stamp tables change
    obtain ⟨more, hmore, hperm'⟩ := ih (apply stamp tables change)
    refine ⟨ids ++ more, (newIds_append [change] changes) ▸ hids.append hmore, hperm'.trans ?_⟩
    rw [← List.append_assoc]
    exact hperm.append_right _

theorem eachRow_apply {P : Record → Prop} {tables : List Table} {change : Change} (h : EachRow P tables)
    (hc : P { change.record with stamp }) : EachRow P (apply stamp tables change) := by
  intro t ht r hr
  cases change with
  | add i a =>
    rcases mem_modify ht with hold | ⟨u, hu, rfl⟩
    · exact h t hold r hr
    · rcases List.mem_append.mp hr with hold | hnew
      · exact h u (List.mem_of_getElem? hu) r hold
      · exact List.mem_singleton.mp hnew ▸ hc
  | replace i a =>
    rcases mem_modify ht with hold | ⟨u, hu, rfl⟩
    · exact h t hold r hr
    · obtain ⟨old, hold, rfl⟩ := List.mem_map.mp hr
      split
      · exact hc
      · exact h u (List.mem_of_getElem? hu) old hold

theorem eachRow_applyAll {P : Record → Prop} {tables : List Table} {changes : List Change} (h : EachRow P tables)
    (hc : ∀ change ∈ changes, P { change.record with stamp }) : EachRow P (applyAll stamp tables changes) := by
  induction changes generalizing tables with
  | nil => exact h
  | cons change changes ih =>
    obtain ⟨hfirst, hrest⟩ := List.forall_mem_cons.mp hc
    exact ih (eachRow_apply h hfirst) hrest

end Change

/-- A transaction began with tables that are there, perhaps with more rows by now, and holds back rows whose values
compare. -/
structure Pending.Intact (p : Pending) (tables : List Table) : Prop where
  infos : p.base.map (·.info) = tables.map (·.info)
  ids : (idsOf p.base).Subperm (idsOf tables)
  base : EachRow Record.IsPlain p.base
  changes : ∀ change ∈ p.changes, change.record.IsPlain

namespace Engine

/-- The ids that have been given out: those of all rows, and of rows that are held back. -/
def ids (e : Engine) : List Nat :=
  idsOf e.tables ++ e.connections.flatMap fun s => Change.newIds s.noted

structure Intact (e : Engine) : Prop where
  nodup : e.ids.Nodup
  below : ∀ id ∈ e.ids, id < e.nextId
  plain : EachRow Record.IsPlain e.tables
  stamped : EachRow (·.stamp ≤ e.stamp) e.tables
  distinct : ∀ t ∈ e.tables, t.IsDistinct
  pending : ∀ p, .reading p ∈ e.connections → p.Intact e.tables

theorem keysDistinct_iff {tables : List Table} : keysDistinct tables = true ↔ ∀ t ∈ tables, t.IsDistinct := by
  simp only [keysDistinct, List.all_eq_true, Option.isNone_iff_eq_none, Table.IsDistinct]

theorem write_nextId (e : Engine) (c : Nat) (changes : List Change) :
    { e.write c changes with nextId := e.nextId } = e.write c changes := by
  cases he : e.connection c <;> simp only [write, he] <;> rfl

theorem getElem?_of_reading {e : Engine} (h : e.connection c = .reading p) : e.connections[c]? = some (.reading p) := by
  have hlt : c < e.connections.length := lt_of_inTransaction (by rw [h]; rfl)
  rw [connection, List.getElem?_eq_getElem hlt, Option.getD_some] at h
  rw [List.getElem?_eq_getElem hlt, h]

namespace Intact

variable {e e' : Engine}

theorem pending_of_connection (h : e.Intact) (hp : e.connection c = .reading p) : p.Intact e.tables :=
  h.pending p (List.mem_of_getElem? (getElem?_of_reading hp))

theorem setConnection (h : e.Intact) (c : Nat) {s : Connection} (hnoted : s.noted = [])
    (hs : ∀ p, s = .reading p → p.Intact e.tables) : (e.setConnection c s).Intact := by
  have hids : (e.setConnection c s).ids.Subperm e.ids := by
    refine (List.subperm_append_left _).mpr ?_
    cases hc : e.connections[c]? with
    | none =>
      rw [Engine.setConnection, List.set_eq_of_length_le (List.getElem?_eq_none_iff.mp hc)]
    | some old =>
      have hperm := perm_flatMap_set (g := fun s => Change.newIds s.noted) hc s
      rw [hnoted, show Change.newIds [] = [] from rfl, List.append_nil] at hperm
      exact (List.sublist_append_left _ _).subperm.trans hperm.subperm
  refine ⟨nodup_of_subperm hids h.nodup, fun id hid => h.below id (hids.subset hid), h.plain, h.stamped, h.distinct,
    fun p hp => ?_⟩
  rcases List.mem_or_eq_of_mem_set hp with hold | hnew
  · exact h.pending p hold
  · exact hs p hnew.symm

theorem connect (h : e.Intact) : e.connect.2.Intact := by
  have hids : e.connect.2.ids = e.ids := by
    rw [ids, ids]
    refine congrArg (idsOf e.tables ++ ·) (List.flatMap_append.trans ?_)
    exact List.append_nil _
  refine ⟨hids ▸ h.nodup, hids ▸ h.below, h.plain, h.stamped, h.distinct, fun p hp => ?_⟩
  rcases List.mem_append.mp hp with hold | hnew
  · exact h.pending p hold
  · exact nomatch List.mem_singleton.mp hnew

theorem pin (h : e.Intact) (c : Nat) : (e.pin c).Intact := by
  cases he : e.connection c with
  | begun =>
    rw [Engine.pin, he]
    refine h.setConnection c rfl fun p hp => ?_
    cases hp
    exact ⟨rfl, .refl _, h.plain, fun _ hc => absurd hc List.not_mem_nil⟩
  | _ =>
    rw [Engine.pin, he]
    exact h

theorem view (h : e.Intact) (c : Nat) : (idsOf (e.view c)).Nodup ∧ EachRow Record.IsPlain (e.view c) ∧
    (e.view c).map (·.info) = e.tables.map (·.info) := by
  have htables : (idsOf e.tables).Nodup := h.nodup.sublist (List.sublist_append_left _ _)
  cases he : e.connection c with
  | reading p =>
    have hp := h.pending_of_connection he
    rw [Engine.view, he]
    obtain ⟨ids, hids, hperm⟩ := Change.idsOf_applyAll p.since p.base p.changes
    -- The ids it sees are those of its base, which are there still, and those it holds back.
    refine ⟨nodup_of_subperm ?_ h.nodup, Change.eachRow_applyAll hp.base fun change hc => hp.changes change hc,
      p.map_info_view.trans hp.infos⟩
    have hnew : (Change.newIds p.changes).Sublist (e.connections.flatMap fun s => Change.newIds s.noted) :=
      List.sublist_flatten_of_mem (List.mem_map.mpr ⟨_, List.mem_of_getElem? (getElem?_of_reading he), rfl⟩)
    have hbase := (List.subperm_append_right ids).mpr hp.ids
    exact (hperm.subperm.trans hbase).trans ((hids.trans hnew).append_left _).subperm
  | _ =>
    rw [Engine.view, he]
    exact ⟨htables, h.plain, rfl⟩

theorem commitChanges (h : e.Intact) (hplain : ∀ change ∈ changes, change.record.IsPlain)
    (hnodup : (e.ids ++ Change.newIds changes).Nodup) (hbelow : ∀ id ∈ e.ids ++ Change.newIds changes, id < m)
    (hdistinct : ∀ t ∈ Change.applyAll (e.stamp + 1) e.tables changes, t.IsDistinct) :
    Intact { e.commitChanges changes with nextId := m } := by
  obtain ⟨ids, hids, hperm⟩ := Change.idsOf_applyAll (e.stamp + 1) e.tables changes
  have hsub : (e.commitChanges changes).ids.Subperm (e.ids ++ Change.newIds changes) := by
    have hmoved : (e.commitChanges changes).ids.Perm (e.ids ++ ids) := by
      refine (hperm.append_right _).trans ?_
      rw [Engine.ids, List.append_assoc, List.append_assoc]
      exact List.perm_append_comm.append_left _
    exact hmoved.subperm.trans (hids.append_left _).subperm
  refine ⟨nodup_of_subperm hsub hnodup, fun id hid => hbelow id (hsub.subset hid), ?_, ?_, hdistinct, fun p hp => ?_⟩
  · exact Change.eachRow_applyAll h.plain hplain
  · refine Change.eachRow_applyAll (fun t ht r hr => ?_) fun _ _ => Nat.le_refl _
    exact Nat.le_succ_of_le (h.stamped t ht r hr)
  · have hp := h.pending p hp
    exact ⟨hp.infos.trans (Change.map_info_applyAll ..).symm,
      hp.ids.trans ((List.sublist_append_left _ _).subperm.trans hperm.symm.subperm), hp.base, hp.changes⟩

theorem write (h : e.Intact) (hplain : ∀ change ∈ changes, change.record.IsPlain)
    (hnodup : (e.ids ++ Change.newIds changes).Nodup) (hbelow : ∀ id ∈ e.ids ++ Change.newIds changes, id < m)
    (hdistinct : e.view c = e.tables → ∀ t ∈ Change.applyAll (e.stamp + 1) e.tables changes, t.IsDistinct) :
    Intact { e.write c changes with nextId := m } := by
  cases he : e.connection c with
  | reading p =>
    -- Nothing is committed yet: the new ids are among those that are held back.
    have hperm : (e.write c changes).ids.Perm (e.ids ++ Change.newIds changes) := by
      have hmoved := perm_flatMap_set (g := fun s => Change.newIds s.noted) (getElem?_of_reading he)
        (.reading { p with changes := p.changes ++ changes })
      simp only [Connection.noted, Change.newIds_append] at hmoved
      rw [write_reading he, Engine.ids, Engine.ids, List.append_assoc]
      refine List.Perm.append_left _ ((List.perm_append_right_iff (Change.newIds p.changes)).mp (hmoved.trans ?_))
      rw [List.append_assoc]
      exact List.perm_append_comm.append_left _
    refine ⟨hperm.nodup_iff.mpr hnodup, fun id hid => hbelow id (hperm.subset hid), ?_, ?_, ?_, fun q hq => ?_⟩
    · rw [write_reading he]; exact h.plain
    · rw [write_reading he]; exact h.stamped
    · rw [write_reading he]; exact h.distinct
    · rw [write_reading he] at hq ⊢
      rcases List.mem_or_eq_of_mem_set hq with hold | hnew
      · exact h.pending q hold
      · cases hnew
        have hp := h.pending_of_connection he
        refine ⟨hp.infos, hp.ids, hp.base, fun change hc => ?_⟩
        rcases List.mem_append.mp hc with hold | hnew
        · exact hp.changes change hold
        · exact hplain change hnew
  | _ =>
    rw [Engine.write, he]
    exact h.commitChanges hplain hnodup hbelow (hdistinct (by rw [Engine.view, he]))

theorem insert (h : e.Intact) (hi : e.insert c info bs = .ok e') : e'.Intact := by
  obtain ⟨i, t, given, hfind, hg, -, hnone, rfl⟩ := insert_cases hi
  refine h.write ?_ ?_ ?_ fun hview u hu => ?_
  · exact List.forall_mem_singleton.mpr (TableInfo.isPlain_fresh hg _)
  · refine List.nodup_append.mpr ⟨h.nodup, List.nodup_singleton _, fun id hid id' hid' heq => ?_⟩
    obtain rfl := List.mem_singleton.mp hid'
    exact Nat.lt_irrefl _ (heq ▸ h.below id hid)
  · intro id hid
    rcases List.mem_append.mp hid with hold | hnew
    · exact Nat.lt_succ_of_lt (h.below id hold)
    · exact List.mem_singleton.mp hnew ▸ Nat.lt_succ_self _
  · rw [hview] at hfind
    obtain ⟨ht, -⟩ := findTable?_eq_some hfind
    rcases mem_modify hu with hold | ⟨t', ht', rfl⟩
    · exact h.distinct u hold
    · cases ht.symm.trans ht'
      have hmem : t ∈ e.tables := List.mem_of_getElem? ht
      exact (h.distinct t hmem).add (h.plain t hmem) (duplicate?_eq_none.mp hnone).1

theorem changes_of_update (h : e.Intact) (hu : e.update c info assignments wanted = .ok (m, e')) :
    e' = e ∨ ∃ changes, e' = e.write c changes ∧ (∀ change ∈ changes, change.record.IsPlain) ∧
      Change.newIds changes = [] ∧
      (e.view c = e.tables → ∀ t ∈ Change.applyAll (e.stamp + 1) e.tables changes, t.IsDistinct) := by
  obtain ⟨i, t, found, hfind, hw, -, ⟨-, rfl⟩ | ⟨hne, given, hg, hchanges, rfl⟩⟩ := update_cases hu
  · exact .inl rfl
  obtain ⟨tested, htested⟩ := Binding.exists_castAll hw hne
  rw [Binding.applyAll_of_castAll htested] at hw
  obtain rfl := Except.ok.inj hw
  obtain ⟨hnodup, hplain, -⟩ := h.view c
  obtain ⟨ht, -⟩ := findTable?_eq_some hfind
  have hmem : t ∈ e.view c := List.mem_of_getElem? ht
  have hids := nodup_ids hnodup hmem
  refine .inr ⟨_, rfl, ?_, ?_, fun hview u hu => ?_⟩
  · refine List.forall_mem_map.mpr (List.forall_mem_map.mpr fun r hr => ?_)
    exact TableInfo.isPlain_put hg (hplain t hmem r (List.mem_filter.mp hr).1)
  · rw [Change.newIds, List.flatMap_map]
    exact List.flatMap_eq_nil_iff.mpr fun _ _ => rfl
  · rw [hview] at ht hmem
    rw [Change.applyAll_replace] at hu
    rcases mem_modify hu with hold | ⟨t', ht', rfl⟩
    · exact h.distinct u hold
    · cases ht.symm.trans ht'
      refine (Table.IsDistinct.set (h.distinct t hmem) (fun a ha => ?_) fun r hr hhas => ?_).timeless
        (Table.timeless_replaced hids given tested _)
      · obtain ⟨r, hr, rfl⟩ := List.mem_map.mp ha
        exact TableInfo.isPlain_amend hg (h.plain t hmem r hr) tested
      · have hnone := hchanges.distinct r (List.mem_filter.mpr ⟨hr, decide_eq_true hhas⟩)
        rw [Table.replaced hids, Binding.columns_castAll hg] at hnone
        exact (duplicate?_eq_none.mp hnone).1

theorem update (h : e.Intact) (hu : e.update c info assignments wanted = .ok (m, e')) : e'.Intact := by
  obtain rfl | ⟨changes, rfl, hplain, hnew, hdistinct⟩ := h.changes_of_update hu
  · exact h
  · rw [← write_nextId]
    refine h.write hplain ?_ ?_ hdistinct
    · rw [hnew, List.append_nil]
      exact h.nodup
    · rw [hnew, List.append_nil]
      exact h.below

/-- A change of rows that comes first in its transaction can be committed. -/
theorem commit_update (h : e.Intact) (he : e.connection c = .reading ⟨e.stamp, e.tables, []⟩)
    (hu : e.update c info assignments wanted = .ok (m, e')) : (e'.commit c).1 = .ok () := by
  obtain rfl | ⟨changes, rfl, -, -, hdistinct⟩ := h.changes_of_update hu
  · rw [Engine.commit, he]
    rfl
  · have hkeys := keysDistinct_iff.mpr (hdistinct (by rw [Engine.view, he]; rfl))
    have hlt : c < e.connections.length := lt_of_inTransaction (by rw [he]; rfl)
    have hnoted := e.connection_setConnection_self (.reading ⟨e.stamp, e.tables, [] ++ changes⟩) hlt
    rw [write_reading he, Engine.commit, hnoted]
    simp only [List.nil_append]
    split
    · rfl
    · rw [if_pos]
      exact hkeys

theorem commit (h : e.Intact) (c : Nat) : (e.commit c).2.Intact := by
  have hended := h.setConnection c (s := .idle) rfl nofun
  cases he : e.connection c with
  | idle =>
    rw [Engine.commit, he]
    exact h
  | begun =>
    rw [Engine.commit, he]
    exact hended
  | reading p =>
    have hp := h.pending_of_connection he
    rw [Engine.commit, he]
    simp only
    split
    · exact hended
    · split
      · next hkeys =>
        -- The ids that were held back are those of rows from now on.
        have hmoved : ((e.setConnection c .idle).ids ++ Change.newIds p.changes).Perm e.ids := by
          have hperm := perm_flatMap_set (g := fun s => Change.newIds s.noted) (getElem?_of_reading he) .idle
          rw [show Change.newIds Connection.idle.noted = [] from rfl, List.append_nil] at hperm
          rw [Engine.ids, Engine.ids, List.append_assoc]
          exact hperm.append_left _
        refine hended.commitChanges (m := e.nextId) hp.changes (hmoved.nodup_iff.mpr h.nodup)
          (fun id hid => h.below id (hmoved.subset hid)) (keysDistinct_iff.mp hkeys)
      · exact hended

theorem command (h : e.Intact) (c : Nat) (κ : Command) : (e.command c κ).2.Intact := by
  cases κ with
  | begin =>
    rw [Engine.command]
    split
    · exact h
    · exact h.setConnection c rfl fun _ hp => Connection.noConfusion hp
  | commit => exact h.commit c
  | rollback =>
    rw [Engine.command]
    split
    · exact h.setConnection c rfl fun _ hp => Connection.noConfusion hp
    · exact h

end Intact

theorem intact_ofTables {tables : List Table} (h : ∀ t ∈ tables, t.records = []) : (ofTables tables).Intact := by
  have hids : (ofTables tables).ids = [] := by
    rw [ids, idsOf, List.flatMap_eq_nil_iff.mpr fun t ht => by rw [Table.ids, h t ht, List.map_nil]]
    rfl
  have hrows : ∀ P, EachRow P tables := fun P t ht r hr => absurd hr (by rw [h t ht]; exact List.not_mem_nil)
  refine ⟨hids ▸ List.nodup_nil, hids ▸ nofun, hrows _, hrows _, fun t ht => ?_, fun p hp => ?_⟩
  · rw [Table.IsDistinct, h t ht]
    nofun
  · exact nomatch List.mem_singleton.mp hp

end Engine

namespace Database

variable {d d' : Database} {ofFault : Fault → ε}

theorem intact_perform (h : d.engine.Intact) (c : Nat) (op : Operation) : (d.perform c op).2.engine.Intact := by
  have hpin := h.pin c
  cases op with
  | warn w => exact h
  | insert t bs =>
    simp only [perform, reads, if_true, answer]
    cases hi : (d.engine.pin c).insert c t bs with
    | error f => exact hpin
    | ok e' => exact hpin.insert hi
  | update t assignments wanted =>
    simp only [perform, reads, if_true, answer]
    cases hu : (d.engine.pin c).update c t assignments wanted with
    | error f => exact hpin
    | ok r => exact hpin.update hu
  | _ => exact hpin

theorem intact_work (h : d.engine.Intact) (c : Nat) (w : Work ε α) : (d.work c w).2.engine.Intact := by
  induction w generalizing d with
  | finish outcome => exact h
  | perform op next ih => exact ih (d.perform c op).1 (intact_perform h c op)

theorem intact_command (h : d.engine.Intact) (c : Nat) (κ : Command) : (d.command c κ).2.engine.Intact :=
  Engine.Intact.command h c κ

theorem intact_of_command (h : d.engine.Intact) (hc : d.command c κ = (result, d')) : d'.engine.Intact := by
  have hd := intact_command h c κ
  rwa [hc] at hd

theorem intact_workAt (h : d.engine.Intact) (ofFault : Fault → ε) (w : Work ε α) (place : Place) :
    (d.workAt ofFault w place).2.engine.Intact := by
  cases place with
  | shared => exact intact_work h shared w
  | inside k =>
    rw [workAt]
    rcases engine_runIn ofFault d k w with heq | heq
    · rw [heq]
      exact h
    · rw [heq]
      exact intact_work h (connectionOf k) w
  | atomic =>
    exact (whole_runAtomic ofFault d w).preserves (P := (·.engine.Intact)) (fun κ h => intact_command h shared κ)
      (fun h => intact_work h shared w) h

theorem intact_serve (h : d.engine.Intact) (ofFault : Fault → ε) (u : Use ε α) :
    (d.serve ofFault u).2.engine.Intact := by
  have closing : ∀ {k}, u.Closes k → (d.serve ofFault u).2.engine.Intact := by
    intro k hu
    rcases serve_closes ofFault d hu with heq | ⟨κ, heq⟩
    · rw [heq]
      exact h
    · rw [heq]
      exact h.command (connectionOf k) κ
  cases u with
  | commit k => exact closing (.inl rfl)
  | rollback k => exact closing (.inr rfl)
  | work place w => exact intact_workAt h ofFault w place
  | begin =>
    simp only [serve, begin]
    split
    · next hc => exact intact_of_command (d := { d with engine := d.engine.connect.2 }) h.connect hc
    · next hc =>
      have hd := intact_of_command (d := { d with engine := d.engine.connect.2 }) h.connect hc
      exact hd

theorem intact_after (h : d.engine.Intact) (ofFault : Fault → ε) (us : List (Use ε α)) :
    (d.after ofFault us).engine.Intact := by
  induction us generalizing d with
  | nil => exact h
  | cons u us ih => exact ih (intact_serve h ofFault u)

/-- Whatever is asked of a database that began with tables without rows, its engine is intact. -/
theorem intact_reached {tables : List Table} (h : ∀ t ∈ tables, t.records = []) (file : Option String) (schema : String)
    (ofFault : Fault → ε) (us : List (Use ε α)) : ((ofTables file schema tables).after ofFault us).engine.Intact :=
  intact_after (Engine.intact_ofTables h) ofFault us

end Database

end QueryGateway.Store
