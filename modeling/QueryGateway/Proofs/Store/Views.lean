import QueryGateway.Proofs.Execution.Answers
import QueryGateway.Proofs.Store.Breakdowns

namespace QueryGateway.Store
set_option autoImplicit true

namespace Table

/-- The table apart from which commits wrote its rows. -/
def timeless (t : Table) : Table :=
  { t with records := t.records.map fun r => { r with stamp := 0 } }

theorem timeless_add (t : Table) (r : Record) : (t.add r).timeless = t.timeless.add { r with stamp := 0 } := by
  rw [add, timeless, List.map_append]
  rfl

theorem timeless_replace (t : Table) (r : Record) :
    (t.replace r).timeless = t.timeless.replace { r with stamp := 0 } := by
  rw [replace, timeless, List.map_map, timeless, replace, List.map_map]
  congr 1
  apply List.map_congr_left
  intro old _
  simp only [Function.comp_apply]
  split
  · rfl
  · rfl

theorem info_of_timeless {t u : Table} (h : t.timeless = u.timeless) : t.info = u.info := by
  have hinfo := congrArg Table.info h
  exact hinfo

theorem mem_timeless {t : Table} (h : r ∈ t.timeless.records) :
    ∃ r' ∈ t.records, r'.id = r.id ∧ r'.cells = r.cells := by
  obtain ⟨r', hr', rfl⟩ := List.mem_map.mp h
  exact ⟨r', hr', rfl, rfl⟩

end Table

namespace Change

theorem map_modify (f : α → β) {g : α → α} {g' : β → β} (h : ∀ a, f (g a) = g' (f a)) (l : List α) (i : Nat) :
    (l.modify i g).map f = (l.map f).modify i g' := by
  apply List.ext_getElem?
  intro j
  rw [List.getElem?_map, List.getElem?_modify, List.getElem?_modify, List.getElem?_map]
  cases l[j]? with
  | none => rfl
  | some a =>
    simp only [Option.map_eq_map, Option.map_some]
    split
    · rw [h]
    · rfl

theorem timeless_apply (stamp : Nat) (tables : List Table) (change : Change) :
    (apply stamp tables change).map Table.timeless = apply 0 (tables.map Table.timeless) change := by
  cases change with
  | add i r => exact map_modify Table.timeless (fun t => t.timeless_add { r with stamp }) tables i
  | replace i r => exact map_modify Table.timeless (fun t => t.timeless_replace { r with stamp }) tables i

/-- The same changes make the same of tables, whenever they are committed. -/
theorem timeless_applyAll (stamp : Nat) (tables : List Table) (changes : List Change) :
    (applyAll stamp tables changes).map Table.timeless = applyAll 0 (tables.map Table.timeless) changes := by
  induction changes generalizing tables with
  | nil => rfl
  | cons change changes ih =>
    rw [applyAll, applyAll, List.foldl_cons, List.foldl_cons, ← timeless_apply stamp]
    exact ih _

theorem applyAll_append (stamp : Nat) (tables : List Table) (changes more : List Change) :
    applyAll stamp tables (changes ++ more) = applyAll stamp (applyAll stamp tables changes) more :=
  List.foldl_append

end Change

namespace Engine

theorem pin_pin (e : Engine) (c : Nat) : (e.pin c).pin c = e.pin c := by
  have kept : e.pin c = e → (e.pin c).pin c = e.pin c := fun h => congrArg (pin · c) h
  cases he : e.connection c with
  | idle => exact kept (by rw [pin, he])
  | reading p => exact kept (by rw [pin, he])
  | begun =>
    obtain ⟨p, -, hp, -⟩ := pin_eq (e := e) (c := c) (by rw [he]; rfl)
    rw [pin, hp]

theorem view_write (e : Engine) (c : Nat) (changes : List Change) :
    ∃ stamp, (e.write c changes).view c = Change.applyAll stamp (e.view c) changes := by
  cases he : e.connection c with
  | idle =>
    refine ⟨e.stamp + 1, ?_⟩
    have hw : e.write c changes = e.commitChanges changes := by rw [write, he]
    have hc : (e.commitChanges changes).connection c = .idle := he
    rw [hw, view, hc, view, he]
    rfl
  | begun =>
    refine ⟨e.stamp + 1, ?_⟩
    have hw : e.write c changes = e.commitChanges changes := by rw [write, he]
    have hc : (e.commitChanges changes).connection c = .begun := he
    rw [hw, view, hc, view, he]
    rfl
  | reading p =>
    refine ⟨p.since, ?_⟩
    have hlt : c < e.connections.length := lt_of_inTransaction (by rw [he]; rfl)
    rw [write_reading he, view, connection_setConnection_self e _ hlt, view, he]
    exact Change.applyAll_append ..

end Engine

/-- A table that is found under a name comes first among those that answer to it. -/
structure Placed (schema n : String) (front : List Table) (t : TableInfo) : Prop where
  this : (t.schema == schema && Text.sameLetters t.name n) = true
  before : ∀ u ∈ front, (u.info.schema == schema && Text.sameLetters u.info.name n) = false

namespace Placed

variable {front back : List Table} {t : Table} {d : Database}

theorem finds (h : Placed schema n front t.info) (back : List Table) :
    Engine.findTable? (front ++ t :: back) t.info.schema t.info.name = some (front.length, t) := by
  refine Engine.findTable?_append ?_ back
  rintro u hu ⟨hschema, hname⟩
  have hnot := h.before u hu
  rw [hschema, hname, h.this] at hnot
  cases hnot

theorem sees (h : Placed d.schema n front t.info) (hview : d.engine.view c = front ++ t :: back) : d.Sees c n t := by
  rw [Database.Sees, hview]
  exact List.find?_eq_some_iff_append.mpr ⟨h.this, front, back, rfl, fun u hu => by rw [h.before u hu]; rfl⟩

theorem timeless {t : TableInfo} (h : Placed schema n front t)
    (heq : front'.map Table.timeless = front.map Table.timeless) :
    Placed schema n front' t := by
  refine ⟨h.this, fun u hu => ?_⟩
  have hmem : u.timeless ∈ front.map Table.timeless := heq ▸ List.mem_map_of_mem hu
  obtain ⟨u', hu', hsame⟩ := List.mem_map.mp hmem
  exact Table.info_of_timeless hsame ▸ h.before u' hu'

end Placed

namespace Database

variable {ofFault : Fault → ε} {d d' d₁ d₂ : Database} {w : Work ε α} {t : Table}

theorem Sees.placed (h : d.Sees c n t) :
    ∃ front back, d.engine.view c = front ++ t :: back ∧ Placed d.schema n front t.info := by
  obtain ⟨hthis, front, back, heq, hfront⟩ := List.find?_eq_some_iff_append.mp h
  exact ⟨front, back, heq, hthis, fun u hu => (Bool.not_eq_true' _).mp (hfront u hu)⟩

theorem work_bind (d : Database) (c : Nat) (w : Work ε α) (f : α → Work ε β) : d.work c (w >>= f) =
    match d.work c w with
    | (.done a, d₁) => d₁.work c (f a)
    | (.failed e, d₁) => (.failed e, d₁)
    | (.broken, d₁) => (.broken, d₁) := by
  induction w generalizing d with
  | finish outcome => cases outcome <;> rfl
  | perform op next ih => exact ih (d.perform c op).1 (d.perform c op).2

theorem work_bind_done {f : α → Work ε β} (h : d.work c (w >>= f) = (.done b, d')) :
    ∃ a d₁, d.work c w = (.done a, d₁) ∧ d₁.work c (f a) = (.done b, d') := by
  rw [work_bind] at h
  split at h
  · next a d₁ hw => exact ⟨a, d₁, hw, h⟩
  · exact nomatch (Prod.mk.inj h).1
  · exact nomatch (Prod.mk.inj h).1

theorem work_bind_of_done (h : d.work c w = (.done a, d₁)) (f : α → Work ε β) :
    d.work c (w >>= f) = d₁.work c (f a) := by
  rw [work_bind, h]

theorem work_mapError (d : Database) (c : Nat) (w : Work ε α) (g : ε → ε') : d.work c (w.mapError g) =
    match d.work c w with
    | (.done a, d₁) => (.done a, d₁)
    | (.failed e, d₁) => (.failed (g e), d₁)
    | (.broken, d₁) => (.broken, d₁) := by
  induction w generalizing d with
  | finish outcome => cases outcome <;> rfl
  | perform op next ih => exact ih (d.perform c op).1 (d.perform c op).2

theorem work_mapError_done {g : ε → ε'} (h : d.work c (w.mapError g) = (.done a, d')) :
    d.work c w = (.done a, d') := by
  rw [work_mapError] at h
  split at h
  · next hw =>
    cases h
    exact hw
  · exact nomatch (Prod.mk.inj h).1
  · exact nomatch (Prod.mk.inj h).1

theorem work_mapError_of_done (h : d.work c w = (.done a, d')) (g : ε → ε') :
    d.work c (w.mapError g) = (.done a, d') := by
  rw [work_mapError, h]

theorem work_mapError_of_failed (h : d.work c w = (.failed e, d')) (g : ε → ε') :
    d.work c (w.mapError g) = (.failed (g e), d') := by
  rw [work_mapError, h]

theorem work_lift_done {r : Except ε α} (h : d.work c (liftM r : Work ε α) = (.done a, d')) : r = .ok a ∧ d' = d := by
  cases r with
  | ok a' =>
    obtain ⟨ha, rfl⟩ := Prod.mk.inj h
    cases ha
    exact ⟨rfl, rfl⟩
  | error e => exact nomatch (Prod.mk.inj h).1

theorem work_ask_done {op : Operation} {a : op.Answer} (h : d.work c (Work.ask op) = (.done a, d')) :
    d.perform c op = (.ok a, d') := by
  rw [Work.ask, work] at h
  rcases hp : d.perform c op with ⟨result, d₁⟩
  rw [hp] at h
  cases result with
  | ok a' =>
    obtain ⟨ha, rfl⟩ := Prod.mk.inj h
    cases ha
    rfl
  | error f => cases (Prod.mk.inj h).1

theorem work_ask_of_ok {op : Operation} {a : op.Answer} (h : d.perform c op = (.ok a, d')) :
    d.work c (Work.ask op) = (.done a, d') := by
  rw [Work.ask, work, h]
  rfl

theorem work_ask_of_error {op : Operation} (h : d.perform c op = (.error f, d')) :
    d.work c (Work.ask op) = (.failed f, d') := by
  rw [Work.ask, work, h]
  rfl

theorem schema_work (d : Database) (c : Nat) (w : Work ε α) : (d.work c w).2.schema = d.schema := by
  induction w generalizing d with
  | finish outcome => rfl
  | perform op next ih => exact ih (d.perform c op).1 (d.perform c op).2

theorem engine_perform (d : Database) (c : Nat) (op : Operation) (hr : reads op = true) (hop : op.writes = false) :
    (d.perform c op).2.engine = d.engine.pin c := by
  cases op with
  | insert => cases hop
  | update => cases hop
  | warn => cases hr
  | _ => rfl

end Database

deriving instance DecidableEq for Outcome

namespace Place

def connection : Place → Nat
  | shared => Database.shared
  | atomic => Database.shared
  | inside k => Database.connectionOf k

def Accepts (d : Database) : Place → Prop
  | shared => True
  | atomic => d.engine.connection Database.shared = .idle
  | inside k => d.phase k = .active

/-- The database as the work finds it. -/
def enter (d : Database) : Place → Database
  | atomic => (d.command Database.shared .begin).2
  | _ => d

end Place

namespace Database

variable {ofFault : Fault → ε} {d d' d₁ d₂ : Database} {w : Work ε α} {place : Place}

theorem schema_enter (d : Database) (place : Place) : (place.enter d).schema = d.schema := by
  cases place <;> rfl

theorem connection_enter_atomic (hd : Orderly d) (hidle : d.engine.connection shared = .idle) :
    (Place.enter d .atomic).engine.connection shared = .begun := by
  rw [Place.enter, command_begin hidle]
  exact Engine.connection_setConnection_self _ _ hd.shared_lt

theorem view_enter (hd : Orderly d) (ha : place.Accepts d) :
    (place.enter d).engine.view place.connection = d.engine.view place.connection := by
  cases place with
  | shared => rfl
  | inside k => rfl
  | atomic =>
    have hidle : d.engine.connection shared = .idle := ha
    rw [Place.connection, Engine.view, connection_enter_atomic hd hidle, Engine.view, hidle, Place.enter,
      command_begin hidle]
    rfl

theorem pin_enter_atomic (hd : Orderly d) (hidle : d.engine.connection shared = .idle) :
    (Place.enter d .atomic).engine.pin shared =
      d.engine.setConnection shared (.reading ⟨d.engine.stamp, d.engine.tables, []⟩) := by
  rw [Engine.pin, connection_enter_atomic hd hidle, Place.enter, command_begin hidle]
  exact Engine.setConnection_setConnection ..

theorem work_begun (hs : d.engine.connection c = .begun) (w : Work ε α) :
    (d.work c w).2.engine.connection c = .begun ∨
      ∃ p, (d.work c w).2.engine.connection c = .reading p ∧ p.base = d.engine.tables := by
  -- By induction on the work, from any point of it on: until now nothing has been committed.
  have go : ∀ {d₁ : Database}, d₁.engine.committed = d.engine.committed →
      (d₁.engine.connection c = .begun ∨ ∃ p, d₁.engine.connection c = .reading p ∧ p.base = d.engine.tables) →
      ((d₁.work c w).2.engine.connection c = .begun ∨
        ∃ p, (d₁.work c w).2.engine.connection c = .reading p ∧ p.base = d.engine.tables) := by
    induction w with
    | finish outcome => exact fun _ h => h
    | perform op next ih =>
      intro d₁ hcommitted h
      have hin : (d₁.engine.connection c).inTransaction = true := by
        rcases h with h | ⟨p, h, -⟩
        · rw [h]; rfl
        · rw [h]; rfl
      obtain ⟨hkept, s, hs', hconnections⟩ := perform_inside hin op
      have hconnection : (d₁.perform c op).2.engine.connection c = s := by
        rw [Engine.connection, hconnections, List.getElem?_set_self (Engine.lt_of_inTransaction hin), Option.getD_some]
      refine ih (d₁.perform c op).1 (hkept.trans hcommitted) ?_
      cases s with
      | idle => cases hs'.inTransaction hin
      | begun => exact .inl hconnection
      | reading p =>
        refine .inr ⟨p, hconnection, ?_⟩
        rcases hs'.base with ⟨p', hp', hbase, -⟩ | ⟨hbase, -⟩
        · rcases h with h | ⟨q, hq, hqbase⟩
          · cases h.symm.trans hp'
          · cases hq.symm.trans hp'
            exact hbase.trans hqbase
        · exact hbase.trans (congrArg Committed.tables hcommitted)
  exact go rfl (.inl hs)

/-- What a commit makes visible is what its connection has seen. -/
theorem view_commit {e : Engine} (hin : (e.connection c).inTransaction = true)
    (hbase : ∀ p, e.connection c = .reading p → p.base = e.tables) (hok : (e.commit c).1 = .ok ()) :
    ((e.commit c).2.view c).map Table.timeless = (e.view c).map Table.timeless := by
  have hidle : (e.commit c).2.connection c = .idle := Engine.connection_ended (κ := .commit) hin nofun
  have htables : (e.commit c).2.tables = (e.committed.apply (e.connection c).noted).tables :=
    congrArg Committed.tables (Engine.committed_commit hin hok)
  rw [Engine.view, hidle, Engine.view]
  cases he : e.connection c with
  | idle =>
    rw [he] at hin
    cases hin
  | begun =>
    rw [he] at htables
    exact congrArg (List.map Table.timeless) htables
  | reading p =>
    rw [he] at htables
    change (e.commit c).2.tables = (e.committed.apply p.changes).tables at htables
    simp only [htables, Committed.apply, Pending.view, hbase p he]
    by_cases hnone : p.changes.isEmpty = true
    · rw [if_pos hnone, List.isEmpty_iff.mp hnone]
      rfl
    · rw [if_neg hnone, Change.timeless_applyAll, Change.timeless_applyAll]
      rfl

/-- Work that succeeds: where it was done it would be accepted again, and what is seen there is what the work saw at its
end. -/
theorem workAt_done (hd : Orderly d) (h : d.workAt ofFault w place = (.done a, d')) :
    place.Accepts d ∧ place.Accepts d' ∧ d'.schema = d.schema ∧
      ∃ d₂, (place.enter d).work place.connection w = (.done a, d₂) ∧
        (d'.engine.view place.connection).map Table.timeless =
          (d₂.engine.view place.connection).map Table.timeless := by
  cases place with
  | shared =>
    have hschema := d.schema_work shared w
    change d.work shared w = _ at h
    rw [h] at hschema
    exact ⟨trivial, trivial, hschema, d', h, rfl⟩
  | inside k =>
    have hin := inside_runIn ofFault d k w
    change d.runIn k ofFault w = _ at h
    rw [h] at hin
    cases hin with
    | kept hp hw ho =>
      have hschema := d.schema_work (connectionOf k) w
      rw [hw] at hschema
      exact ⟨hp, (phase_congr (phases_of_work hw) k).trans hp, hschema, d', hw, rfl⟩
  | atomic =>
    have hwhole := whole_runAtomic ofFault d w
    change d.runAtomic ofFault w = _ at h
    rw [h] at hwhole
    cases hwhole with
    | @committed _ d₁ d₂ _ hb hw hc =>
      obtain ⟨hidle, hin, -⟩ := begin_accepted hd.shared_lt hb
      have hd₁ : d₁ = Place.enter d .atomic := (congrArg Prod.snd hb).symm
      have hbegun : d₁.engine.connection shared = .begun := hd₁ ▸ connection_enter_atomic hd hidle
      have hin₂ := d₁.inTransaction_work shared w shared
      have hbase := work_begun hbegun w
      have hcommitted := committed_work hin w
      have hschema := d₁.schema_work shared w
      rw [hw] at hin₂ hbase hcommitted hschema
      obtain ⟨hok, rfl⟩ := Prod.mk.inj hc
      have hidle' := Engine.connection_ended (κ := .commit) (hin₂.trans hin) nofun
      refine ⟨hidle, hidle', hschema.trans (hd₁ ▸ d.schema_enter .atomic), d₂, hd₁ ▸ hw, ?_⟩
      refine view_commit (hin₂.trans hin) (fun p hp => ?_) hok
      rcases hbase with hb | ⟨q, hq, hqbase⟩
      · exact nomatch hb.symm.trans hp
      · cases hq.symm.trans hp
        exact hqbase.trans (congrArg Committed.tables hcommitted).symm

theorem workAt_of_done (ofFault : Fault → ε) (ha : place.Accepts d)
    (h : (place.enter d).work place.connection w = (.done a, d₂))
    (hc : place = .atomic → (d₂.engine.commit shared).1 = .ok ()) : ∃ d', d.workAt ofFault w place = (.done a, d') := by
  cases place with
  | shared => exact ⟨d₂, h⟩
  | inside k =>
    have hp : d.phase k = .active := ha
    change d.work (connectionOf k) w = _ at h
    refine ⟨d₂, ?_⟩
    rw [workAt, runIn, hp, h]
  | atomic =>
    have hidle : d.engine.connection shared = .idle := ha
    have hb : d.command shared .begin = (.ok (), Place.enter d .atomic) := by
      rw [Place.enter, command_begin hidle]
    have hcommit : d₂.command shared .commit = (.ok (), (d₂.command shared .commit).2) :=
      Prod.ext (hc rfl) rfl
    refine ⟨(d₂.command shared .commit).2, ?_⟩
    rw [workAt, runAtomic, hb]
    change (match (Place.enter d .atomic).work shared w with
      | (.done a, d) => _
      | (.failed e, d) => _
      | (.broken, d) => _) = _
    change (Place.enter d .atomic).work shared w = _ at h
    rw [h]
    simp only
    rw [hcommit]

theorem workAt_of_failed (ofFault : Fault → ε) (ha : place.Accepts d)
    (h : (place.enter d).work place.connection w = (.failed e, d₂)) :
    ∃ d', d.workAt ofFault w place = (.failed e, d') := by
  cases place with
  | shared => exact ⟨d₂, h⟩
  | inside k =>
    have hp : d.phase k = .active := ha
    change d.work (connectionOf k) w = _ at h
    refine ⟨d₂.setPhase k .spoiled, ?_⟩
    rw [workAt, runIn, hp, h]
  | atomic =>
    have hidle : d.engine.connection shared = .idle := ha
    have hb : d.command shared .begin = (.ok (), Place.enter d .atomic) := by
      rw [Place.enter, command_begin hidle]
    change (Place.enter d .atomic).work shared w = _ at h
    refine ⟨(d₂.command shared .rollback).2, ?_⟩
    rw [workAt, runAtomic, hb]
    simp only
    rw [h]

theorem work_total (hw : w.Total) (d : Database) (c : Nat) : (d.work c w).1 ≠ .broken := by
  induction hw generalizing d with
  | done a => nofun
  | failed e => nofun
  | perform _ _ ih => exact ih _ _

/-- Work that is done as a whole and never breaks down succeeds, or fails and leaves all that is seen as it was. -/
theorem runAtomic_total (hd : Orderly d) (hw : w.Total) (ofFault : Fault → ε) :
    (∃ a, (d.runAtomic ofFault w).1 = .done a) ∨ (∃ e, (d.runAtomic ofFault w).1 = .failed e) ∧
      (d.runAtomic ofFault w).2.engine.committed = d.engine.committed ∧
      (d.runAtomic ofFault w).2.engine.view shared = d.engine.view shared := by
  by_cases hidle : d.engine.connection shared = .idle
  · have hwhole := whole_runAtomic ofFault d w
    obtain ⟨hopen, hcommitted⟩ := hwhole.leaves hd.shared_lt hidle
    have hends : (d.runAtomic ofFault w).1 ≠ .broken := by
      generalize (d.runAtomic ofFault w).1 = outcome at hwhole ⊢
      generalize (d.runAtomic ofFault w).2 = d' at hwhole
      cases hwhole with
      | @left d₁ _ hb hbroken => exact absurd (congrArg Prod.fst hbroken) (work_total hw d₁ shared)
      | _ => nofun
    cases hout : (d.runAtomic ofFault w).1 with
    | done a => exact .inl ⟨a, rfl⟩
    | broken => exact absurd hout hends
    | failed e =>
      have hkept := hcommitted (by rw [hout]; nofun)
      have hfree := ((d.runAtomic ofFault w).2.engine.connection_idle_iff shared).mpr
        (eq_false_of_ne_true (mt hopen.mp hends))
      refine .inr ⟨⟨e, rfl⟩, hkept, ?_⟩
      rw [Engine.view, hfree, Engine.view, hidle]
      exact congrArg Committed.tables hkept
  · have hin := eq_true_of_ne_false (mt (d.engine.connection_idle_iff shared).mpr hidle)
    rw [runAtomic_refused hin]
    exact .inr ⟨⟨_, rfl⟩, rfl, rfl⟩

theorem workAt_reading (hd : Orderly d) (ha : place.Accepts d)
    (h : ∃ d₂, (place.enter d).work place.connection w = (.done a, d₂) ∧
      d₂.engine = (place.enter d).engine.pin place.connection) :
    ∃ d', d.workAt ofFault w place = (.done a, d') ∧
      (d'.engine.view place.connection).map Table.timeless = (d.engine.view place.connection).map Table.timeless := by
  obtain ⟨d₂, hw, hengine⟩ := h
  have hview : d₂.engine.view place.connection = d.engine.view place.connection := by
    rw [hengine, Engine.view_pin, view_enter hd ha]
  have hcommit : place = .atomic → (d₂.engine.commit shared).1 = .ok () := by
    rintro rfl
    have hidle : d.engine.connection shared = .idle := ha
    have hreading : d₂.engine.connection shared = .reading ⟨d.engine.stamp, d.engine.tables, []⟩ := by
      rw [hengine, Place.connection, pin_enter_atomic hd hidle]
      exact Engine.connection_setConnection_self _ _ hd.shared_lt
    rw [Engine.commit, hreading]
    rfl
  obtain ⟨d', hd'⟩ := workAt_of_done ofFault ha hw hcommit
  obtain ⟨-, -, -, d₂', hw', hsame⟩ := workAt_done hd hd'
  obtain ⟨-, rfl⟩ := Prod.mk.inj (hw'.symm.trans hw)
  exact ⟨d', hd', hview ▸ hsame⟩

end Database

end QueryGateway.Store
