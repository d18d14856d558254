import QueryGateway.Proofs.Store.Units

namespace QueryGateway.Store
set_option autoImplicit true

/-- The tables that everybody sees, and how many commits made them. -/
structure Committed where
  tables : List Table
  stamp : Nat

namespace Committed

/-- A commit. Without changes it leaves no trace. -/
def apply (s : Committed) (changes : List Change) : Committed :=
  if changes.isEmpty then s else ⟨Change.applyAll (s.stamp + 1) s.tables changes, s.stamp + 1⟩

def replay (s : Committed) (effects : List (List Change)) : Committed :=
  effects.foldl apply s

theorem replay_append (s : Committed) (es fs : List (List Change)) :
    s.replay (es ++ fs) = (s.replay es).replay fs :=
  List.foldl_append

end Committed

namespace Connection

def noted : Connection → List Change
  | reading p => p.changes
  | _ => []

/-- How a connection goes on within a transaction. -/
inductive GoesOn (s : Committed) : Connection → Connection → Prop where
  | stay : GoesOn s c c
  | pin : GoesOn s .begun (.reading ⟨s.stamp, s.tables, changes⟩)
  | note : GoesOn s (.reading p) (.reading { p with changes := p.changes ++ changes })

namespace GoesOn

theorem noted (h : GoesOn s c c') : ∃ changes, c'.noted = c.noted ++ changes := by
  cases h with
  | stay => exact ⟨[], (List.append_nil _).symm⟩
  | pin => exact ⟨_, rfl⟩
  | note => exact ⟨_, rfl⟩

theorem more (h : GoesOn s c (.reading p)) (changes : List Change) :
    GoesOn s c (.reading { p with changes := p.changes ++ changes }) := by
  cases h with
  | stay => exact .note
  | pin => exact .pin
  | note => rw [List.append_assoc]; exact .note

theorem inTransaction (h : GoesOn s c c') (hc : c.inTransaction = true) : c'.inTransaction = true := by
  cases h with
  | stay => exact hc
  | pin => rfl
  | note => rfl

theorem base (h : GoesOn s c (.reading p')) :
    (∃ p, c = .reading p ∧ p'.base = p.base ∧ p'.since = p.since) ∨ p'.base = s.tables ∧ p'.since = s.stamp := by
  cases h with
  | stay => exact .inl ⟨p', rfl, rfl, rfl⟩
  | pin => exact .inr ⟨rfl, rfl⟩
  | note => exact .inl ⟨_, rfl, rfl, rfl⟩

end GoesOn

end Connection

namespace Engine

def committed (e : Engine) : Committed :=
  ⟨e.tables, e.stamp⟩

@[simp] theorem committed_setConnection (e : Engine) (c : Nat) (s : Connection) :
    (e.setConnection c s).committed = e.committed := rfl

theorem connection_setConnection_self (e : Engine) (s : Connection) (hc : c < e.connections.length) :
    (e.setConnection c s).connection c = s := by
  simp only [connection, setConnection, List.getElem?_set_self hc, Option.getD_some]

theorem setConnection_setConnection (e : Engine) (c : Nat) (s s' : Connection) :
    (e.setConnection c s).setConnection c s' = e.setConnection c s' := by
  simp only [setConnection, List.set_set]

theorem lt_of_inTransaction {e : Engine} (h : (e.connection c).inTransaction = true) : c < e.connections.length := by
  apply Nat.lt_of_not_ge
  intro hc
  simp only [connection, List.getElem?_eq_none hc, Option.getD_none, Connection.inTransaction] at h
  cases h

theorem setConnection_connection {e : Engine} (h : (e.connection c).inTransaction = true) :
    e.setConnection c (e.connection c) = e := by
  have hc := lt_of_inTransaction h
  simp only [setConnection, connection, List.getElem?_eq_getElem hc, Option.getD_some, List.set_getElem_self]

theorem pin_eq {e : Engine} (h : (e.connection c).inTransaction = true) :
    ∃ p, e.pin c = e.setConnection c (.reading p) ∧ (e.pin c).connection c = .reading p ∧
      Connection.GoesOn e.committed (e.connection c) (.reading p) := by
  have hc := lt_of_inTransaction h
  cases he : e.connection c with
  | idle =>
    rw [he] at h
    cases h
  | begun =>
    have hp : e.pin c = e.setConnection c (.reading ⟨e.stamp, e.tables, []⟩) := by
      simp only [pin, he]
    refine ⟨_, hp, ?_, .pin⟩
    rw [hp]
    exact connection_setConnection_self e _ hc
  | reading p =>
    have hp : e.pin c = e := by simp only [pin, he]
    refine ⟨p, ?_, by rw [hp, he], .stay⟩
    rw [hp, ← he, setConnection_connection h]

theorem write_reading {e : Engine} (he : e.connection c = .reading p) (changes : List Change) :
    e.write c changes = e.setConnection c (.reading { p with changes := p.changes ++ changes }) := by
  simp only [write, he]

theorem insert_ok {e e' : Engine} (he : e.connection c = .reading p) (h : e.insert c info bs = .ok e') :
    ∃ changes n, e' = { e.setConnection c (.reading { p with changes := p.changes ++ changes }) with nextId := n } := by
  unfold insert at h
  split at h
  · cases h
  · next i t hf =>
    cases hg : Binding.castAll bs with
    | error f => simp only [hg, bind, Except.bind] at h; cases h
    | ok given =>
      simp only [hg, bind, Except.bind] at h
      split at h
      · cases h
      · cases h
        exact ⟨_, _, congrArg (fun e' : Engine => { e' with nextId := e.nextId + 1 }) (write_reading he _)⟩

theorem update_ok {e e' : Engine} (he : e.connection c = .reading p)
    (h : e.update c info assignments wanted = .ok (n, e')) :
    ∃ changes, e' = e.setConnection c (.reading { p with changes := p.changes ++ changes }) := by
  have keep : e = e.setConnection c (.reading { p with changes := p.changes ++ [] }) := by
    rw [List.append_nil, ← he]
    exact (setConnection_connection (by rw [he]; rfl)).symm
  unfold update at h
  split at h
  · cases h
  · next i t hf =>
    cases hw : Binding.applyAll t.info wanted t.records with
    | error f => simp only [hw, bind, Except.bind] at h; cases h
    | ok found =>
      simp only [hw, bind, Except.bind] at h
      split at h
      · cases h
        exact ⟨[], keep⟩
      · cases hg : Binding.castAll assignments with
        | error f => simp only [hg] at h; cases h
        | ok given =>
          simp only [hg] at h
          split at h
          · cases h
          · split at h
            · cases h
            · split at h
              · cases h
              · cases h
                exact ⟨_, write_reading he _⟩

theorem begin_idle {e : Engine} (h : e.connection c = .idle) :
    e.command c .begin = (.ok (), e.setConnection c .begun) := by
  simp only [command, h, Connection.inTransaction, Bool.false_eq_true, ↓reduceIte]

theorem rollback_inside {e : Engine} (h : (e.connection c).inTransaction = true) :
    e.command c .rollback = (.ok (), e.setConnection c .idle) := by
  simp only [command, h, ↓reduceIte]

theorem committed_rollback (e : Engine) (c : Nat) : (e.command c .rollback).2.committed = e.committed := by
  simp only [command]
  split
  · rfl
  · rfl

theorem connections_rollback (e : Engine) (c : Nat) :
    (e.command c .rollback).2.connections = e.connections ∨
      (e.command c .rollback).2.connections = e.connections.set c .idle := by
  simp only [command]
  split
  · exact .inr rfl
  · exact .inl rfl

/-- A commit that succeeds makes what was noted visible, all of it at once. -/
theorem committed_commit {e : Engine} (h : (e.connection c).inTransaction = true) (hr : (e.commit c).1 = .ok ()) :
    (e.commit c).2.committed = e.committed.apply (e.connection c).noted := by
  unfold commit at hr ⊢
  cases he : e.connection c with
  | idle =>
    rw [he] at h
    cases h
  | begun => rfl
  | reading p =>
    simp only [he, Connection.noted, Committed.apply] at hr ⊢
    by_cases hp : p.changes.isEmpty = true
    · simp only [hp, ↓reduceIte, committed_setConnection]
    · simp only [hp, Bool.false_eq_true, ↓reduceIte] at hr ⊢
      split at hr
      · next hk =>
        rw [if_pos hk]
        rfl
      · cases hr

theorem committed_commit_error {e : Engine} (hr : (e.commit c).1 = .error f) :
    (e.commit c).2.committed = e.committed := by
  unfold commit at hr ⊢
  split
  · rfl
  · rfl
  · next p he =>
    simp only [he] at hr
    split at hr
    · cases hr
    · next hp =>
      split at hr
      · cases hr
      · next hk => simp only [hp, hk, Bool.false_eq_true, ↓reduceIte, committed_setConnection]

theorem connections_commit {e : Engine} (h : (e.connection c).inTransaction = true) :
    (e.commit c).2.connections = e.connections.set c .idle := by
  unfold commit
  split
  · next he =>
    rw [he] at h
    cases h
  · rfl
  · simp only
    split
    · rfl
    · split
      · rfl
      · rfl

theorem commit_visible (e : Engine) (c : Nat) : (e.commit c).2.committed = e.committed ∨
    ∃ p, e.connection c = .reading p ∧ (e.commit c).2.committed = e.committed.apply p.changes := by
  cases he : e.connection c with
  | idle =>
    unfold commit
    rw [he]
    exact .inl rfl
  | begun =>
    unfold commit
    rw [he]
    exact .inl rfl
  | reading p =>
    cases hr : (e.commit c).1 with
    | error f => exact .inl (committed_commit_error hr)
    | ok u =>
      have hv := committed_commit (c := c) (by rw [he]; rfl) hr
      rw [he] at hv
      exact .inr ⟨p, rfl, hv⟩

theorem connections_commit_or (e : Engine) (c : Nat) : (e.commit c).2.connections = e.connections ∨
    (e.commit c).2.connections = e.connections.set c .idle := by
  cases he : (e.connection c).inTransaction with
  | true => exact .inr (connections_commit he)
  | false =>
    cases hc : e.connection c with
    | idle =>
      unfold commit
      rw [hc]
      exact .inl rfl
    | begun =>
      rw [hc] at he
      cases he
    | reading p =>
      rw [hc] at he
      cases he

end Engine

namespace Database

theorem answer_reading (schema : String) {e : Engine} (he : e.connection c = .reading p) (op : Operation) :
    ∃ changes n, (answer schema e c op).2 =
      { e.setConnection c (.reading { p with changes := p.changes ++ changes }) with nextId := n } := by
  have keep : e = { e.setConnection c (.reading { p with changes := p.changes ++ [] }) with nextId := e.nextId } := by
    rw [List.append_nil, ← he, Engine.setConnection_connection (by rw [he]; rfl)]
  cases op with
  | probe => exact ⟨[], _, keep⟩
  | describe table => exact ⟨[], _, keep⟩
  | select t s => exact ⟨[], _, keep⟩
  | contains t wanted => exact ⟨[], _, keep⟩
  | warn w => exact ⟨[], _, keep⟩
  | insert t bs =>
    cases hi : e.insert c t bs with
    | error f => exact ⟨[], _, by simp only [answer, hi]; exact keep⟩
    | ok e' =>
      obtain ⟨changes, n, he'⟩ := Engine.insert_ok he hi
      exact ⟨changes, n, by simp only [answer, hi]; exact he'⟩
  | update t assignments wanted =>
    cases hu : e.update c t assignments wanted with
    | error f => exact ⟨[], _, by simp only [answer, hu]; exact keep⟩
    | ok r =>
      obtain ⟨changes, he'⟩ := Engine.update_ok he hu
      exact ⟨changes, e.nextId, by simp only [answer, hu]; rw [he']; rfl⟩

@[simp] theorem phases_perform (d : Database) (c : Nat) (op : Operation) : (d.perform c op).2.phases = d.phases := rfl

/-- An operation inside a transaction moves its own connection only. -/
theorem perform_inside {d : Database} (h : (d.engine.connection c).inTransaction = true) (op : Operation) :
    (d.perform c op).2.engine.committed = d.engine.committed ∧
      ∃ s, Connection.GoesOn d.engine.committed (d.engine.connection c) s ∧
        (d.perform c op).2.engine.connections = d.engine.connections.set c s := by
  cases hr : reads op with
  | false =>
    cases op with
    | warn w =>
      refine ⟨rfl, _, .stay, ?_⟩
      exact (congrArg Engine.connections (Engine.setConnection_connection h)).symm
    | _ => cases hr
  | true =>
    obtain ⟨p, hp, hc, hg⟩ := Engine.pin_eq h
    obtain ⟨changes, n, he⟩ := answer_reading d.schema hc op
    have hd : (d.perform c op).2.engine =
        { d.engine.setConnection c (.reading { p with changes := p.changes ++ changes }) with nextId := n } := by
      have ha : (d.perform c op).2.engine = (answer d.schema (d.engine.pin c) c op).2 := by
        simp only [perform, hr, ↓reduceIte, record]
      rw [ha, he, hp, Engine.setConnection_setConnection]
    rw [hd]
    exact ⟨rfl, _, hg.more changes, rfl⟩

theorem perform_idle {d : Database} (h : d.engine.connection c = .idle) (hop : op.writes = false) :
    (d.perform c op).2.engine = d.engine := by
  have hp : d.engine.pin c = d.engine := by simp only [Engine.pin, h]
  cases op with
  | insert => cases hop
  | update => cases hop
  | probe => exact hp
  | describe => exact hp
  | select => exact hp
  | contains => exact hp
  | warn => rfl

theorem work_idle {d : Database} {w : Work ε α} (hw : w.ReadOnly) (hc : d.engine.connection c = .idle) :
    (d.work c w).2.engine = d.engine ∧ (d.work c w).2.phases = d.phases := by
  induction hw generalizing d with
  | done a => exact ⟨rfl, rfl⟩
  | failed e => exact ⟨rfl, rfl⟩
  | @perform op next hop _ ih =>
    have he := perform_idle hc hop
    obtain ⟨h₁, h₂⟩ := ih (d.perform c op).1 (d := (d.perform c op).2) (by rw [he]; exact hc)
    exact ⟨h₁.trans he, h₂.trans (phases_perform d c op)⟩

theorem ping_idle {d : Database} (table : Option String) (hc : d.engine.connection shared = .idle) :
    (d.ping table).2.engine = d.engine ∧ (d.ping table).2.phases = d.phases := by
  obtain ⟨w, hw, hp⟩ : ∃ w : Work Fault Unit, w.ReadOnly ∧ (d.ping table).2 = (d.run w).2 := by
    unfold ping
    extract_lets w
    refine ⟨w, ?_, ?_⟩
    · refine .bind (.ask rfl) fun _ => ?_
      cases table with
      | none => exact .ret _
      | some name => exact .bind (Work.describe_readOnly name) fun _ => .ret _
    · split
      · next hr => rw [hr]
      · next hr => rw [hr]
  rw [hp]
  exact work_idle hw hc

theorem command_begin {d : Database} (h : d.engine.connection c = .idle) : d.command c .begin =
    (.ok (), { d.record c (.command .begin) with engine := d.engine.setConnection c .begun }) := by
  simp only [command, Engine.begin_idle h]

/-- A new transaction has the next number and the next connection. -/
theorem begin_ok (d : Database) : d.begin.1 = .ok d.phases.length ∧ d.begin.2.phases = d.phases ++ [.active] ∧
    d.begin.2.engine.committed = d.engine.committed ∧
    d.begin.2.engine.connections = d.engine.connections ++ [.begun] := by
  have hc : (d.engine.connect.2).connection d.engine.connections.length = .idle := by
    simp only [Engine.connect, Engine.connection, List.getElem?_concat_length, Option.getD_some]
  have hb := command_begin (d := { d with engine := d.engine.connect.2 }) hc
  have hd : d.begin = (.ok d.phases.length,
      { { d with engine := d.engine.connect.2 }.record d.engine.connections.length (.command .begin) with
        engine := d.engine.connect.2.setConnection d.engine.connections.length .begun
        phases := d.phases ++ [.active] }) := by
    unfold begin
    simp only [Engine.connect] at hb ⊢
    rw [hb]
    rfl
  rw [hd]
  refine ⟨rfl, rfl, rfl, ?_⟩
  simp only [Engine.setConnection, Engine.connect, List.set_append_right _ _ (Nat.le_refl _), Nat.sub_self,
    List.set_cons_zero]

/-- The end of a transaction that leaves no trace. -/
structure Undone (d d' : Database) (k : Nat) : Prop where
  phases : d'.phases = d.phases.set k .closed
  committed : d'.engine.committed = d.engine.committed
  connections : d'.engine.connections = d.engine.connections ∨
    d'.engine.connections = d.engine.connections.set (connectionOf k) .idle

theorem undone_command_rollback (d : Database) (k : Nat) :
    Undone d ((d.setPhase k .closed).command (connectionOf k) .rollback).2 k :=
  ⟨rfl, d.engine.committed_rollback _, d.engine.connections_rollback _⟩

theorem rollback_undone {d : Database} (h : d.phase k ≠ .closed) : Undone d (d.rollback k).2 k := by
  unfold rollback
  split
  · next hc => exact absurd hc h
  · exact undone_command_rollback d k

theorem commit_spoiled {d : Database} (h : d.phase k = .spoiled) :
    (∃ f, (d.commit k).1 = .error f) ∧ Undone d (d.commit k).2 k := by
  have hu := undone_command_rollback d k
  unfold commit
  rw [h]
  simp only
  split
  · next f d' hd =>
    rw [hd] at hu
    exact ⟨⟨f, rfl⟩, hu⟩
  · next d' hd =>
    rw [hd] at hu
    exact ⟨⟨_, rfl⟩, hu⟩

theorem commit_active {d : Database} (h : d.phase k = .active) :
    d.commit k = (d.setPhase k .closed).command (connectionOf k) .commit := by
  simp only [commit, h]

theorem commit_closed {d : Database} (h : d.phase k = .closed) : d.commit k = (.error .closed, d) := by
  simp only [commit, h]

theorem rollback_closed {d : Database} (h : d.phase k = .closed) : d.rollback k = (.error .closed, d) := by
  simp only [rollback, h]

/-- What the commit of a transaction makes visible, and that it leaves all other connections alone. -/
theorem commit_at (d : Database) (k : Nat) :
    ((d.commit k).2.engine.committed = d.engine.committed ∨
      ∃ p, d.engine.connection (connectionOf k) = .reading p ∧
        (d.commit k).2.engine.committed = d.engine.committed.apply p.changes) ∧
    ((d.commit k).2.engine.connections = d.engine.connections ∨
      (d.commit k).2.engine.connections = d.engine.connections.set (connectionOf k) .idle) := by
  cases hp : d.phase k with
  | closed =>
    rw [commit_closed hp]
    exact ⟨.inl rfl, .inl rfl⟩
  | spoiled =>
    obtain ⟨-, hu⟩ := commit_spoiled hp
    exact ⟨.inl hu.committed, hu.connections⟩
  | active =>
    rw [commit_active hp]
    exact ⟨d.engine.commit_visible _, d.engine.connections_commit_or _⟩

theorem rollback_at (d : Database) (k : Nat) : (d.rollback k).2.engine.committed = d.engine.committed ∧
    ((d.rollback k).2.engine.connections = d.engine.connections ∨
      (d.rollback k).2.engine.connections = d.engine.connections.set (connectionOf k) .idle) := by
  by_cases hp : d.phase k = .closed
  · rw [rollback_closed hp]
    exact ⟨rfl, .inl rfl⟩
  · exact ⟨(rollback_undone hp).committed, (rollback_undone hp).connections⟩

end Database

end QueryGateway.Store
