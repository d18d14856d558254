import QueryGateway.Proofs.Gateway.Visibility
import QueryGateway.Proofs.Store.Guards

namespace QueryGateway
set_option autoImplicit true

open Store Rpc

namespace Gateway

/-- An action that only reads, or appends rows by columns of a key. -/
def KeepsTo (key : List String) : Action → Prop
  | .upsert _ _ keyColumns => ∀ k ∈ keyColumns, k ∈ key
  | a => isWrite a = false

theorem work_guarded {a : Action} (x : Execution) (h : KeepsTo key a) : Guarded key infos none (work x a) := by
  cases a with
  | upsert table data keyColumns => exact (Writes.upsert_guarded table data h).bind fun _ => .finish _
  | query sql args => exact .of_readOnly (work_readOnly x h)
  | selectById table column value => exact .of_readOnly (work_readOnly x h)
  | insert table data => exact nomatch h
  | update table values wanted => exact nomatch h

end Gateway

namespace Traffic

def Move.KeepsTo (key : List String) : Move → Prop
  | arrive _ (.act a _) => Gateway.KeepsTo key a
  | _ => True

namespace Stage

def connection? : Stage → Option Nat
  | inside _ _ k _ _ => some (k + 1)
  | writing .. => some 0
  | _ => none

/-- What is known of a request from where it is. -/
def Keyed (key : List String) (infos : List TableInfo) (connections : List Connection) : Stage → Prop
  | entering a _ _ => Gateway.KeepsTo key a
  | inside _ _ k _ rest => ∃ absent, Guarded key infos absent rest ∧ (connectionAt connections (k + 1)).Lacks absent
  | writing _ rest => ∃ absent, Guarded key infos absent rest ∧ (connectionAt connections 0).Lacks absent
  | _ => True

theorem Keyed.congr {s : Stage} (h : s.Keyed key infos connections)
    (hc : ∀ c, s.connection? = some c → ∀ p, connectionAt connections c = .reading p →
      connectionAt connections' c = .reading p) : s.Keyed key infos connections' := by
  cases s with
  | inside a handle k before rest =>
    obtain ⟨absent, hw, hlacks⟩ := h
    exact ⟨absent, hw, hlacks.congr (hc (k + 1) rfl)⟩
  | writing a rest =>
    obtain ⟨absent, hw, hlacks⟩ := h
    exact ⟨absent, hw, hlacks.congr (hc 0 rfl)⟩
  | _ => exact h

end Stage

def holdOf : Nat → Hold
  | 0 => .shared
  | k + 1 => .transaction k

theorem Stage.holds_of_connection {s : Stage} (h : s.connection? = some c) : s.holds = some (holdOf c) := by
  cases s with
  | inside => cases h; rfl
  | writing => cases h; rfl
  | _ => exact nomatch h

/-- What holds in every state: on each connection all rows appended so far have keys that no row had. -/
structure KeyedBy (key : List String) (infos : List TableInfo) (t : Traffic) : Prop where
  tables : t.committed.tables.map (·.info) = infos
  connections : ∀ c, (t.database.engine.connection c).Keyed key infos
  stages : ∀ s ∈ t.requests, s.Keyed key infos t.database.engine.connections

/-- A move leaves what is committed, or commits all that one transaction has noted. -/
def Commits (t t' : Traffic) : Prop :=
  t'.committed = t.committed ∨
    ∃ c p, t.database.engine.connection c = .reading p ∧ t'.committed = t.committed.apply p.changes

structure Moved (key : List String) (infos : List TableInfo) (t t' : Traffic) : Prop where
  keyed : t'.KeyedBy key infos
  commits : Commits t t'

section

variable {t t' : Traffic} {key : List String} {infos : List TableInfo}

theorem KeyedBy.moved (h : t.KeyedBy key infos) (he : t'.database.engine = t.database.engine)
    (hr : ∀ s ∈ t'.requests, s ∈ t.requests ∨ s.Keyed key infos t.database.engine.connections) :
    Moved key infos t t' := by
  have hcommitted : t'.committed = t.committed := congrArg Engine.committed he
  refine ⟨⟨hcommitted ▸ h.tables, fun c => he ▸ h.connections c, fun s hs => ?_⟩, .inl hcommitted⟩
  rw [he]
  exact (hr s hs).elim (h.stages s) id

theorem KeyedBy.moved_at (h : t.KeyedBy key infos) (c : Nat) {s' : Connection} (hs' : s'.Keyed key infos)
    (hv : t'.committed = t.committed ∨
      ∃ p, t.database.engine.connection c = .reading p ∧ t'.committed = t.committed.apply p.changes)
    (hc : t'.database.engine.connections = t.database.engine.connections ∨
      t'.database.engine.connections = t.database.engine.connections.set c s')
    (hr : ∀ s ∈ t'.requests, s ∈ t.requests ∧ s.connection? ≠ some c ∨
      s.Keyed key infos t'.database.engine.connections) : Moved key infos t t' := by
  have hother : ∀ c', c' ≠ c → connectionAt t'.database.engine.connections c' =
      connectionAt t.database.engine.connections c' := by
    intro c' hne
    rcases hc with heq | heq
    · rw [heq]
    · rw [heq]
      exact getD_set_ne (Ne.symm hne)
  refine ⟨⟨?_, fun c' => ?_, fun s hs => ?_⟩, hv.imp_right fun ⟨p, hp⟩ => ⟨c, p, hp⟩⟩
  · rcases hv with heq | ⟨p, -, heq⟩
    · rw [heq]
      exact h.tables
    · rw [heq, Committed.apply]
      split
      · exact h.tables
      · exact (Change.map_info_applyAll _ _ _).trans h.tables
  · have hstate : t'.database.engine.connection c' = t.database.engine.connection c' ∨
        t'.database.engine.connection c' = s' := by
      by_cases hcc : c' = c
      · subst hcc
        rcases hc with heq | heq
        · exact .inl (congrArg (connectionAt · c') heq)
        · rcases Nat.lt_or_ge c' t.database.engine.connections.length with hlt | hge
          · exact .inr ((congrArg (connectionAt · c') heq).trans (getD_set_self hlt))
          · rw [List.set_eq_of_length_le hge] at heq
            exact .inl (congrArg (connectionAt · c') heq)
      · exact .inl (hother c' hcc)
    rcases hstate with heq | heq
    · rw [heq]
      exact h.connections c'
    · rw [heq]
      exact hs'
  · rcases hr s hs with ⟨hm, hne⟩ | hkeyed
    · exact (h.stages s hm).congr fun c' hc' p hp =>
        (hother c' fun heq => hne (heq ▸ hc')).trans hp
    · exact hkeyed

theorem idle_keyed (key : List String) (infos : List TableInfo) : Connection.idle.Keyed key infos := nofun

theorem begun_keyed (key : List String) (infos : List TableInfo) : Connection.begun.Keyed key infos := nofun

theorem others (h : t.holds.Nodup) (hs : t.requests[i]? = some s)
    (hc : s.holds = some (holdOf c) ∨ holdOf c ∉ t.holds) (s' : Stage) :
    ∀ s₁ ∈ t.requests.set i s', s₁ = s' ∨ s₁ ∈ t.requests ∧ s₁.connection? ≠ some c := by
  obtain ⟨rest, hp, hset⟩ := singled_out hs
  have hrest : holdOf c ∉ rest.filterMap Stage.holds := by
    rcases hc with heq | hnot
    · have hd := (hp.filterMap Stage.holds).nodup_iff.mp h
      rw [List.filterMap_cons_some heq] at hd
      exact (List.nodup_cons.mp hd).1
    · exact not_mem_rest hp hnot
  intro s₁ hm
  rcases List.mem_cons.mp ((hset s').mem_iff.mp hm) with rfl | hm
  · exact .inl rfl
  · exact .inr ⟨hp.mem_iff.mpr (List.mem_cons_of_mem s hm),
      fun hc => hrest (List.mem_filterMap.mpr ⟨s₁, hm, Stage.holds_of_connection hc⟩)⟩

theorem KeyedBy.turned (h : t.KeyedBy key infos) (he : t'.database.engine = t.database.engine)
    (hr : t'.requests = t.requests.set i s) (hs : s.Keyed key infos t.database.engine.connections) :
    Moved key infos t t' :=
  h.moved he fun s' hs' => by
    rw [hr] at hs'
    rcases List.mem_or_eq_of_mem_set hs' with hm | rfl
    · exact .inl hm
    · exact .inr hs

theorem KeyedBy.launched (h : t.KeyedBy key infos) (he : t'.database.engine = t.database.engine)
    (hr : t'.requests = t.requests ++ [s]) (hs : s.Keyed key infos t.database.engine.connections) :
    Moved key infos t t' :=
  h.moved he fun s' hs' => by
    rw [hr] at hs'
    rcases List.mem_append.mp hs' with hm | hm
    · exact .inl hm
    · exact .inr (List.mem_singleton.mp hm ▸ hs)

theorem KeyedBy.stayed (h : t.KeyedBy key infos) (he : t'.database.engine = t.database.engine)
    (hr : t'.requests = t.requests) : Moved key infos t t' :=
  h.moved he fun _ hs => .inl (hr ▸ hs)

theorem arrive_health_moved (hs : t.SoundFrom start) (h : t.KeyedBy key infos) (clock : Clock) :
    Moved key infos t (t.arrive clock .health) := by
  obtain ⟨issued, hs⟩ := hs
  simp only [arrive]
  split
  · exact h.stayed rfl rfl
  · next hfree =>
    obtain ⟨he, -⟩ := Database.ping_idle t.gateway.healthTable (hs.shared_idle hfree)
    have hd : (t.gateway.health clock.timestamp).2.session.world = (t.database.ping t.gateway.healthTable).2 := by
      unfold Gateway.health
      split
      · next d hr => exact (congrArg Prod.snd hr).symm
      · next f d hr => exact (congrArg Prod.snd hr).symm
    exact h.stayed ((congrArg Database.engine hd).trans he) rfl

theorem arrive_begin_moved (h : t.KeyedBy key infos) (clock : Clock) :
    Moved key infos t (t.arrive clock .begin) := by
  obtain ⟨hr, -, he, hc⟩ := Database.begin_ok t.database
  simp only [arrive]
  split
  · next f d hd =>
    rw [hd] at hr
    cases hr
  · next k d hd =>
    rw [hd] at he hc
    have hsame : ∀ c, c < t.database.engine.connections.length →
        connectionAt d.engine.connections c = connectionAt t.database.engine.connections c := by
      intro c hlt
      rw [hc, connectionAt, List.getElem?_append_left hlt]
    have hnew : ∀ c, t.database.engine.connections.length ≤ c →
        connectionAt d.engine.connections c = .begun ∨ connectionAt d.engine.connections c = .idle := by
      intro c hge
      rcases Nat.eq_or_lt_of_le hge with rfl | hlt
      · exact .inl (by rw [hc, connectionAt, List.getElem?_concat_length, Option.getD_some])
      · refine .inr ?_
        rw [hc, connectionAt, List.getElem?_eq_none (by rw [List.length_append]; exact hlt), Option.getD_none]
    refine ⟨⟨?_, fun c => ?_, fun s hs => ?_⟩, .inl he⟩
    · change d.engine.committed.tables.map (·.info) = infos
      rw [he]
      exact h.tables
    · change (connectionAt d.engine.connections c).Keyed key infos
      rcases Nat.lt_or_ge c t.database.engine.connections.length with hlt | hge
      · rw [hsame c hlt]
        exact h.connections c
      · rcases hnew c hge with heq | heq
        · rw [heq]
          exact begun_keyed key infos
        · rw [heq]
          exact idle_keyed key infos
    · rcases List.mem_append.mp hs with hm | hm
      · refine (h.stages s hm).congr fun c _ p hp => ?_
        have hlt : c < t.database.engine.connections.length :=
          Engine.lt_of_inTransaction (e := t.database.engine) (congrArg Connection.inTransaction hp)
        exact (hsame c hlt).trans hp
      · rw [List.mem_singleton.mp hm]
        trivial

theorem arrive_act_moved (hs : t.SoundFrom start) (h : t.KeyedBy key infos) (clock : Clock) (ha : Gateway.KeepsTo key a)
    (handle : Option String) : Moved key infos t (t.arrive clock (.act a handle)) := by
  obtain ⟨issued, hs⟩ := hs
  cases handle with
  | some handle =>
    simp only [arrive]
    split
    · exact h.stayed rfl rfl
    · exact h.launched (s := .entering a handle _) rfl rfl ha
  | none =>
    simp only [arrive]
    split
    · exact h.stayed rfl rfl
    · next hfree =>
      split
      · have hidle : t.database.engine.connection Database.shared = .idle := hs.shared_idle hfree
        rw [Database.command_begin hidle]
        refine h.moved_at 0 (begun_keyed key infos) (.inl rfl) (.inr rfl) fun s hm => ?_
        rcases List.mem_append.mp hm with hm | hm
        · refine .inl ⟨hm, fun hc => hfree (List.mem_filterMap.mpr ⟨s, hm, Stage.holds_of_connection hc⟩)⟩
        · rw [List.mem_singleton.mp hm]
          exact .inr ⟨none, Gateway.work_guarded _ ha, trivial⟩
      · exact h.launched (s := .reading a (t.work a)) rfl rfl trivial

theorem take_moved (h : t.KeyedBy key infos) (call : Call) (handle : String) (commit : Bool) :
    Moved key infos t (t.take call handle commit) := by
  unfold take
  split
  · exact h.stayed rfl rfl
  · next k r ht => exact h.launched (s := .finishing handle k commit) rfl rfl trivial

theorem enter_moved (h : t.KeyedBy key infos) (ha : Gateway.KeepsTo key a) :
    Moved key infos t (t.enter i a handle k) := by
  unfold enter
  split
  · exact h.stayed rfl rfl
  · split
    · exact h.turned (s := .ended) rfl rfl trivial
    · exact h.turned (s := .ended) rfl rfl trivial
    · exact h.turned (s := .inside a handle k _ (t.work a)) rfl rfl ⟨none, Gateway.work_guarded _ ha, trivial⟩

/-- One operation of a request that writes: what it appends has a key that no row had. -/
theorem operate_moved {op : Operation} {next : Except Fault op.Answer → Work Failure Json}
    {stage : Work Failure Json → Stage} (h : t.KeyedBy key infos) (hd : t.holds.Nodup) (hs : t.requests[i]? = some s)
    (hc : s.holds = some (holdOf c)) (hin : (t.database.engine.connection c).inTransaction = true)
    (hw : Guarded key infos absent (.perform op next)) (hl : (t.database.engine.connection c).Lacks absent)
    (hstage : ∀ connections absent w, Guarded key infos absent w → (connectionAt connections c).Lacks absent →
      (stage w).Keyed key infos connections) : Moved key infos t (t.operate i c op next stage) := by
  obtain ⟨he, s', -, hconn⟩ := Database.perform_inside hin op
  obtain ⟨hkeyed, absent', hw', hl'⟩ := Database.perform_guarded hin h.tables (h.connections c) hw hl
  have hself : (t.database.perform c op).2.engine.connection c = s' := by
    rw [Engine.connection, hconn]
    exact getD_set_self (Engine.lt_of_inTransaction hin)
  rw [hself] at hkeyed
  refine h.moved_at c hkeyed (.inl he) (.inr hconn) fun s₁ hs₁ => ?_
  rcases others hd hs (.inl hc) _ s₁ hs₁ with rfl | hother
  · exact .inr (hstage _ absent' _ hw' hl')
  · exact .inl hother

theorem KeyedBy.ended (h : t.KeyedBy key infos) (s' : Stage) (hd : t.holds.Nodup) (hs : t.requests[i]? = some s)
    (hc : s.holds = some (holdOf c) ∨ holdOf c ∉ t.holds) (hs' : s'.connection? = none ∧ s'.Keyed key infos [])
    (hr : t'.requests = t.requests.set i s')
    (hv : t'.committed = t.committed ∨
      ∃ p, t.database.engine.connection c = .reading p ∧ t'.committed = t.committed.apply p.changes)
    (hconn : t'.database.engine.connections = t.database.engine.connections ∨
      t'.database.engine.connections = t.database.engine.connections.set c .idle) : Moved key infos t t' := by
  refine h.moved_at c (idle_keyed key infos) hv hconn fun s₁ hs₁ => ?_
  rw [hr] at hs₁
  rcases others hd hs hc s' s₁ hs₁ with rfl | hother
  · exact .inr (hs'.2.congr fun c' hc' => nomatch hs'.1.symm.trans hc')
  · exact .inl hother

theorem conclude_moved (h : t.KeyedBy key infos) (hd : t.holds.Nodup)
    (hs : t.requests[i]? = some (.writing a (.finish outcome))) : Moved key infos t (t.conclude i a outcome) := by
  cases outcome with
  | done v =>
    rw [conclude_done]
    exact h.ended .ended hd hs (c := 0) (.inl rfl) ⟨rfl, trivial⟩ rfl
      (t.database.engine.commit_visible Database.shared) (t.database.engine.connections_commit_or Database.shared)
  | failed f =>
    exact h.ended .ended hd hs (c := 0) (.inl rfl) ⟨rfl, trivial⟩ rfl
      (.inl (t.database.engine.committed_rollback Database.shared))
      (t.database.engine.connections_rollback Database.shared)
  | broken => exact h.turned (s := .ended) rfl rfl trivial

theorem finish_moved (h : t.KeyedBy key infos) (hd : t.holds.Nodup)
    (hs : t.requests[i]? = some (.finishing handle k commit)) : Moved key infos t (t.finish i handle k commit) := by
  unfold finish
  split
  · exact h.stayed rfl rfl
  · next hfree =>
    cases commit with
    | true =>
      obtain ⟨hv, hc⟩ := t.database.commit_at k
      exact h.ended .ended hd hs (c := k + 1) (.inr hfree) ⟨rfl, trivial⟩ rfl hv hc
    | false =>
      obtain ⟨hv, hc⟩ := t.database.rollback_at k
      exact h.ended .ended hd hs (c := k + 1) (.inr hfree) ⟨rfl, trivial⟩ rfl (.inl hv) hc

theorem read_moved {op : Operation} {next : Except Fault op.Answer → Work Failure Json} (hsound : t.SoundFrom start)
    (h : t.KeyedBy key infos) (hs : t.requests[i]? = some (.reading a (.perform op next))) :
    Moved key infos t (t.operate i Database.shared op next (.reading a)) := by
  obtain ⟨issued, hsound⟩ := hsound
  obtain ⟨rest, hp, -⟩ := singled_out hs
  have hc := hsound.perm hp
  cases hc.stages _ List.mem_cons_self with
  | perform hop hnext =>
    exact h.turned (s := .reading a (next (t.database.perform Database.shared op).1))
      (Database.perform_idle hc.reading_idle hop) rfl trivial

theorem advance_moved (hsound : t.SoundFrom start) (h : t.KeyedBy key infos) (i now : Nat) :
    Moved key infos t (t.advance i now) := by
  obtain ⟨issued, hsound⟩ := hsound
  have hd : t.holds.Nodup := hsound.exclusive
  unfold advance
  split
  · exact h.stayed rfl rfl
  · exact h.stayed rfl rfl
  · next a handle k hs => exact enter_moved h (h.stages _ (List.mem_of_getElem? hs))
  · next a handle k before op next hs =>
    obtain ⟨absent, hw, hl⟩ := h.stages _ (List.mem_of_getElem? hs)
    obtain ⟨hi, ha, -⟩ := hsound.stages _ (List.mem_of_getElem? hs)
    exact operate_moved (c := k + 1) h hd hs rfl ((hsound.transactions handle k hi).begun ha) hw hl
      fun _ absent' _ hw' hl' => ⟨absent', hw', hl'⟩
  · next a handle k before outcome hs =>
    cases outcome with
    | done v => exact h.turned (s := .ended) rfl rfl trivial
    | failed f => exact h.turned (s := .ended) rfl rfl trivial
    | broken => exact h.turned (s := .ended) rfl rfl trivial
  · next a op next hs => exact read_moved ⟨issued, hsound⟩ h hs
  · next a outcome hs => exact h.turned (s := .ended) rfl rfl trivial
  · next a op next hs =>
    obtain ⟨absent, hw, hl⟩ := h.stages _ (List.mem_of_getElem? hs)
    obtain ⟨hin, -⟩ := hsound.stages _ (List.mem_of_getElem? hs)
    exact operate_moved (c := 0) h hd hs rfl hin hw hl fun _ absent' _ hw' hl' => ⟨absent', hw', hl'⟩
  · next a outcome hs => exact conclude_moved h hd hs
  · next handle k commit hs => exact finish_moved h hd hs
  · next k hs => exact h.turned (s := .ended) rfl rfl trivial
  · next hs => exact h.turned (s := .ended) rfl rfl trivial
  · next k ks hs =>
    split
    · exact h.stayed rfl rfl
    · next hfree =>
      obtain ⟨hv, hc⟩ := t.database.rollback_at k
      exact h.ended (.abandoning ks) hd hs (c := k + 1) (.inr hfree) ⟨rfl, trivial⟩ rfl (.inl hv) hc

theorem step_moved (hsound : t.SoundFrom start) (h : t.KeyedBy key infos) {m : Move} (hm : m.KeepsTo key) :
    Moved key infos t (t.step m) := by
  cases m with
  | advance i now => exact advance_moved hsound h i now
  | sweep now maxIdle => exact h.launched (s := .abandoning _) rfl rfl trivial
  | close => exact h.launched (s := .abandoning _) rfl rfl trivial
  | arrive clock call =>
    cases call with
    | ping => exact h.stayed rfl rfl
    | health => exact arrive_health_moved hsound h clock
    | begin => exact arrive_begin_moved h clock
    | commit handle => exact take_moved h _ handle true
    | rollback handle => exact take_moved h _ handle false
    | act a handle => exact arrive_act_moved hsound h clock hm handle

theorem opened_keyed (file : Option String) (schema : String) (tables : List Table) (x : Execution)
    (healthTable : Option String) (key : List String) :
    (opened file schema tables x healthTable).KeyedBy key (tables.map (·.info)) := by
  refine ⟨rfl, fun c => ?_, nofun⟩
  cases c with
  | zero => exact idle_keyed key _
  | succ c => exact idle_keyed key _

end

theorem run_keyed {t : Traffic} (hsound : t.SoundFrom start) (h : t.KeyedBy key infos) {moves : List Move}
    (hm : ∀ m ∈ moves, m.KeepsTo key) : (t.run moves).KeyedBy key infos := by
  induction moves generalizing t with
  | nil => exact h
  | cons m moves ih =>
    obtain ⟨hfirst, hrest⟩ := List.forall_mem_cons.mp hm
    exact ih (step_sound hsound m) (step_moved hsound h hfirst).keyed hrest

/-- By the move `m` a transaction commits the row `b` of the table `i`, which had begun to read before the row `a` was
committed. -/
def Overlap (t : Traffic) (m : Move) (i : Nat) (a b : Record) : Prop :=
  ∃ c p r, t.database.engine.connection c = .reading p ∧ (t.step m).committed = t.committed.apply p.changes ∧
    .add i r ∈ p.changes ∧ b = { r with stamp := t.committed.stamp + 1 } ∧
    (∃ u : Table, t.committed.tables[i]? = some u ∧ a ∈ u.records) ∧ ∀ u : Table, p.base[i]? = some u → a ∉ u.records

theorem mem_of_addedTo {changes : List Change} (h : r ∈ changes.filterMap (Change.addedTo i)) : .add i r ∈ changes := by
  obtain ⟨change, hm, hr⟩ := List.mem_filterMap.mp h
  cases change with
  | replace => exact nomatch hr
  | add j r' =>
    rw [Change.addedTo] at hr
    split at hr
    · next hj =>
      cases hr
      exact hj ▸ hm
    · exact nomatch hr

/-- Rows of one table with one key stand in a relation, the earlier to the later one. -/
def Meet (key : List String) (s : Committed) (R : Nat → Record → Record → Prop) : Prop :=
  ∀ (i : Nat) (u : Table), s.tables[i]? = some u → u.records.Pairwise fun a b => SameOn key u.info a b → R i a b

/-- A commit of fresh rows brings rows with one key together only where one of them was not seen. -/
theorem Meet.apply {s : Committed} (h : Meet key s R) {p : Pending} (hfresh : p.Fresh key)
    (hinfos : p.base.map (·.info) = s.tables.map (·.info))
    (hnew : ∀ i a r, .add i r ∈ p.changes → (∃ u : Table, s.tables[i]? = some u ∧ a ∈ u.records) →
      (∀ u : Table, p.base[i]? = some u → a ∉ u.records) → R i a { r with stamp := s.stamp + 1 }) :
    Meet key (s.apply p.changes) R := by
  intro i u hu
  rw [Committed.apply] at hu
  split at hu
  · exact h i u hu
  · have hold : ∃ v : Table, s.tables[i]? = some v := by
      have hmap := congrArg (·[i]?) (Change.map_info_applyAll (s.stamp + 1) s.tables p.changes)
      simp only [List.getElem?_map, hu, Option.map_some] at hmap
      obtain ⟨v, hv, -⟩ := Option.map_eq_some_iff.mp hmap.symm
      exact ⟨v, hv⟩
    obtain ⟨v, hv⟩ := hold
    obtain rfl := Option.some.inj ((Change.getElem?_applyAll (s.stamp + 1) hfresh.adds hv).symm.trans hu)
    have hbase : ∃ w : Table, p.base[i]? = some w ∧ w.info = v.info := by
      have hmap := congrArg (·[i]?) hinfos
      simp only [List.getElem?_map, hv, Option.map_some] at hmap
      exact Option.map_eq_some_iff.mp hmap
    obtain ⟨w, hw, hinfo⟩ := hbase
    refine List.pairwise_append.mpr ⟨h i v hv, List.pairwise_map.mpr ?_, fun a ha b hb hsame => ?_⟩
    · exact (hfresh.distinct i w hw).imp fun hne hsame => absurd (hinfo ▸ hsame) hne
    · obtain ⟨r, hr, rfl⟩ := List.mem_map.mp hb
      refine hnew i a r (mem_of_addedTo hr) ⟨v, hv, ha⟩ fun w' hw' hseen => ?_
      cases hw.symm.trans hw'
      exact hfresh.apart i w hw a hseen r hr (hinfo ▸ hsame)

theorem step_meet {t : Traffic} (h : t.KeyedBy key infos) (hv : Commits t (t.step m))
    (hR : ∀ i a b, Overlap t m i a b → R i a b) (hold : Meet key t.committed R) : Meet key (t.step m).committed R := by
  rcases hv with heq | ⟨c, p, hp, heq⟩
  · exact heq ▸ hold
  · obtain ⟨hinfos, hfresh⟩ := h.connections c p hp
    rw [heq]
    exact hold.apply hfresh (hinfos.trans h.tables.symm) fun i a r hr ha hunseen =>
      hR i a _ ⟨c, p, r, hp, heq, hr, rfl, ha, hunseen⟩

/-- Over every run of upserts with columns of a key, in transactions and outside, with commits and rollbacks at any
time: where no two rows had the same key at first, two that are committed have it only if the transaction that wrote
the later one had begun to read before the other was committed. -/
theorem upserts_keep_key (file : Option String) (schema : String) (tables : List Table) (x : Execution)
    (healthTable : Option String) (key : List String) (moves : List Move) (hstart : ∀ u ∈ tables, u.HasKey key)
    (hmoves : ∀ m ∈ moves, m.KeepsTo key) :
    let start := opened file schema tables x healthTable
    ∀ (i : Nat) (u : Table), (start.run moves).committed.tables[i]? = some u →
      u.records.Pairwise fun a b => SameOn key u.info a b →
        ∃ front m back, moves = front ++ m :: back ∧ Overlap (start.run front) m i a b := by
  intro start
  induction moves using List.reverseRecOn with
  | nil =>
    intro i u hu
    exact List.Pairwise.imp (fun hne hsame => absurd hsame hne) (hstart u (List.mem_of_getElem? hu))
  | append_singleton moves m ih =>
    have hrun : start.run (moves ++ [m]) = (start.run moves).step m := List.foldl_append
    have hbefore : ∀ m' ∈ moves, m'.KeepsTo key := fun m' hm' => hmoves m' (List.mem_append_left _ hm')
    have hsound := opened_sound file schema tables x healthTable
    have hkeyed := run_keyed hsound (opened_keyed file schema tables x healthTable key) hbefore
    have hmoved := step_moved (run_sound hsound moves) hkeyed (hmoves m (List.mem_append_right _ List.mem_cons_self))
    rw [hrun]
    refine step_meet hkeyed hmoved.commits (fun i a b ho => ⟨moves, m, [], rfl, ho⟩) fun i u hu => ?_
    refine List.Pairwise.imp (fun hold hsame => ?_) (ih hbefore i u hu)
    obtain ⟨front, m', back, heq, ho⟩ := hold hsame
    exact ⟨front, m', back ++ [m], by rw [heq, List.append_assoc, List.cons_append], ho⟩

/-- A table whose column allows any number of equal values. -/
def plain : Table :=
  ⟨⟨"main", "t", [⟨"id", .integer .regular, false, false⟩]⟩, []⟩

/-- Two transactions that upsert one key and are then committed. -/
def race : List Move :=
  let clock : Clock := ⟨0, "", 0⟩
  let upsert : Action := .upsert "t" [("id", .array [.int 1])] ["id"]
  [.arrive clock .begin, .advance 0 0, .arrive clock .begin, .advance 1 0,
    .arrive clock (.act upsert (some (Transactions.handle 1)))] ++ List.replicate 5 (.advance 2 0) ++
    [.arrive clock (.act upsert (some (Transactions.handle 2)))] ++ List.replicate 5 (.advance 3 0) ++
    [.arrive clock (.commit (Transactions.handle 1)), .advance 4 0,
      .arrive clock (.commit (Transactions.handle 2)), .advance 5 0]

theorem race_keepsTo : ∀ m ∈ race, m.KeepsTo ["id"] := by
  simp [race, Move.KeepsTo, Gateway.KeepsTo]

/-- Each finds no row with the key in what it sees, so that both append one. -/
theorem upserts_repeat_key :
    plain.HasKey ["id"] ∧ (∀ m ∈ race, m.KeepsTo ["id"]) ∧
      ¬ ∀ u ∈ ((opened none "main" [plain] ⟨.builtIn, false, 100⟩ none).run race).committed.tables, u.HasKey ["id"] :=
  ⟨by decide, race_keepsTo, by decide +kernel⟩

theorem upserts_keep_key_race :
    let start := opened none "main" [plain] ⟨.builtIn, false, 100⟩ none
    ((start.run race).committed.tables.map fun u => u.records.length) = [2] ∧
    ∀ (i : Nat) (u : Table), (start.run race).committed.tables[i]? = some u →
      u.records.Pairwise fun a b => SameOn ["id"] u.info a b →
        ∃ front m back, race = front ++ m :: back ∧ Overlap (start.run front) m i a b :=
  ⟨by decide +kernel, upserts_keep_key none "main" [plain] _ none ["id"] race (by decide) race_keepsTo⟩

end Traffic

end QueryGateway
