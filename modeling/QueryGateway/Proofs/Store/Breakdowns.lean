import QueryGateway.Proofs.Store.Statements
import QueryGateway.Proofs.Store.Uses

namespace QueryGateway.Store
set_option autoImplicit true

/-- A unit of work on the shared connection, to be done as a whole, that broke down. -/
def Breaks (x : Use ε α × Reply ε α) : Prop :=
  ∃ w, x = (.work .atomic w, .ended .broken)

theorem Breaks.atomic {u : Use ε α} {r : Reply ε α} (h : Breaks (u, r)) : ∃ w, u = .work .atomic w := by
  obtain ⟨w, hw⟩ := h
  exact ⟨w, (Prod.mk.inj hw).1⟩

namespace Engine

variable {e : Engine}

theorem connections_write_idle (h : e.connection c = .idle) (changes : List Change) :
    (e.write c changes).connections = e.connections := by
  simp only [write, h, commitChanges]

theorem connections_command (e : Engine) (c : Nat) (κ : Command) :
    (e.command c κ).2.connections = e.connections ∨ ∃ s, (e.command c κ).2.connections = e.connections.set c s := by
  cases κ with
  | begin =>
    simp only [command]
    split
    · exact .inl rfl
    · exact .inr ⟨_, rfl⟩
  | commit => exact (e.connections_commit_or c).imp id fun h => ⟨_, h⟩
  | rollback => exact (e.connections_rollback c).imp id fun h => ⟨_, h⟩

theorem connection_command_ne (h : c ≠ c') (e : Engine) (κ : Command) :
    (e.command c κ).2.connection c' = e.connection c' := by
  rcases e.connections_command c κ with hs | ⟨s, hs⟩
  · rw [connection, hs, connection]
  · rw [connection, hs, List.getElem?_set_ne h, connection]

theorem length_command (e : Engine) (c : Nat) (κ : Command) :
    (e.command c κ).2.connections.length = e.connections.length := by
  rcases e.connections_command c κ with hs | ⟨s, hs⟩
  · rw [hs]
  · rw [hs, List.length_set]

theorem connection_ended (h : (e.connection c).inTransaction = true) (hκ : κ ≠ .begin) :
    (e.command c κ).2.connection c = .idle := by
  have hs : (e.command c κ).2.connections = e.connections.set c .idle := by
    cases κ with
    | begin => exact absurd rfl hκ
    | commit => exact connections_commit h
    | rollback => rw [rollback_inside h]; rfl
  rw [connection, hs, List.getElem?_set_self (lt_of_inTransaction h), Option.getD_some]

theorem connection_idle_iff (e : Engine) (c : Nat) :
    e.connection c = .idle ↔ (e.connection c).inTransaction = false := by
  cases e.connection c with
  | idle => exact iff_of_true rfl rfl
  | begun => exact iff_of_false nofun nofun
  | reading p => exact iff_of_false nofun nofun

end Engine

namespace Database

variable {ofFault : Fault → ε} {d d' d₁ : Database} {w : Work ε α} {us : List (Use ε α)} {outcome : Outcome ε α}

theorem connections_perform_idle (h : d.engine.connection c = .idle) (op : Operation) :
    (d.perform c op).2.engine.connections = d.engine.connections := by
  by_cases hop : op.writes = false
  · rw [perform_idle h hop]
  · have hpin : d.engine.pin c = d.engine := by simp only [Engine.pin, h]
    cases op with
    | insert t bs =>
      simp only [perform, reads, if_true, hpin, answer]
      cases hi : d.engine.insert c t bs with
      | error f => rfl
      | ok e' =>
        obtain ⟨i, t, given, -, -, -, -, rfl⟩ := Engine.insert_cases hi
        exact Engine.connections_write_idle h _
    | update t assignments wanted =>
      simp only [perform, reads, if_true, hpin, answer]
      cases hu : d.engine.update c t assignments wanted with
      | error f => rfl
      | ok r =>
        obtain ⟨n, e'⟩ := r
        obtain ⟨i, t, found, -, -, -, ⟨-, rfl⟩ | ⟨-, given, -, -, rfl⟩⟩ := Engine.update_cases hu
        · rfl
        · exact Engine.connections_write_idle h _
    | _ => exact absurd rfl hop

/-- Operations move their own connection only, and neither begin a transaction nor end one. -/
theorem connections_perform (d : Database) (c : Nat) (op : Operation) : ∃ s,
    (d.perform c op).2.engine.connections = d.engine.connections.set c s ∧
      s.inTransaction = (d.engine.connection c).inTransaction := by
  cases h : (d.engine.connection c).inTransaction with
  | false =>
    have hidle := (d.engine.connection_idle_iff c).mpr h
    refine ⟨.idle, ?_, rfl⟩
    rw [connections_perform_idle hidle op]
    by_cases hc : c < d.engine.connections.length
    · have hget : d.engine.connections[c] = .idle := by
        rw [Engine.connection, List.getElem?_eq_getElem hc, Option.getD_some] at hidle
        exact hidle
      rw [← hget, List.set_getElem_self]
    · rw [List.set_eq_of_length_le (Nat.le_of_not_lt hc)]
  | true =>
    obtain ⟨-, s, hs, hconnections⟩ := perform_inside h op
    exact ⟨s, hconnections, hs.inTransaction h⟩

theorem length_perform (d : Database) (c : Nat) (op : Operation) :
    (d.perform c op).2.engine.connections.length = d.engine.connections.length := by
  obtain ⟨s, hs, -⟩ := d.connections_perform c op
  rw [hs, List.length_set]

theorem inTransaction_perform (d : Database) (c : Nat) (op : Operation) (c' : Nat) :
    ((d.perform c op).2.engine.connection c').inTransaction = (d.engine.connection c').inTransaction := by
  obtain ⟨s, hs, hin⟩ := d.connections_perform c op
  rw [Engine.connection, hs]
  by_cases hc : c = c'
  · subst hc
    by_cases hlt : c < d.engine.connections.length
    · rw [List.getElem?_set_self hlt, Option.getD_some, hin]
    · rw [List.set_eq_of_length_le (Nat.le_of_not_lt hlt), Engine.connection]
  · rw [List.getElem?_set_ne hc, Engine.connection]

theorem length_work (d : Database) (c : Nat) (w : Work ε α) :
    (d.work c w).2.engine.connections.length = d.engine.connections.length := by
  induction w generalizing d with
  | finish outcome => rfl
  | perform op next ih => exact (ih (d.perform c op).1 (d.perform c op).2).trans (d.length_perform c op)

theorem inTransaction_work (d : Database) (c : Nat) (w : Work ε α) (c' : Nat) :
    ((d.work c w).2.engine.connection c').inTransaction = (d.engine.connection c').inTransaction := by
  induction w generalizing d with
  | finish outcome => rfl
  | perform op next ih => exact (ih (d.perform c op).1 (d.perform c op).2).trans (d.inTransaction_perform c op c')

/-- Work in a transaction changes nothing that others see. -/
theorem committed_work (h : (d.engine.connection c).inTransaction = true) (w : Work ε α) :
    (d.work c w).2.engine.committed = d.engine.committed := by
  induction w generalizing d with
  | finish outcome => rfl
  | perform op next ih =>
    have hnext := ih (d.perform c op).1 (d := (d.perform c op).2) ((d.inTransaction_perform c op c).trans h)
    exact hnext.trans (perform_inside h op).1

theorem begin_accepted (hc : c < d.engine.connections.length) (h : d.command c .begin = (.ok (), d₁)) :
    d.engine.connection c = .idle ∧ (d₁.engine.connection c).inTransaction = true ∧
      d₁.engine.committed = d.engine.committed := by
  by_cases hidle : d.engine.connection c = .idle
  · rw [command_begin hidle] at h
    cases h
    exact ⟨hidle, by rw [Engine.connection_setConnection_self _ _ hc]; rfl, rfl⟩
  · have hin := eq_true_of_ne_false (mt (d.engine.connection_idle_iff c).mpr hidle)
    simp only [command, Engine.command, hin, if_true] at h
    cases (Prod.mk.inj h).1

theorem begin_refused (h : (d.engine.connection c).inTransaction = true) : d.command c .begin =
    (.error (.engine "TransactionContext Error: cannot start a transaction within a transaction"),
      d.record c (.command .begin)) := by
  simp only [command, Engine.command, h, if_true]
  rfl

theorem Whole.length (h : Whole ofFault d w outcome d') :
    d'.engine.connections.length = d.engine.connections.length :=
  h.preserves (P := (·.engine.connections.length = d.engine.connections.length))
    (fun κ hp => (Engine.length_command _ shared κ).trans hp) (fun hp => (length_work _ shared w).trans hp) rfl

theorem Whole.inTransaction (h : Whole ofFault d w outcome d') (hc : c ≠ shared) :
    (d'.engine.connection c).inTransaction = (d.engine.connection c).inTransaction :=
  h.preserves (P := fun d' => (d'.engine.connection c).inTransaction = (d.engine.connection c).inTransaction)
    (fun κ hp => (congrArg Connection.inTransaction (Engine.connection_command_ne hc.symm _ κ)).trans hp)
    (fun hp => (inTransaction_work _ shared w c).trans hp) rfl

/-- What a unit of work leaves behind that was begun on the shared connection. -/
structure Leaves (d : Database) (outcome : Outcome ε α) (d' : Database) : Prop where
  open_iff : (d'.engine.connection shared).inTransaction = true ↔ outcome = .broken
  committed : (∀ a, outcome ≠ .done a) → d'.engine.committed = d.engine.committed

theorem Whole.leaves (h : Whole ofFault d w outcome d') (hs : shared < d.engine.connections.length)
    (hidle : d.engine.connection shared = .idle) : Leaves d outcome d' := by
  have worked : ∀ {d₁ d₂ : Database} {outcome : Outcome ε α}, d.command shared .begin = (.ok (), d₁) →
      d₁.work shared w = (outcome, d₂) →
      (d₂.engine.connection shared).inTransaction = true ∧ d₂.engine.committed = d.engine.committed := by
    intro d₁ d₂ outcome hb hw
    obtain ⟨-, hin, hcommitted⟩ := begin_accepted hs hb
    have hin' := (d₁.inTransaction_work shared w shared).trans hin
    have hcommitted' := (committed_work hin w).trans hcommitted
    rw [hw] at hin' hcommitted'
    exact ⟨hin', hcommitted'⟩
  have ended : ∀ {d₂ : Database} {κ}, (d₂.engine.connection shared).inTransaction = true → κ ≠ .begin →
      ((d₂.command shared κ).2.engine.connection shared).inTransaction ≠ true := fun hin hκ heq =>
    nomatch (congrArg Connection.inTransaction (Engine.connection_ended hin hκ)).symm.trans heq
  cases h with
  | refused hb =>
    rw [command_begin hidle] at hb
    exact nomatch (Prod.mk.inj hb).1
  | committed hb hw hc =>
    have hfree := ended (κ := .commit) (worked hb hw).1 nofun
    rw [hc] at hfree
    exact ⟨iff_of_false hfree nofun, fun hno => absurd rfl (hno _)⟩
  | uncommitted hb hw hc =>
    obtain ⟨hin, hcommitted⟩ := worked hb hw
    have hfree := ended (κ := .commit) hin nofun
    rw [hc] at hfree
    refine ⟨iff_of_false hfree nofun, fun _ => ?_⟩
    obtain ⟨hf, rfl⟩ := Prod.mk.inj hc
    exact (Engine.committed_commit_error hf).trans hcommitted
  | undone hb hw =>
    obtain ⟨hin, hcommitted⟩ := worked hb hw
    exact ⟨iff_of_false (ended hin nofun) nofun, fun _ => (Engine.committed_rollback _ _).trans hcommitted⟩
  | left hb hw =>
    obtain ⟨hin, hcommitted⟩ := worked hb hw
    exact ⟨iff_of_true hin rfl, fun _ => hcommitted⟩

/-- On a shared connection that is in a transaction no unit of work is done as a whole. -/
theorem runAtomic_refused (h : (d.engine.connection shared).inTransaction = true) (w : Work ε α) :
    d.runAtomic ofFault w =
      (.failed (ofFault (.engine "TransactionContext Error: cannot start a transaction within a transaction")),
        d.record shared (.command .begin)) := by
  rw [runAtomic, begin_refused h]

/-- Each transaction has its connection, and is on it as long as it has not been finished. -/
structure Orderly (d : Database) : Prop where
  size : d.engine.connections.length = d.phases.length + 1
  inside : ∀ k, d.phase k ≠ .closed → (d.engine.connection (connectionOf k)).inTransaction = true

theorem orderly_ofTables (file : Option String) (schema : String) (tables : List Table) :
    (ofTables file schema tables).Orderly :=
  ⟨rfl, fun _ h => absurd rfl h⟩

theorem phase_setPhase_ne (h : j ≠ k) (d : Database) (p : Phase) : (d.setPhase j p).phase k = d.phase k := by
  rw [phase, setPhase, List.getElem?_set_ne h, phase]

theorem phase_setPhase_closed (d : Database) (k : Nat) : (d.setPhase k .closed).phase k = .closed := by
  simp only [phase, setPhase, List.getElem?_set, if_true]
  split
  · rfl
  · rfl

namespace Orderly

theorem shared_lt (h : Orderly d) : shared < d.engine.connections.length := by
  rw [h.size]
  exact Nat.succ_pos _

theorem congr (h : Orderly d) (hp : d'.phases = d.phases)
    (hlength : d'.engine.connections.length = d.engine.connections.length)
    (hin : ∀ k, (d'.engine.connection (connectionOf k)).inTransaction =
      (d.engine.connection (connectionOf k)).inTransaction) : Orderly d' where
  size := by rw [hlength, hp, h.size]
  inside k hk := (hin k).trans (h.inside k (phase_congr hp k ▸ hk))

theorem work (h : Orderly d) (c : Nat) (w : Work ε α) : Orderly (d.work c w).2 :=
  h.congr (d.phases_work c w) (d.length_work c w) fun k => d.inTransaction_work c w (connectionOf k)

theorem spoil (h : Orderly d) (hk : d.phase k ≠ .closed) (p : Phase) : Orderly (d.setPhase k p) where
  size := h.size.trans (congrArg (· + 1) List.length_set.symm)
  inside j hj := by
    by_cases hjk : k = j
    · exact h.inside j (hjk ▸ hk)
    · exact h.inside j (phase_setPhase_ne hjk d p ▸ hj)

theorem finish (h : Orderly d) (k : Nat) (κ : Command) :
    Orderly ((d.setPhase k .closed).command (connectionOf k) κ).2 where
  size := by
    refine (Engine.length_command _ _ κ).trans (h.size.trans ?_)
    exact congrArg (· + 1) List.length_set.symm
  inside j hj := by
    have hp : ((d.setPhase k .closed).command (connectionOf k) κ).2.phase j = (d.setPhase k .closed).phase j :=
      phase_congr rfl j
    rw [hp] at hj
    have hjk : k ≠ j := fun heq => hj (heq ▸ phase_setPhase_closed d k)
    rw [phase_setPhase_ne hjk] at hj
    have hne : connectionOf k ≠ connectionOf j := fun heq => hjk (Nat.succ.inj heq)
    exact (congrArg Connection.inTransaction (Engine.connection_command_ne hne _ κ)).trans (h.inside j hj)

theorem begin (h : Orderly d) : Orderly d.begin.2 := by
  obtain ⟨-, hphases, -, hconnections⟩ := d.begin_ok
  refine ⟨?_, fun k hk => ?_⟩
  · rw [hphases, hconnections, List.length_append, List.length_append, h.size]
    rfl
  · rw [Engine.connection, hconnections]
    by_cases hlt : k < d.phases.length
    · have hp : d.begin.2.phase k = d.phase k := by
        rw [phase, hphases, List.getElem?_append_left hlt, phase]
      rw [List.getElem?_append_left (h.size ▸ Nat.succ_lt_succ hlt)]
      exact h.inside k (hp ▸ hk)
    · by_cases heq : k = d.phases.length
      · have hc : connectionOf k = d.engine.connections.length := by rw [h.size, heq]; rfl
        rw [hc, List.getElem?_concat_length]
        rfl
      · -- A transaction that has not begun counts as closed.
        refine absurd ?_ hk
        rw [phase, hphases, List.getElem?_eq_none, Option.getD_none]
        rw [List.length_append]
        exact Nat.lt_of_le_of_ne (Nat.le_of_not_lt hlt) (Ne.symm heq)

theorem closing (h : Orderly d) (ofFault : Fault → ε) {u : Use ε α} (hu : u.Closes k) :
    Orderly (d.serve ofFault u).2 := by
  rcases serve_closes ofFault d hu with heq | ⟨κ, heq⟩
  · rw [heq]
    exact h
  · rw [heq]
    exact h.finish k κ

theorem serve (h : Orderly d) (ofFault : Fault → ε) (u : Use ε α) : Orderly (d.serve ofFault u).2 := by
  cases u with
  | begin => exact h.begin
  | commit k => exact h.closing ofFault (.inl rfl)
  | rollback k => exact h.closing ofFault (.inr rfl)
  | work place w =>
    cases place with
    | shared => exact h.work shared w
    | atomic =>
      have hw := whole_runAtomic ofFault d w
      exact h.congr hw.phases hw.length fun k => hw.inTransaction nofun
    | inside k =>
      have hin := inside_runIn ofFault d k w
      simp only [Database.serve, workAt]
      generalize (d.runIn k ofFault w).1 = outcome at hin
      generalize (d.runIn k ofFault w).2 = d' at hin
      cases hin with
      | closed hp => exact h
      | spoiled hp => exact h
      | failed hp hw =>
        have hd := h.work (connectionOf k) w
        rw [hw] at hd
        refine hd.spoil ?_ .spoiled
        rw [phase_congr (phases_of_work hw), hp]
        exact fun hclosed => Phase.noConfusion hclosed
      | kept hp hw ho =>
        have hd := h.work (connectionOf k) w
        rw [hw] at hd
        exact hd

theorem after (h : Orderly d) (ofFault : Fault → ε) (us : List (Use ε α)) : Orderly (d.after ofFault us) := by
  induction us generalizing d with
  | nil => exact h
  | cons u us ih => exact ih (h.serve ofFault u)

/-- The shared connection is in a transaction after a use if it was before, or if the use broke down there. -/
theorem shared_serve (h : Orderly d) (ofFault : Fault → ε) (u : Use ε α) :
    ((d.serve ofFault u).2.engine.connection shared).inTransaction = true ↔
      (d.engine.connection shared).inTransaction = true ∨ Breaks (u, (d.serve ofFault u).1) := by
  have same : ((d.serve ofFault u).2.engine.connection shared).inTransaction =
      (d.engine.connection shared).inTransaction → (∀ w, u ≠ .work .atomic w) →
      (((d.serve ofFault u).2.engine.connection shared).inTransaction = true ↔
        (d.engine.connection shared).inTransaction = true ∨ Breaks (u, (d.serve ofFault u).1)) :=
    fun heq hno => by rw [heq, or_iff_left fun hb => hb.atomic.elim hno]
  have closing : ∀ {k}, u.Closes k → ((d.serve ofFault u).2.engine.connection shared).inTransaction =
      (d.engine.connection shared).inTransaction := by
    intro k hu
    rcases serve_closes ofFault d hu with heq | ⟨κ, heq⟩
    · rw [heq]
    · have hne : connectionOf k ≠ shared := nofun
      rw [heq]
      exact congrArg Connection.inTransaction (Engine.connection_command_ne hne _ κ)
  cases u with
  | begin =>
    refine same ?_ (by rintro w ⟨⟩)
    rw [Database.serve, Engine.connection, d.begin_ok.2.2.2, List.getElem?_append_left h.shared_lt, Engine.connection]
  | commit k => exact same (closing (.inl rfl)) (by rintro w ⟨⟩)
  | rollback k => exact same (closing (.inr rfl)) (by rintro w ⟨⟩)
  | work place w =>
    cases place with
    | shared => exact same (d.inTransaction_work shared w shared) (by rintro w ⟨⟩)
    | inside k =>
      refine same ?_ (by rintro w ⟨⟩)
      rw [Database.serve, workAt]
      rcases engine_runIn ofFault d k w with heq | heq
      · rw [heq]
      · rw [heq, inTransaction_work]
    | atomic =>
      simp only [Database.serve, workAt]
      by_cases hin : (d.engine.connection shared).inTransaction = true
      · rw [runAtomic_refused hin]
        exact iff_of_true hin (.inl hin)
      · have hidle := (d.engine.connection_idle_iff shared).mpr (eq_false_of_ne_true hin)
        rw [((whole_runAtomic ofFault d w).leaves h.shared_lt hidle).open_iff, or_iff_right hin]
        constructor
        · intro hb
          exact ⟨w, by rw [hb]⟩
        · rintro ⟨w', hw'⟩
          exact Reply.ended.inj (Prod.mk.inj hw').2

theorem shared_after (h : Orderly d) (ofFault : Fault → ε) (us : List (Use ε α)) :
    ((d.after ofFault us).engine.connection shared).inTransaction = true ↔
      (d.engine.connection shared).inTransaction = true ∨ ∃ x ∈ d.transcript ofFault us, Breaks x := by
  induction us generalizing d with
  | nil => exact (or_iff_left nofun).symm
  | cons u us ih =>
    refine (ih (h.serve ofFault u)).trans ?_
    rw [h.shared_serve, transcript, or_assoc]
    simp only [List.mem_cons, exists_eq_or_imp]

end Orderly

theorem lt_of_open (h : d.phase k ≠ .closed) : k < d.phases.length := by
  refine Nat.lt_of_not_le fun hle => h ?_
  rw [phase, List.getElem?_eq_none hle, Option.getD_none]

theorem runIn_refused (h : d.phase k ≠ .active) (w : Work ε α) : ∃ e, d.runIn k ofFault w = (.failed e, d) := by
  cases hp : d.phase k with
  | active => exact absurd hp h
  | closed => exact ⟨_, runIn_closed hp w⟩
  | spoiled => exact ⟨_, runIn_spoiled hp w⟩

theorem commit_refused (h : d.phase k ≠ .active) : ∃ f, (d.commit k).1 = .error f := by
  cases hp : d.phase k with
  | active => exact absurd hp h
  | closed => exact ⟨_, congrArg Prod.fst (commit_closed hp)⟩
  | spoiled => exact (commit_spoiled hp).1

theorem runIn_failed (hp : d.phase k = .active) (h : (d.runIn k ofFault w).1 = .failed e) :
    (d.runIn k ofFault w).2.phase k = .spoiled := by
  have hk : k < d.phases.length := lt_of_open (hp ▸ nofun)
  have hin := inside_runIn ofFault d k w
  rw [h] at hin
  generalize (d.runIn k ofFault w).2 = d' at hin ⊢
  cases hin with
  | closed hc => exact nomatch hc.symm.trans hp
  | spoiled hc => exact nomatch hc.symm.trans hp
  | failed _ hw => rw [phase_setPhase ((phases_of_work hw).symm ▸ hk), if_pos rfl]
  | kept _ _ ho => exact absurd rfl (ho e)

/-- A unit of work that does not fail leaves its transaction open, with all that was noted in it. -/
theorem runIn_kept (hd : Orderly d) (hp : d.phase k = .active) (h : ∀ e, (d.runIn k ofFault w).1 ≠ .failed e) :
    let d' := (d.runIn k ofFault w).2
    d' = (d.work (connectionOf k) w).2 ∧ d'.phase k = .active ∧ d'.engine.committed = d.engine.committed ∧
      ((d'.commit k).1 = .ok () → (d'.commit k).2.engine.committed =
        d.engine.committed.apply (d'.engine.connection (connectionOf k)).noted) := by
  intro d'
  have hinside := hd.inside k (hp ▸ nofun)
  have hwork : d' = (d.work (connectionOf k) w).2 := by
    have hin := inside_runIn ofFault d k w
    generalize (d.runIn k ofFault w).1 = outcome at hin h
    change Inside ofFault d k w outcome d' at hin
    generalize d' = d'' at hin ⊢
    cases hin with
    | closed hc => exact absurd rfl (h _)
    | spoiled hc => exact absurd rfl (h _)
    | failed _ hw => exact absurd rfl (h _)
    | kept _ hw _ => rw [hw]
  have hphase : d'.phase k = .active := by rw [hwork, phase_congr (phases_work _ _ _), hp]
  have hcommitted : d'.engine.committed = d.engine.committed := by rw [hwork, committed_work hinside]
  refine ⟨hwork, hphase, hcommitted, fun hok => ?_⟩
  have hinside' : (d'.engine.connection (connectionOf k)).inTransaction = true := by
    rw [hwork, inTransaction_work, hinside]
  rw [commit_active hphase] at hok ⊢
  rw [← hcommitted]
  exact Engine.committed_commit hinside' hok

/-- Whatever was asked of a database before, its shared connection is in a transaction exactly if a unit of work to be
done as a whole has broken down there. Before that such a unit is begun, and leaves the connection free and, if it
fails, all that others see as it was; after that no such unit is begun again, and nothing done on the connection is seen
by others. In a transaction of its own a unit that fails is the last one, and there is no commit; one that breaks down
counts as no failure: the transaction takes more work, and its commit makes visible what had been done until then. -/
theorem breakdown (ofFault : Fault → ε) (file : Option String) (schema : String) (tables : List Table)
    (us : List (Use ε α)) :
    let d := (ofTables file schema tables).after ofFault us
    let wedged := ∃ x ∈ (ofTables file schema tables).transcript ofFault us, Breaks x
    (d.engine.connection shared = .idle ↔ ¬ wedged) ∧
    (∀ w : Work ε α,
      (¬ wedged → ∃ d₁, d.command shared .begin = (.ok (), d₁) ∧
        ((d.runAtomic ofFault w).1 = .broken ↔ (d₁.work shared w).1 = .broken) ∧
        Leaves d (d.runAtomic ofFault w).1 (d.runAtomic ofFault w).2) ∧
      (wedged →
        d.runAtomic ofFault w =
          (.failed (ofFault (.engine "TransactionContext Error: cannot start a transaction within a transaction")),
            d.record shared (.command .begin)) ∧
        (d.run w).2.engine.committed = d.engine.committed)) ∧
    ∀ k (w : Work ε α), d.phase k = .active →
      let d' := (d.runIn k ofFault w).2
      (∀ e, (d.runIn k ofFault w).1 = .failed e → ∀ vs : List (Use ε α),
        (∀ w' : Work ε α, ∃ e', (d'.after ofFault vs).runIn k ofFault w' = (.failed e', d'.after ofFault vs)) ∧
        ∃ f, ((d'.after ofFault vs).commit k).1 = .error f) ∧
      ((d.runIn k ofFault w).1 = .broken →
        d' = (d.work (connectionOf k) w).2 ∧ d'.phase k = .active ∧ d'.engine.committed = d.engine.committed ∧
        ((d'.commit k).1 = .ok () → (d'.commit k).2.engine.committed =
          d.engine.committed.apply (d'.engine.connection (connectionOf k)).noted)) := by
  intro d wedged
  have h₀ := orderly_ofTables file schema tables
  have hd : Orderly d := h₀.after ofFault us
  have hwedged : (d.engine.connection shared).inTransaction = true ↔ wedged :=
    (h₀.shared_after ofFault us).trans (or_iff_right nofun)
  have hidle : d.engine.connection shared = .idle ↔ ¬ wedged := by
    rw [Engine.connection_idle_iff, ← hwedged, Bool.not_eq_true]
  refine ⟨hidle, fun w => ⟨fun hfree => ?_, fun hstuck => ?_⟩, fun k w hp => ?_⟩
  -- As long as nothing has broken down, on the shared connection, after that, and in a transaction of its own.
  · have hb := command_begin (hidle.mpr hfree)
    have hwhole := whole_runAtomic ofFault d w
    refine ⟨_, hb, ?_, hwhole.leaves hd.shared_lt (hidle.mpr hfree)⟩
    generalize (d.runAtomic ofFault w).1 = outcome at hwhole ⊢
    generalize (d.runAtomic ofFault w).2 = d' at hwhole
    cases hwhole with
    | refused hb' => exact nomatch (Prod.mk.inj (hb'.symm.trans hb)).1
    | committed hb' hw hc =>
      obtain ⟨-, rfl⟩ := Prod.mk.inj (hb'.symm.trans hb)
      exact iff_of_false nofun (by rw [hw]; nofun)
    | uncommitted hb' hw hc =>
      obtain ⟨-, rfl⟩ := Prod.mk.inj (hb'.symm.trans hb)
      exact iff_of_false nofun (by rw [hw]; nofun)
    | undone hb' hw =>
      obtain ⟨-, rfl⟩ := Prod.mk.inj (hb'.symm.trans hb)
      exact iff_of_false nofun (by rw [hw]; nofun)
    | left hb' hw =>
      obtain ⟨-, rfl⟩ := Prod.mk.inj (hb'.symm.trans hb)
      exact iff_of_true rfl (by rw [hw])
  · have hin := hwedged.mpr hstuck
    exact ⟨runAtomic_refused hin w, committed_work hin w⟩
  · refine ⟨fun e he vs => ?_, fun hbroken => runIn_kept hd hp (hbroken ▸ nofun)⟩
    have hspoiled := runIn_failed hp he
    have hk := lt_of_open (d := (d.runIn k ofFault w).2) (by rw [hspoiled]; nofun)
    have hinactive : ((d.runIn k ofFault w).2.after ofFault vs).phase k ≠ .active := fun hactive =>
      nomatch hspoiled.symm.trans ((active_after_iff hk).mp hactive).1
    exact ⟨fun w' => runIn_refused hinactive w', commit_refused hinactive⟩

/-- Once a unit of work has broken down halfway, nothing is written as a whole any more. -/
theorem wedged_by_breakdown :
    let d := ofTables none "main" [names]
    let d' := (d.runAtomic id (nameRows "a" [0, 1])).2
    (d.runAtomic id (nameRows "a" [0, 1])).1 = .broken ∧
      (d'.runAtomic id (nameRows "b" [0])).1 =
        .failed (.engine "TransactionContext Error: cannot start a transaction within a transaction") :=
  ⟨rfl, rfl⟩

end Database

end QueryGateway.Store
