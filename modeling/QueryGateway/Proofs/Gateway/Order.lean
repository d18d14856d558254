import QueryGateway.Proofs.Gateway.Handles
import QueryGateway.Proofs.Store.Breakdowns
import QueryGateway.Proofs.Transactions.Sweeps
import QueryGateway.Proofs.Gateway.Envelopes

namespace QueryGateway
set_option autoImplicit true

open Store Rpc Transactions

/-- The open transactions are in order: each is on its connection, has not been finished, and has one handle. -/
structure InOrder (s : Session Database Nat) : Prop where
  connected : s.world.Orderly
  unfinished : ∀ e ∈ s.registry.entries, s.world.phase e.transaction ≠ .closed
  distinct : (s.registry.entries.map (·.transaction)).Nodup

namespace InOrder

variable {s : Session Database Nat} {d : Database} {r : Registry Nat}

theorem opened (file : Option String) (schema : String) (tables : List Table) :
    InOrder ⟨.empty, .ofTables file schema tables⟩ :=
  ⟨Database.orderly_ofTables file schema tables, nofun, .nil⟩

theorem kept (h : InOrder s) (p : Entry Nat → Bool) : InOrder ⟨s.registry.keep p, s.world⟩ where
  connected := h.connected
  unfinished e he := h.unfinished e (List.mem_filter.mp he).1
  distinct := h.distinct.sublist (List.filter_sublist.map _)

theorem used (h : InOrder s) (hu : s.registry.use? x now = some (k, r)) : InOrder ⟨r, s.world⟩ := by
  obtain ⟨e, -, heq⟩ := Option.map_eq_some_iff.mp hu
  cases heq
  have htransactions : (s.registry.entries.map (Registry.touched x now)).map (·.transaction) =
      s.registry.entries.map (·.transaction) := by
    rw [List.map_map]
    exact List.map_congr_left fun e _ => Registry.touched_transaction x now e
  refine ⟨h.connected, fun e he => ?_, ?_⟩
  · obtain ⟨e', hm, rfl⟩ := List.mem_map.mp he
    rw [Registry.touched_transaction]
    exact h.unfinished e' hm
  · change ((s.registry.entries.map (Registry.touched x now)).map (·.transaction)).Nodup
    rw [htransactions]
    exact h.distinct

/-- What is asked of the database leaves the transactions open that it does not close. -/
theorem served (h : InOrder s) (ofFault : Fault → ε) (u : Use ε α)
    (hu : ∀ e ∈ s.registry.entries, ¬ u.Closes e.transaction) :
    InOrder ⟨s.registry, (s.world.serve ofFault u).2⟩ where
  connected := h.connected.serve ofFault u
  unfinished e he hc := by
    have hk := Database.lt_of_open (h.unfinished e he)
    rcases (Database.closed_serve_iff hk).mp hc with hclosed | hcloses
    · exact h.unfinished e he hclosed
    · exact hu e he hcloses
  distinct := h.distinct

theorem begun (h : InOrder s) (now : Nat) (hb : s.world.begin = (.ok k, d)) :
    InOrder ⟨(s.registry.add k now).2, d⟩ := by
  obtain ⟨hk, hphases, -, -⟩ := s.world.begin_ok
  rw [hb] at hk hphases
  cases Except.ok.inj hk
  have hserved := h.served Failure.ofFault (.begin : Use Failure Json) fun _ _ => nofun
  have hd : (s.world.serve Failure.ofFault (.begin : Use Failure Json)).2 = d := congrArg Prod.snd hb
  rw [hd] at hserved
  have htransactions : (s.registry.add s.world.phases.length now).2.entries.map (·.transaction) =
      s.registry.entries.map (·.transaction) ++ [s.world.phases.length] := List.map_append
  refine ⟨hserved.connected, fun e he => ?_, ?_⟩
  · rcases List.mem_append.mp he with hold | hnew
    · exact hserved.unfinished e hold
    · rw [List.mem_singleton.mp hnew, Database.phase, hphases, List.getElem?_concat_length]
      intro hclosed
      cases hclosed
  · rw [htransactions]
    refine List.nodup_append'.mpr ⟨h.distinct, List.nodup_singleton _, fun j hj hlast => ?_⟩
    -- An open transaction is one of those that the database had before.
    obtain ⟨e, he, rfl⟩ := List.mem_map.mp hj
    exact Nat.ne_of_lt (Database.lt_of_open (h.unfinished e he)) (List.mem_singleton.mp hlast)

theorem apart (h : InOrder s) {p : Entry Nat → Bool} (he : e ∈ s.registry.entries) (hp : p e = true)
    (he' : e' ∈ (s.registry.keep (!p ·)).entries) : e.transaction ≠ e'.transaction := by
  intro heq
  obtain ⟨hm, hnot⟩ := List.mem_filter.mp he'
  rw [← List.inj_on_of_nodup_map h.distinct he hm heq, hp] at hnot
  exact nomatch hnot

theorem finished (h : InOrder s) (f : Nat → Database → Except Fault Unit × Database)
    (hf : ∀ k d, ∃ u : Use Failure Json, (∀ j, u.Closes j → j = k) ∧ (f k d).2 = (d.serve .ofFault u).2) (x : String) :
    InOrder (s.finish f x).2 := by
  cases hx : s.registry.find? x with
  | none =>
    rw [Session.finish_none f hx]
    exact h
  | some e =>
    have hfinish : (s.finish f x).2 = ⟨s.registry.keep (handle ·.number != x), (f e.transaction s.world).2⟩ := by
      unfold Session.finish Registry.take?
      rw [hx]
      rfl
    obtain ⟨hm, hh⟩ := Registry.find?_some hx
    obtain ⟨u, hu, hd⟩ := hf e.transaction s.world
    rw [hfinish, hd]
    refine (h.kept (handle ·.number != x)).served .ofFault u fun e' he' hcloses => ?_
    exact h.apart (p := (handle ·.number == x)) hm (beq_iff_eq.mpr hh) he' (hu _ hcloses).symm

theorem not_closes_work {w : Work ε α} : ¬ (Use.work place w).Closes k := by
  rintro (heq | heq)
  · exact nomatch heq
  · exact nomatch heq

theorem closes_commit {k j : Nat} (h : (Use.commit k : Use Failure Json).Closes j) : j = k := by
  rcases h with heq | heq
  · exact (Use.commit.inj heq).symm
  · exact nomatch heq

theorem closes_rollback {k j : Nat} (h : (Use.rollback k : Use Failure Json).Closes j) : j = k := by
  rcases h with heq | heq
  · exact nomatch heq
  · exact (Use.rollback.inj heq).symm

theorem abandoned (ks : List Nat) : ∀ {d : Database}, InOrder ⟨r, d⟩ → (∀ e ∈ r.entries, e.transaction ∉ ks) →
    InOrder ⟨r, ks.foldl (fun d k => (d.rollback k).2) d⟩ := by
  induction ks with
  | nil => exact fun h _ => h
  | cons k ks ih =>
    intro d h hks
    refine ih (h.served Failure.ofFault (.rollback k : Use Failure Json) fun e he hcloses => ?_)
      fun e he hm => hks e he (List.mem_cons_of_mem _ hm)
    exact hks e he (closes_rollback hcloses ▸ List.mem_cons_self)

theorem expired (h : InOrder s) (now maxIdle : Nat) : InOrder (s.expire Gateway.finisher now maxIdle).2 := by
  refine abandoned _ (h.kept (!Registry.isStale now maxIdle ·)) fun e he hm => ?_
  obtain ⟨e', he', heq⟩ := List.mem_map.mp hm
  obtain ⟨hm', hp⟩ := List.mem_filter.mp he'
  exact h.apart hm' hp he heq

end InOrder

namespace Gateway

variable {g : Gateway}

theorem ping_world (d : Database) (table : Option String) :
    ∃ w : Work Fault Unit, (d.ping table).2 = (d.run w).2 := by
  unfold Database.ping
  dsimp only
  split
  · next h => exact ⟨_, (congrArg Prod.snd h).symm⟩
  · next h => exact ⟨_, (congrArg Prod.snd h).symm⟩

theorem inOrder_health (h : InOrder g.session) (timestamp : String) : InOrder (g.health timestamp).2.session := by
  have hsession : (g.health timestamp).2.session =
      ⟨g.session.registry, (g.session.world.ping g.healthTable).2⟩ := by
    rw [health]
    cases g.session.world.ping g.healthTable with
    | mk r d =>
      cases r with
      | ok u => rfl
      | error f => rfl
  obtain ⟨w, hw⟩ := ping_world g.session.world g.healthTable
  rw [hsession, hw]
  exact h.served id (.work .shared w) fun _ _ => nofun

theorem act_shared (g : Gateway) (now : Nat) (a : Action) :
    ∃ place, (∀ k, place ≠ .inside k) ∧ g.act now a none =
      (settle (methodOf a) (g.session.world.workAt .ofFault (work g.execution a) place).1,
        g.withDatabase (g.session.world.workAt .ofFault (work g.execution a) place).2) := by
  cases hw : isWrite a with
  | true => exact ⟨.atomic, nofun, by rw [act, hw]; rfl⟩
  | false => exact ⟨.shared, nofun, by rw [act, hw]; rfl⟩

theorem act_transaction (g : Gateway) (now : Nat) (a : Action) (x : String) :
    g.act now a (some x) = (settle (methodOf a) (g.inTransaction now x (work g.execution a)).1,
      (g.inTransaction now x (work g.execution a)).2) := by
  cases hw : isWrite a with
  | true =>
    rw [act, hw]
    rfl
  | false =>
    rw [act, hw]
    rfl

theorem act_unknown (hu : g.session.registry.use? x now = none) (a : Action) :
    g.act now a (some x) = (.error (.ofTransactionError (.notFound x)), g) := by
  rw [act_transaction, inTransaction, hu]
  rfl

theorem act_inside (hu : g.session.registry.use? x now = some (k, r)) (a : Action) :
    g.act now a (some x) = (settle (methodOf a) (g.session.world.runIn k .ofFault (work g.execution a)).1,
      { g with session := ⟨r, (g.session.world.runIn k .ofFault (work g.execution a)).2⟩ }) := by
  rw [act_transaction, inTransaction, hu]

theorem inOrder_act (h : InOrder g.session) (now : Nat) (a : Action) (handle : Option String) :
    InOrder (g.act now a handle).2.session := by
  cases handle with
  | none =>
    obtain ⟨place, -, heq⟩ := act_shared g now a
    rw [heq]
    exact h.served Failure.ofFault (.work place (work g.execution a)) fun _ _ => InOrder.not_closes_work
  | some x =>
    cases hu : g.session.registry.use? x now with
    | none =>
      rw [act_unknown hu]
      exact h
    | some found =>
      obtain ⟨k, r⟩ := found
      rw [act_inside hu]
      exact (h.used hu).served Failure.ofFault (.work (.inside k) (work g.execution a)) fun _ _ => InOrder.not_closes_work

theorem inOrder_answerCall (h : InOrder g.session) (clock : Clock) (c : Call) :
    InOrder (g.answerCall clock c).2.session := by
  cases c with
  | ping => exact h
  | health => exact inOrder_health h _
  | begin =>
    unfold answerCall begin
    cases hb : g.session.world.begin with
    | mk result d =>
      cases result with
      | ok k => exact h.begun clock.now hb
      | error f => exact nomatch (congrArg Prod.fst hb).symm.trans g.session.world.begin_ok.1
  | commit handle =>
    exact h.finished _ (fun k d => ⟨.commit k, fun _ => InOrder.closes_commit, rfl⟩) handle
  | rollback handle =>
    exact h.finished _ (fun k d => ⟨.rollback k, fun _ => InOrder.closes_rollback, rfl⟩) handle
  | act a handle => exact inOrder_act h _ a handle

theorem call_session (g : Gateway) (clock : Clock) (method : String) (params : Option Json) :
    (g.call clock method params).2.session = (g.invoke clock method params).2.session :=
  rfl

theorem call_result (g : Gateway) (clock : Clock) (method : String) (params : Option Json) :
    (g.call clock method params).1 = (g.invoke clock method params).1 :=
  rfl

/-- A call leaves the transactions as they were, or does what it asks for. -/
theorem invoke_cases (g : Gateway) (clock : Clock) (method : String) (params : Option Json) :
    (g.invoke clock method params).2 = g ∨ ∃ c, g.invoke clock method params = g.answerCall clock c := by
  cases hm : Method.ofName? method with
  | none =>
    rw [invoke_unknown g clock hm]
    exact .inl rfl
  | some m =>
    cases hp : paramsOf params with
    | error f =>
      rw [invoke_misformed g clock hm hp]
      exact .inl rfl
    | ok ms =>
      cases hc : Call.ofParams m ms with
      | error f =>
        rw [invoke_unbound g clock hm hp hc]
        exact .inl rfl
      | ok c => exact .inr ⟨c, invoke_bound g clock hm hp hc⟩

theorem inOrder_handle (h : InOrder g.session) (clock : Clock) (body : ByteArray) :
    InOrder (g.handle clock body).2.session := by
  cases hw : Json.writtenBytes? body with
  | none =>
    have hr : (g.handle clock body).2 = g := by
      unfold handle
      rw [Json.readBytes?_eq, hw]
      rfl
    rw [hr]
    exact h
  | some w =>
    cases he : Envelope.ofJson w.merged with
    | error e =>
      rw [handle_of_refused g clock hw he]
      exact h
    | ok envelope =>
      have hread := read_envelope w
      rw [he] at hread
      cases hread with
      | @asks method params ha =>
        rw [handle_of_asks g clock hw ha, call_session]
        rcases invoke_cases g clock method params with hsame | ⟨c, hc⟩
        · rw [hsame]
          exact h
        · rw [hc]
          exact inOrder_answerCall h clock c

end Gateway

/-- What the gateway is asked for, one thing after the other. -/
inductive Visit where
  | body (clock : Clock) (bytes : ByteArray)
  | sweep (now maxIdle : Nat)

namespace Gateway

variable {g : Gateway}

def serve (g : Gateway) : Visit → Gateway
  | .body clock bytes => (g.handle clock bytes).2
  | .sweep now maxIdle => (g.expire now maxIdle).2

def after (g : Gateway) (visits : List Visit) : Gateway :=
  visits.foldl serve g

theorem inOrder_serve (h : InOrder g.session) (v : Visit) : InOrder (g.serve v).session := by
  cases v with
  | body clock bytes => exact inOrder_handle h clock bytes
  | sweep now maxIdle => exact h.expired now maxIdle

theorem inOrder_after (h : InOrder g.session) (visits : List Visit) : InOrder (g.after visits).session := by
  induction visits generalizing g with
  | nil => exact h
  | cons v visits ih => exact ih (inOrder_serve h v)

end Gateway

end QueryGateway
