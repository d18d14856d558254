import QueryGateway.Proofs.Gateway.Order
import QueryGateway.Proofs.Rpc.Parameters
import QueryGateway.Proofs.Store.Units
import QueryGateway.Proofs.Store.Views

namespace QueryGateway
set_option autoImplicit true

open Store Rpc

/-- What makes a request one that is refused before the store. -/
inductive Refused (method : String) (params : Option Json) : Prop where
  | unknown : (∀ m : Method, m.name ≠ method) → Refused method params
  | notMembers : (∀ ms, ¬ Gateway.GivesMembers params ms) → Refused method params
  | missing {m : Method} {ms : List (String × Json)} {p : Member} : m.name = method → Gateway.GivesMembers params ms →
      p ∈ m.schema → p.required = true → (∀ v, (p.name, v) ∉ ms) → Refused method params
  | wrongType {m : Method} {ms : List (String × Json)} {p : Member} {v : Json} : m.name = method →
      Gateway.GivesMembers params ms → p ∈ m.schema → (p.name, v) ∈ ms → ¬ p.Admits v → Refused method params
  | unknownMember {m : Method} {ms : List (String × Json)} {name : String} {v : Json} : m.name = method →
      Gateway.GivesMembers params ms → (name, v) ∈ ms → (∀ p ∈ m.schema, p.name ≠ name) → Refused method params
  | badArgument {ms : List (String × Json)} {items : List Json} {v : Json} : Method.executeQuery.name = method →
      Gateway.GivesMembers params ms → ms.lookup "args" = some (.array items) → v ∈ items → ¬ IsArgument v →
      Refused method params

/-- What is left when a unit of work has failed in the transaction `k`, under the handle `x`: the transaction is spoiled,
and its commit tells so and changes nothing; all others are as they were. -/
structure Aborted (g g' : Gateway) (x : String) (k now : Nat) : Prop where
  spoiled : g'.session.world.phase k = .spoiled
  others : ∀ j, j ≠ k → g'.session.world.phase j = g.session.world.phase j
  handles : ∀ y, g'.session.registry.find? y = (g.session.registry.find? y).map (Transactions.Registry.touched x now)
  committed : g'.session.world.engine.committed = g.session.world.engine.committed
  commit : ∀ clock, (g'.answerCall clock (.commit x)).1 = .error (.ofFault .aborted) ∧
    (g'.answerCall clock (.commit x)).2.session.world.engine.committed = g.session.world.engine.committed

namespace Rpc.Method

theorem name_injective {m m' : Method} (h : m.name = m'.name) : m = m' :=
  Option.some.inj ((ofName?_name m).symm.trans ((congrArg ofName? h).trans (ofName?_name m')))

theorem ofName?_eq_none (h : ∀ m : Method, m.name ≠ method) : ofName? method = none :=
  List.find?_eq_none.mpr fun m _ hm => h m (beq_iff_eq.mp hm)

theorem schema_member_eq (m : Method) {p p' : Member} (hp : p ∈ m.schema) (hp' : p' ∈ m.schema)
    (h : p.name = p'.name) : p = p' :=
  List.inj_on_of_nodup_map m.schema_nodup hp hp' h

end Rpc.Method

theorem Gateway.GivesMembers.unique (h : GivesMembers params ms) (h' : GivesMembers params ms') : ms = ms' := by
  rcases h with ⟨rfl, rfl⟩ | rfl
  · rcases h' with ⟨-, rfl⟩ | heq
    · rfl
    · exact nomatch heq
  · rcases h' with ⟨heq, -⟩ | heq
    · exact nomatch heq
    · exact Json.object.inj (Option.some.inj heq)

namespace Refused

theorem iff_not_takes (m : Method) (hms : Gateway.GivesMembers params ms) : Refused m.name params ↔ ¬ m.Takes ms := by
  constructor
  · rintro (hunknown | hnone | ⟨hm, hg, hp, hr, hmissing⟩ | ⟨hm, hg, hp, hv, hwrong⟩ | ⟨hm, hg, hv, hno⟩ |
      ⟨hm, hg, hl, hv, hbad⟩) htakes
    · exact hunknown m rfl
    · exact hnone ms hms
    · cases Method.name_injective hm
      cases hms.unique hg
      obtain ⟨v, hv⟩ := htakes.present _ hp hr
      exact hmissing v hv
    · cases Method.name_injective hm
      cases hms.unique hg
      obtain ⟨p, hp', hn, ha⟩ := htakes.known _ _ hv
      rw [m.schema_member_eq hp' hp hn] at ha
      exact hwrong ha
    · cases Method.name_injective hm
      cases hms.unique hg
      obtain ⟨p, hp, hn, -⟩ := htakes.known _ _ hv
      exact hno p hp hn
    · cases hms.unique hg
      exact hbad (htakes.arguments (Method.name_injective hm).symm _ hl _ hv)
  · intro hnot
    by_contra hrefused
    refine hnot ⟨fun name v hv => ?_, fun p hp hr => ?_, fun hm items hl v hv => ?_⟩
    · by_contra hno
      by_cases hknown : ∃ p ∈ m.schema, p.name = name
      · obtain ⟨p, hp, rfl⟩ := hknown
        exact hrefused (.wrongType rfl hms hp hv fun ha => hno ⟨p, hp, rfl, ha⟩)
      · exact hrefused (.unknownMember rfl hms hv fun p hp hn => hknown ⟨p, hp, hn⟩)
    · by_contra hno
      exact hrefused (.missing rfl hms hp hr fun v hv => hno ⟨v, hv⟩)
    · subst hm
      by_contra hbad
      exact hrefused (.badArgument rfl hms hl hv hbad)

end Refused

namespace Gateway

variable {g : Gateway} {clock : Clock}

/-- A refused request is answered with the code of its kind, and nothing else is done. -/
theorem invoke_refused (g : Gateway) (clock : Clock) (hp : params ≠ some .null) (h : Refused method params) :
    ∃ f, g.invoke clock method params = (.error f, g) ∧
      ((∀ m : Method, m.name ≠ method) ∧ f.kind = .methodNotFound ∨
        (∃ m : Method, m.name = method) ∧ f.kind = .invalidParams) := by
  by_cases hm : ∃ m : Method, m.name = method
  · obtain ⟨m, rfl⟩ := hm
    cases hparams : paramsOf params with
    | error f =>
      refine ⟨f, invoke_misformed g clock (Method.ofName?_name m) hparams, .inr ⟨⟨m, rfl⟩, ?_⟩⟩
      rw [paramsOf_error hparams]
      rfl
    | ok ms =>
      have hms := (givesMembers_iff hp).mpr hparams
      cases hc : Call.ofParams m ms with
      | ok c => exact absurd ((Call.ofParams_ok_iff m ms).mp ⟨c, hc⟩) ((Refused.iff_not_takes m hms).mp h)
      | error f =>
        obtain ⟨message, rfl⟩ := Call.ofParams_error hc
        exact ⟨_, invoke_unbound g clock (Method.ofName?_name m) hparams hc, .inr ⟨⟨m, rfl⟩, rfl⟩⟩
  · have hunknown : ∀ m : Method, m.name ≠ method := fun m hn => hm ⟨m, hn⟩
    exact ⟨_, invoke_unknown g clock (Method.ofName?_eq_none hunknown), .inl ⟨hunknown, rfl⟩⟩

theorem invoke_accepted (g : Gateway) (clock : Clock) (hp : params ≠ some .null) (h : ¬ Refused method params) :
    ∃ (m : Method) (ms : List (String × Json)) (c : Call), m.name = method ∧ GivesMembers params ms ∧
      Call.ofParams m ms = .ok c ∧ g.invoke clock method params = g.answerCall clock c := by
  obtain ⟨m, rfl⟩ : ∃ m : Method, m.name = method := by
    by_contra hno
    exact h (.unknown fun m hn => hno ⟨m, hn⟩)
  obtain ⟨ms, hms⟩ : ∃ ms, GivesMembers params ms := by
    by_contra hno
    exact h (.notMembers fun ms hms => hno ⟨ms, hms⟩)
  obtain ⟨c, hc⟩ := (Call.ofParams_ok_iff m ms).mpr (not_not.mp fun hno => h ((Refused.iff_not_takes m hms).mpr hno))
  exact ⟨m, ms, c, rfl, hms, hc, invoke_bound g clock (Method.ofName?_name m) ((givesMembers_iff hp).mp hms) hc⟩

theorem runIn_total (x : Execution) (d : Database) (k : Nat) (a : Action) :
    (d.runIn k Failure.ofFault (work x a)).1 ≠ .broken := by
  have hin := Database.inside_runIn Failure.ofFault d k (work x a)
  intro hbroken
  rw [hbroken] at hin
  generalize (d.runIn k Failure.ofFault (work x a)).2 = d' at hin
  cases hin with
  | kept hp hw ho => exact Database.work_total (work_total x a) d _ (congrArg Prod.fst hw)

theorem settle_eq_error (h : settle m outcome = .error f) (hb : outcome ≠ .broken) : outcome = .failed f := by
  cases outcome with
  | done v => exact nomatch h
  | failed f' => exact congrArg Outcome.failed (Except.error.inj h)
  | broken => exact absurd rfl hb

theorem phase_runIn_ne (d : Database) (w : Work Failure Json) (hj : j ≠ k) :
    (d.runIn k .ofFault w).2.phase j = d.phase j := by
  have hin := Database.inside_runIn Failure.ofFault d k w
  generalize (d.runIn k Failure.ofFault w).1 = outcome at hin
  generalize (d.runIn k Failure.ofFault w).2 = d' at hin ⊢
  cases hin with
  | closed => rfl
  | spoiled => rfl
  | failed hp hw =>
    rw [Database.phase_setPhase_ne (Ne.symm hj)]
    exact Database.phase_congr (Database.phases_of_work hw) j
  | kept hp hw => exact Database.phase_congr (Database.phases_of_work hw) j

theorem committed_runIn (d : Database) (hd : d.Orderly) (w : Work Failure Json) (hp : d.phase k ≠ .closed) :
    (d.runIn k .ofFault w).2.engine.committed = d.engine.committed := by
  rcases Database.engine_runIn Failure.ofFault d k w with hsame | hwork
  · rw [hsame]
  · rw [hwork, Database.committed_work (hd.inside k hp)]

theorem commit_aborted {d : Database} (hd : d.Orderly) (hp : d.phase k = .spoiled) :
    (d.commit k).1 = .error .aborted := by
  have hinside : (d.engine.connection (Database.connectionOf k)).inTransaction = true :=
    hd.inside k fun hclosed => nomatch hp.symm.trans hclosed
  have hrollback : ((d.setPhase k .closed).command (Database.connectionOf k) .rollback).1 = .ok () :=
    congrArg Prod.fst (Engine.rollback_inside hinside)
  unfold Database.commit
  rw [hp]
  simp only
  split
  · next hfailed => exact nomatch (congrArg Prod.fst hfailed).symm.trans hrollback
  · rfl

theorem answerCall_commit (hx : g.session.registry.find? x = some e) (clock : Clock) :
    (g.answerCall clock (.commit x)).1 =
        ((g.session.world.commit e.transaction).1.map fun _ => status "committed" []).mapError .ofFault ∧
      (g.answerCall clock (.commit x)).2.session.world = (g.session.world.commit e.transaction).2 := by
  have hcommit : g.session.commit finisher x =
      ((g.session.world.commit e.transaction).1.mapError .store,
        ⟨g.session.registry.keep (Transactions.handle ·.number != x), (g.session.world.commit e.transaction).2⟩) := by
    unfold Transactions.Session.commit Transactions.Session.finish Transactions.Registry.take?
    rw [hx]
    rfl
  rw [answerCall, hcommit]
  cases (g.session.world.commit e.transaction).1 with
  | ok u => exact ⟨rfl, rfl⟩
  | error f => exact ⟨rfl, rfl⟩

theorem act_aborted (h : InOrder g.session) (now : Nat) (a : Action) (hx : g.session.registry.find? x = some e)
    (hf : (g.act now a (some x)).1 = .error f) : Aborted g (g.act now a (some x)).2 x e.transaction now := by
  obtain ⟨r, hu⟩ := Transactions.Registry.use?_of_some hx now
  have hopen := h.unfinished e (Transactions.Registry.find?_some hx).1
  have hafter := inOrder_act h now a (some x)
  rw [act_inside hu] at hf hafter ⊢
  have hfailed := settle_eq_error hf (runIn_total g.execution _ _ a)
  have hspoiled :
      (g.session.world.runIn e.transaction .ofFault (work g.execution a)).2.phase e.transaction = .spoiled := by
    cases hp : g.session.world.phase e.transaction with
    | closed => exact absurd hp hopen
    | spoiled => rw [Database.runIn_spoiled hp, hp]
    | active => exact Database.runIn_failed hp hfailed
  have hcommitted := committed_runIn g.session.world h.connected (work g.execution a) hopen
  have hhandles := Transactions.Registry.find?_use? hu
  refine ⟨hspoiled, fun j => phase_runIn_ne _ _, hhandles, hcommitted, fun clock => ?_⟩
  have hx' := (hhandles x).trans (congrArg _ hx)
  obtain ⟨htold, hworld⟩ := answerCall_commit (g := { g with session := ⟨r, _⟩ }) hx' clock
  rw [htold, hworld, Transactions.Registry.touched_transaction, commit_aborted hafter.connected hspoiled]
  exact ⟨rfl, (Database.commit_spoiled hspoiled).2.committed.trans hcommitted⟩

/-- A unit of work that is done spoils nothing. -/
theorem phase_act_done (hx : g.session.registry.find? x = some e) (a : Action) (hv : (g.act now a (some x)).1 = .ok v)
    (j : Nat) : (g.act now a (some x)).2.session.world.phase j = g.session.world.phase j := by
  obtain ⟨r, hu⟩ := Transactions.Registry.use?_of_some hx now
  rw [act_inside hu] at hv ⊢
  have hin := Database.inside_runIn Failure.ofFault g.session.world e.transaction (work g.execution a)
  generalize hoc : (g.session.world.runIn e.transaction Failure.ofFault (work g.execution a)).1 = outcome at hin hv
  generalize (g.session.world.runIn e.transaction Failure.ofFault (work g.execution a)).2 = d' at hin ⊢
  cases hin with
  | closed => exact nomatch hv
  | spoiled => exact nomatch hv
  | failed => exact nomatch hv
  | kept hp hw => exact Database.phase_congr (Database.phases_of_work hw) j

theorem act_shared_phase (g : Gateway) (now : Nat) (a : Action) :
    (g.act now a none).2.session.registry = g.session.registry ∧
      ∀ j, (g.act now a none).2.session.world.phase j = g.session.world.phase j := by
  obtain ⟨place, hplace, heq⟩ := act_shared g now a
  rw [heq]
  refine ⟨rfl, Database.phase_congr ?_⟩
  cases place with
  | shared => exact Database.phases_work _ _ _
  | atomic => exact (Database.whole_runAtomic _ _ _).phases
  | inside k => exact absurd rfl (hplace k)

theorem act_of_fail (hx : g.session.registry.find? x = some e) (hp : g.session.world.phase e.transaction = .active)
    (hw : work g.execution a = Work.fail f) (now : Nat) : (g.act now a (some x)).1 = .error f := by
  obtain ⟨r, hu⟩ := Transactions.Registry.use?_of_some hx now
  rw [act_inside hu, (Database.runIn_active Failure.ofFault hp _).1, hw]
  rfl

theorem work_malformed (x : Execution) (args : List String) (h : Sql.Query.parse sql = .error err) :
    work x (.query sql args) = Work.fail (.ofQueryError err) := by
  have hread : Request.ofText sql args x.functions = .error err := by
    unfold Request.ofText
    rw [h]
    rfl
  have hexecute : x.executeText sql args = Work.fail (.ofQueryError err) := by
    unfold Execution.executeText
    rw [hread]
    rfl
  change (x.executeText sql args >>= fun rows => pure (Json.array (rows.map Json.object))) = _
  rw [hexecute]
  rfl

theorem kind_of_statementFault? (h : Sql.statementFault? cs = some fault) : fault.kind = .malformed := by
  unfold Sql.statementFault? at h
  split at h
  · cases h
    split
    · rfl
    · rfl
  · split at h
    · exact nomatch h
    · cases h
      rfl

theorem failure_of_parse (h : Sql.Query.parse sql = .error err) :
    ∃ message, Failure.ofQueryError err = ⟨.malformedQuery, message, none⟩ := by
  have hkind : err.kind = .malformed ∨ err.kind = .departure := by
    unfold Sql.Query.parse at h
    split at h
    · next hfault =>
      cases h
      exact .inl (kind_of_statementFault? hfault)
    · split at h
      · exact nomatch h
      · cases h
        split
        · exact .inr rfl
        · exact .inl rfl
  refine ⟨err.message, ?_⟩
  unfold Failure.ofQueryError
  rcases hkind with hkind | hkind
  · rw [hkind]
  · rw [hkind]

/-- Over every run: a request that is refused for its method or its parameters is answered with -32601 or -32602 and
leaves the tables, the open transactions, their times and their state as they were, whatever transaction it names, and
every other request is carried out. Each handle has a transaction of its own, and an error of a unit of work in it,
whatever it is, spoils that transaction and no other, as its commit tells later; such errors are those of a text that
is no query and of an upsert without key columns. A unit that succeeds spoils none, and neither does work outside of a
transaction. -/
theorem refusals_untouched (file : Option String) (schema : String) (tables : List Table) (x : Execution)
    (healthTable : Option String) (visits : List Visit) :
    let g := (Gateway.new (.ofTables file schema tables) x healthTable).after visits
    (∀ clock body w method params, Json.writtenBytes? body = some w → Asks w method params → Refused method params →
      ∃ code message, (g.handle clock body).1.2.result = .error ⟨code, message⟩ ∧
        ((∀ m : Method, m.name ≠ method) ∧ code = -32601 ∨ (∃ m : Method, m.name = method) ∧ code = -32602) ∧
        (g.handle clock body).2.session = g.session) ∧
    (∀ clock body w method params, Json.writtenBytes? body = some w → Asks w method params → ¬ Refused method params →
      ∃ (m : Method) (ms : List (String × Json)) (c : Call), m.name = method ∧ GivesMembers params ms ∧
        Call.ofParams m ms = .ok c ∧
        (g.handle clock body).1 = responseOf (idWritten (some w)) (g.answerCall clock c).1 ∧
        (g.handle clock body).2.session = (g.answerCall clock c).2.session) ∧
    (g.session.registry.entries.map (·.transaction)).Nodup ∧
    (∀ clock a h e f, g.session.registry.find? h = some e → (g.answerCall clock (.act a (some h))).1 = .error f →
      Aborted g (g.answerCall clock (.act a (some h))).2 h e.transaction clock.now) ∧
    (∀ clock a h e v, g.session.registry.find? h = some e → (g.answerCall clock (.act a (some h))).1 = .ok v →
      ∀ j, (g.answerCall clock (.act a (some h))).2.session.world.phase j = g.session.world.phase j) ∧
    (∀ clock a, (g.answerCall clock (.act a none)).2.session.registry = g.session.registry ∧
      ∀ j, (g.answerCall clock (.act a none)).2.session.world.phase j = g.session.world.phase j) ∧
    (∀ clock h e, g.session.registry.find? h = some e → g.session.world.phase e.transaction = .active →
      (∀ sql args err, Sql.Query.parse sql = .error err → ∃ message,
        (g.answerCall clock (.act (.query sql args) (some h))).1 = .error ⟨.malformedQuery, message, none⟩) ∧
      ∀ table data, (g.answerCall clock (.act (.upsert table data []) (some h))).1 =
        .error ⟨.invalidParams, "key_columns must not be empty", none⟩) := by
  intro g
  have horder : InOrder g.session := inOrder_after (.opened file schema tables) visits
  refine ⟨fun clock body w method params hw ha hr => ?_, fun clock body w method params hw ha hr => ?_,
    horder.distinct, fun clock a h e f hx hf => act_aborted horder clock.now a hx hf,
    fun clock a h e v hx hv => phase_act_done hx a hv, fun clock a => act_shared_phase g clock.now a,
    fun clock h e hx hp => ⟨fun sql args err herr => ?_, fun table data => ?_⟩⟩
  · obtain ⟨f, hf, hkind⟩ := invoke_refused g clock ha.params_ne_null hr
    rw [handle_of_asks g clock hw ha, call_session, call_result, hf]
    refine ⟨f.kind.code, f.message, rfl, ?_, rfl⟩
    exact hkind.imp (fun ⟨hno, hk⟩ => ⟨hno, by rw [hk]; rfl⟩) fun ⟨hm, hk⟩ => ⟨hm, by rw [hk]; rfl⟩
  · obtain ⟨m, ms, c, hm, hms, hc, heq⟩ := invoke_accepted g clock ha.params_ne_null hr
    refine ⟨m, ms, c, hm, hms, hc, ?_⟩
    rw [handle_of_asks g clock hw ha, call_session, call_result, heq]
    exact ⟨rfl, rfl⟩
  · obtain ⟨message, hmessage⟩ := failure_of_parse herr
    exact ⟨message, hmessage ▸ act_of_fail hx hp (work_malformed g.execution args herr) clock.now⟩
  · exact act_of_fail hx hp rfl clock.now

end Gateway

end QueryGateway
