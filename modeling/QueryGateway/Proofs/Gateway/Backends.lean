import QueryGateway.Proofs.Gateway.Envelopes
import QueryGateway.Proofs.Store.Units

namespace QueryGateway
set_option autoImplicit true

open Rpc Store Transactions

/-- Why something comes to no result: it fails, or it breaks down with a text about that. -/
inductive Trouble (ε : Type) where
  | failed (e : ε)
  | broken (text : String)

def Trouble.map (f : ε → ε') : Trouble ε → Trouble ε'
  | failed e => failed (f e)
  | broken text => broken text

/-- Changes a state and may come to trouble. -/
abbrev Act (σ ε α : Type) : Type :=
  σ → Except (Trouble ε) α × σ

namespace Act

variable {σ τ ε ε' α β : Type}

def ret (a : α) : Act σ ε α :=
  fun s => (.ok a, s)

def stop (t : Trouble ε) : Act σ ε α :=
  fun s => (.error t, s)

def andThen (x : Act σ ε α) (f : α → Act σ ε β) : Act σ ε β := fun s =>
  match x s with
  | (.ok a, s) => f a s
  | (.error t, s) => (.error t, s)

def mapFailure (f : ε → ε') (x : Act σ ε α) : Act σ ε' α :=
  fun s => ((x s).1.mapError (Trouble.map f), (x s).2)

def orElse (x : Act σ ε α) (change : σ → σ) : Act σ ε α := fun s =>
  match x s with
  | (.error (.failed e), s) => (.error (.failed e), change s)
  | r => r

/-- Undoes what was done if it fails. That the undoing fails is not told. -/
def undoneBy (x : Act σ ε α) (undo : Act σ Fault Unit) : Act σ ε α := fun s =>
  match x s with
  | (.error (.failed e), s) =>
    match undo s with
    | (.error (.broken text), s) => (.error (.broken text), s)
    | (_, s) => (.error (.failed e), s)
  | r => r

def inWorld (x : Act σ ε α) : Act (Session σ τ) ε α :=
  fun s => ((x s.world).1, { s with world := (x s.world).2 })

section

variable {x : Act σ ε α} {s s' : σ}

theorem andThen_ok (h : x s = (.ok a, s')) (f : α → Act σ ε β) : x.andThen f s = f a s' := by
  rw [andThen, h]

theorem andThen_error (h : x s = (.error t, s')) (f : α → Act σ ε β) : x.andThen f s = (.error t, s') := by
  rw [andThen, h]

theorem mapFailure_ok (h : x s = (.ok a, s')) (f : ε → ε') : x.mapFailure f s = (.ok a, s') := by
  rw [mapFailure, h]
  rfl

theorem mapFailure_error (h : x s = (.error t, s')) (f : ε → ε') : x.mapFailure f s = (.error (t.map f), s') := by
  rw [mapFailure, h]
  rfl

theorem undoneBy_ok (h : x s = (.ok a, s')) (undo : Act σ Fault Unit) : x.undoneBy undo s = (.ok a, s') := by
  rw [undoneBy, h]

theorem undoneBy_broken (h : x s = (.error (.broken text), s')) (undo : Act σ Fault Unit) :
    x.undoneBy undo s = (.error (.broken text), s') := by
  rw [undoneBy, h]

theorem undoneBy_failed (h : x s = (.error (.failed e), s')) {undo : Act σ Fault Unit}
    (hu : ∀ text, (undo s').1 ≠ .error (.broken text)) : x.undoneBy undo s = (.error (.failed e), (undo s').2) := by
  rw [undoneBy, h]
  cases hr : undo s' with
  | mk r s'' =>
    rw [hr] at hu
    match r with
    | .ok _ => simp only [hr]
    | .error (.failed _) => simp only [hr]
    | .error (.broken text) => exact absurd rfl (hu text)

theorem undoneBy_failed_broken (h : x s = (.error (.failed e), s')) {undo : Act σ Fault Unit}
    (hu : (undo s').1 = .error (.broken text)) : x.undoneBy undo s = (.error (.broken text), (undo s').2) := by
  rw [undoneBy, h]
  cases hr : undo s' with
  | mk r s'' =>
    rw [hr] at hu
    cases hu
    simp only [hr]

end

end Act

/-- What the gateway does its work with. A state is of any kind; in it are the phases of the transactions. -/
structure Backend (σ : Type) where
  operation : Nat → (op : Operation) → Act σ Fault op.Answer
  command : Nat → Command → Act σ Fault Unit
  /-- Opens one more connection. -/
  connect : Act σ Fault Nat
  phases : σ → List Phase
  setPhases : List Phase → σ → σ
  /-- What is told of its health at a time. -/
  health : String → σ → Json × σ

namespace Backend

variable {σ ε α : Type} (b : Backend σ)

/-- Does the work on a connection. Work that breaks down by itself has no text about that. -/
def work (c : Nat) : Work ε α → Act σ ε α
  | .finish (.done a) => .ret a
  | .finish (.failed e) => .stop (.failed e)
  | .finish .broken => .stop (.broken "")
  | .perform op next => fun s =>
    match b.operation c op s with
    | (.ok a, s) => work c (next (.ok a)) s
    | (.error (.failed f), s) => work c (next (.error f)) s
    | (.error (.broken text), s) => (.error (.broken text), s)

def issue (c : Nat) (k : Command) : Act σ Failure Unit :=
  (b.command c k).mapFailure .ofFault

def runAtomic (w : Work Failure α) : Act σ Failure α :=
  (b.issue Database.shared .begin).andThen fun _ =>
    ((b.work Database.shared w).undoneBy (b.command Database.shared .rollback)).andThen fun a =>
      (b.issue Database.shared .commit).andThen fun _ => .ret a

def phase (k : Nat) (s : σ) : Phase :=
  (b.phases s)[k]?.getD .closed

def setPhase (k : Nat) (p : Phase) (s : σ) : σ :=
  b.setPhases ((b.phases s).set k p) s

def runIn (k : Nat) (w : Work Failure α) : Act σ Failure α := fun s =>
  match b.phase k s with
  | .closed => (.error (.failed (.ofFault .closed)), s)
  | .spoiled => (.error (.failed (.ofFault .aborted)), s)
  | .active => (b.work (Database.connectionOf k) w).orElse (b.setPhase k .spoiled) s

def begin : Act σ Fault Nat :=
  b.connect.andThen fun c => (b.command c .begin).andThen fun _ => fun s =>
    (.ok (b.phases s).length, b.setPhases (b.phases s ++ [.active]) s)

def commit (k : Nat) : Act σ Fault Unit := fun s =>
  match b.phase k s with
  | .closed => (.error (.failed .closed), s)
  | .active => b.command (Database.connectionOf k) .commit (b.setPhase k .closed s)
  | .spoiled =>
    ((b.command (Database.connectionOf k) .rollback).andThen fun _ => .stop (.failed .aborted))
      (b.setPhase k .closed s)

def rollback (k : Nat) : Act σ Fault Unit := fun s =>
  match b.phase k s with
  | .closed => (.error (.failed .closed), s)
  | _ => b.command (Database.connectionOf k) .rollback (b.setPhase k .closed s)

def inTransaction (now : Nat) (handle : String) (w : Work Failure α) : Act (Session σ Nat) Failure α := fun s =>
  match s.registry.use? handle now with
  | none => (.error (.failed (.ofTransactionError (.notFound handle))), s)
  | some (k, registry) => (b.runIn k w).inWorld { s with registry }

def act (x : Execution) (now : Nat) (action : Action) : Option String → Act (Session σ Nat) Failure Json
  | some handle => b.inTransaction now handle (Gateway.work x action)
  | none =>
    if Gateway.isWrite action then (b.runAtomic (Gateway.work x action)).inWorld
    else (b.work Database.shared (Gateway.work x action)).inWorld

def beginTransaction (now : Nat) : Act (Session σ Nat) Failure Json :=
  (b.begin.mapFailure .ofFault).inWorld.andThen fun k => fun s =>
    (.ok (.string (s.registry.add k now).1), { s with registry := (s.registry.add k now).2 })

def finish (done : String) (ending : Nat → Act σ Fault Unit) (handle : String) :
    Act (Session σ Nat) Failure Json := fun s =>
  match s.registry.take? handle with
  | none => (.error (.failed (.ofTransactionError (.notFound handle))), s)
  | some (k, registry) =>
    (((ending k).mapFailure .ofFault).inWorld.andThen fun _ => .ret (Gateway.status done [])) { s with registry }

def answerCall (x : Execution) (clock : Clock) : Call → Act (Session σ Nat) Failure Json
  | .ping => .ret (Gateway.status "ok" [("timestamp", .string clock.timestamp)])
  | .health => fun s =>
    (.ok (b.health clock.timestamp s.world).1, { s with world := (b.health clock.timestamp s.world).2 })
  | .begin => b.beginTransaction clock.now
  | .commit handle => finish "committed" b.commit handle
  | .rollback handle => finish "rolled_back" b.rollback handle
  | .act action handle => b.act x clock.now action handle

end Backend

theorem Rpc.Method.name_of_ofName? (h : ofName? s = some m) : m.name = s := by
  have hname : (m.name == s) = true := List.find?_some (p := fun m : Method => m.name == s) h
  exact eq_of_beq hname

namespace Rpc.Call

def method : Call → Method
  | ping => .ping
  | health => .healthCheck
  | begin => .beginTransaction
  | commit _ => .commitTransaction
  | rollback _ => .rollbackTransaction
  | act action _ => Gateway.methodOf action

theorem ofChecked_method (h : ofChecked ms m = .ok call) : call.method = m := by
  cases m with
  | executeQuery =>
    unfold ofChecked at h
    cases ha : arguments (items ms "args") with
    | error f =>
      rw [ha] at h
      exact nomatch h
    | ok args =>
      rw [ha] at h
      exact Except.ok.inj h ▸ rfl
  | _ => exact Except.ok.inj h ▸ rfl

theorem ofParams_method (h : ofParams m ms = .ok call) : call.method = m := by
  unfold ofParams at h
  cases hc : m.schema.check ms with
  | error e =>
    rw [hc] at h
    exact nomatch h
  | ok u =>
    rw [hc] at h
    exact ofChecked_method h

end Rpc.Call

/-- What a call that comes to trouble fails with. -/
def Trouble.failure (m : Method) : Trouble Failure → Failure
  | failed f => f
  | broken text => .internal (m.name ++ " handler failed" ++ text)

namespace Backend

variable {σ : Type} (b : Backend σ) (x : Execution) (clock : Clock)

def invoke (method : String) (params : Option Json) (s : Session σ Nat) : Except Failure Json × Session σ Nat :=
  match Method.ofName? method with
  | none => (.error (.methodNotFound method), s)
  | some m =>
    match (do Call.ofParams m (← Gateway.paramsOf params) : Except Failure Call) with
    | .error f => (.error f, s)
    | .ok call => ((b.answerCall x clock call s).1.mapError (Trouble.failure call.method), (b.answerCall x clock call s).2)

def respond (body : ByteArray) (s : Session σ Nat) : (Nat × Answer) × Session σ Nat :=
  match Json.readBytes? body with
  | none => ((400, .refusal .null .notJson), s)
  | some v =>
    match Envelope.ofJson v with
    | .error e => ((400, .refusal (Envelope.idOf v) e), s)
    | .ok envelope =>
      (Gateway.responseOf (Envelope.idOf v) (b.invoke x clock envelope.method envelope.params s).1,
        (b.invoke x clock envelope.method envelope.params s).2)

theorem respond_of_asks (hw : Json.writtenBytes? body = some w) (h : Asks w method params) (s : Session σ Nat) :
    b.respond x clock body s =
      (Gateway.responseOf (idWritten (some w)) (b.invoke x clock method params s).1,
        (b.invoke x clock method params s).2) := by
  unfold respond
  rw [Json.readBytes?_eq, hw, Option.map_some]
  simp only [(read_envelope w).eq_ok h, idOf_merged]

theorem respond_of_refused (h : ∀ w method params, Json.writtenBytes? body = some w → ¬ Asks w method params) :
    ∃ answer, ∀ {σ : Type} (b : Backend σ) (s : Session σ Nat), b.respond x clock body s = (answer, s) := by
  unfold respond
  rw [Json.readBytes?_eq]
  cases hw : Json.writtenBytes? body with
  | none => exact ⟨_, fun b s => rfl⟩
  | some w =>
    obtain ⟨e, he, -⟩ := (read_envelope w).eq_error fun method params => h w method params hw
    simp only [Option.map_some, he]
    exact ⟨_, fun b s => rfl⟩

/-- The database that is modelled. It breaks down at nothing. -/
def database (healthTable : Option String) : Backend Database where
  operation c op d := ((d.perform c op).1.mapError .failed, (d.perform c op).2)
  command c k d := ((d.command c k).1.mapError .failed, (d.command c k).2)
  connect d := (.ok d.engine.connect.1, { d with engine := d.engine.connect.2 })
  phases := Database.phases
  setPhases phases d := { d with phases }
  health timestamp d :=
    match d.ping healthTable with
    | (.ok (), d) =>
      (Gateway.status "healthy"
        [("database", .string d.name), ("schema", .string d.schema), ("timestamp", .string timestamp)], d)
    | (.error f, d) =>
      (Gateway.status "unhealthy" [("error", .string f.message), ("timestamp", .string timestamp)], d)

def ofOutcome : Outcome ε α → Except (Trouble ε) α
  | .done a => .ok a
  | .failed e => .error (.failed e)
  | .broken => .error (.broken "")

variable {healthTable : Option String}

theorem work_perform (c : Nat) (op : Operation) (next : Except Fault op.Answer → Work ε α) (s : σ) :
    b.work c (.perform op next) s =
      match b.operation c op s with
      | (.ok a, s) => b.work c (next (.ok a)) s
      | (.error (.failed f), s) => b.work c (next (.error f)) s
      | (.error (.broken text), s) => (.error (.broken text), s) := by
  rw [work]

theorem work_database (d : Database) (c : Nat) (w : Work ε α) :
    (database healthTable).work c w d = (ofOutcome (d.work c w).1, (d.work c w).2) := by
  induction w generalizing d with
  | finish outcome => cases outcome <;> rfl
  | perform op next ih =>
    have hstep : (database healthTable).operation c op d =
        ((d.perform c op).1.mapError .failed, (d.perform c op).2) := rfl
    rw [work_perform, hstep, Database.work]
    cases d.perform c op with
    | mk r d' =>
      cases r with
      | ok a => exact ih _ d'
      | error f => exact ih _ d'

theorem command_database_ok {d d' : Database} (h : d.command c k = (.ok (), d')) :
    (database healthTable).command c k d = (.ok (), d') := by
  change ((d.command c k).1.mapError Trouble.failed, (d.command c k).2) = _
  rw [h]
  rfl

theorem command_database_error {d d' : Database} (h : d.command c k = (.error f, d')) :
    (database healthTable).command c k d = (.error (.failed f), d') := by
  change ((d.command c k).1.mapError Trouble.failed, (d.command c k).2) = _
  rw [h]
  rfl

theorem issue_database_ok {d d' : Database} (h : d.command c k = (.ok (), d')) :
    (database healthTable).issue c k d = (.ok (), d') :=
  Act.mapFailure_ok (command_database_ok h) _

theorem issue_database_error {d d' : Database} (h : d.command c k = (.error f, d')) :
    (database healthTable).issue c k d = (.error (.failed (.ofFault f)), d') :=
  Act.mapFailure_error (command_database_error h) _

theorem runAtomic_database (d : Database) (w : Work Failure α) :
    (database healthTable).runAtomic w d = (ofOutcome (d.runAtomic .ofFault w).1, (d.runAtomic .ofFault w).2) := by
  cases hbegin : d.command Database.shared .begin with
  | mk r d₁ =>
    cases r with
    | error f =>
      simp only [Database.runAtomic, hbegin]
      exact Act.andThen_error (issue_database_error hbegin) _
    | ok u =>
      rw [runAtomic, Act.andThen_ok (issue_database_ok hbegin)]
      have hwork : (database healthTable).work Database.shared w d₁ = _ := work_database d₁ Database.shared w
      cases hw : d₁.work Database.shared w with
      | mk outcome d₂ =>
        rw [hw] at hwork
        simp only [Database.runAtomic, hbegin, hw]
        cases outcome with
        | done a =>
          rw [Act.andThen_ok (Act.undoneBy_ok hwork _)]
          cases hcommit : d₂.command Database.shared .commit with
          | mk r d₃ =>
            simp only [hcommit]
            cases r with
            | error f => exact Act.andThen_error (issue_database_error hcommit) _
            | ok u => exact Act.andThen_ok (issue_database_ok hcommit) _
        | failed e =>
          refine Act.andThen_error (Act.undoneBy_failed hwork fun text => ?_) _
          change (d₂.command Database.shared .rollback).1.mapError Trouble.failed ≠ _
          cases (d₂.command Database.shared .rollback).1 <;> exact nofun
        | broken => exact Act.andThen_error (Act.undoneBy_broken hwork _) _

theorem runIn_database (d : Database) (k : Nat) (w : Work Failure α) :
    (database healthTable).runIn k w d = (ofOutcome (d.runIn k .ofFault w).1, (d.runIn k .ofFault w).2) := by
  have hphase : (database healthTable).phase k d = d.phase k := rfl
  rw [runIn, hphase, Database.runIn]
  cases d.phase k with
  | closed => rfl
  | spoiled => rfl
  | active =>
    simp only [Act.orElse, work_database]
    cases d.work (Database.connectionOf k) w with
    | mk outcome d' => cases outcome <;> rfl

def ended (r : Except Fault α × Database) : Except (Trouble Fault) α × Database :=
  (r.1.mapError .failed, r.2)

theorem begin_database (d : Database) : (database healthTable).begin d = ended d.begin := by
  have hconnect : (database healthTable).connect d = (.ok d.engine.connect.1, { d with engine := d.engine.connect.2 }) :=
    rfl
  rw [begin, Act.andThen_ok hconnect, Database.begin]
  cases hbegin : ({ d with engine := d.engine.connect.2 } : Database).command d.engine.connect.1 .begin with
  | mk r d' =>
    simp only [hbegin]
    cases r with
    | error f => exact Act.andThen_error (command_database_error hbegin) _
    | ok u => exact Act.andThen_ok (command_database_ok hbegin) _

theorem commit_database (d : Database) (k : Nat) : (database healthTable).commit k d = ended (d.commit k) := by
  have hphase : (database healthTable).phase k d = d.phase k := rfl
  have hclose : (database healthTable).setPhase k .closed d = d.setPhase k .closed := rfl
  rw [commit, hphase, hclose, Database.commit]
  cases d.phase k with
  | closed => rfl
  | active => rfl
  | spoiled =>
    cases hrollback : (d.setPhase k .closed).command (Database.connectionOf k) .rollback with
    | mk r d' =>
      simp only
      cases r with
      | error f => exact Act.andThen_error (command_database_error hrollback) _
      | ok u => exact Act.andThen_ok (command_database_ok hrollback) _

theorem rollback_database (d : Database) (k : Nat) : (database healthTable).rollback k d = ended (d.rollback k) := by
  have hphase : (database healthTable).phase k d = d.phase k := rfl
  have hclose : (database healthTable).setPhase k .closed d = d.setPhase k .closed := rfl
  rw [rollback, hphase, hclose, Database.rollback]
  cases d.phase k <;> rfl

theorem settle_ofOutcome (method : Method) (outcome : Outcome Failure α) :
    (ofOutcome outcome).mapError (Trouble.failure method) = Gateway.settle method outcome := by
  cases outcome with
  | done a => rfl
  | failed f => rfl
  | broken =>
    change Except.error (Failure.internal (method.name ++ " handler failed" ++ "")) = _
    rw [String.append_empty]
    rfl

theorem inTransaction_database (g : Gateway) (now : Nat) (handle : String) (w : Work Failure α) :
    (database healthTable).inTransaction now handle w g.session =
      (ofOutcome (g.inTransaction now handle w).1, (g.inTransaction now handle w).2.session) := by
  rw [inTransaction, Gateway.inTransaction]
  cases g.session.registry.use? handle now with
  | none => rfl
  | some used => simp only [Act.inWorld, runIn_database]

theorem act_database (g : Gateway) (now : Nat) (action : Action) (handle : Option String) :
    ((database healthTable).act g.execution now action handle g.session).1.mapError
        (Trouble.failure (Gateway.methodOf action)) = (g.act now action handle).1 ∧
      ((database healthTable).act g.execution now action handle g.session).2 = (g.act now action handle).2.session := by
  rw [Gateway.act]
  cases handle with
  | some handle =>
    rw [act, inTransaction_database, settle_ofOutcome, Gateway.write, Gateway.read]
    cases Gateway.isWrite action <;> exact ⟨rfl, rfl⟩
  | none =>
    rw [act, Gateway.write, Gateway.read]
    cases Gateway.isWrite action with
    | true =>
      rw [if_pos rfl, if_pos rfl, Act.inWorld, runAtomic_database, settle_ofOutcome]
      exact ⟨rfl, rfl⟩
    | false =>
      rw [if_neg Bool.false_ne_true, if_neg Bool.false_ne_true, Act.inWorld, work_database, settle_ofOutcome]
      exact ⟨rfl, rfl⟩

theorem finish_database (g : Gateway) (done : String) {ending : Nat → Act Database Fault Unit}
    {act : Nat → Database → Except Fault Unit × Database} (h : ∀ k d, ending k d = ended (act k d)) (handle : String)
    (m : Method) :
    ((finish done ending handle g.session).1.mapError (Trouble.failure m) =
        (g.finish done (g.session.finish act handle)).1) ∧
      (finish done ending handle g.session).2 = (g.finish done (g.session.finish act handle)).2.session := by
  rw [finish, Session.finish, Gateway.finish]
  cases g.session.registry.take? handle with
  | none => exact ⟨rfl, rfl⟩
  | some taken =>
    obtain ⟨k, registry⟩ := taken
    simp only [Act.andThen, Act.inWorld, Act.mapFailure, h, ended]
    cases act k g.session.world with
    | mk r d => cases r <;> exact ⟨rfl, rfl⟩

theorem begin_gateway (g : Gateway) (now : Nat) (m : Method) :
    ((database healthTable).beginTransaction now g.session).1.mapError (Trouble.failure m) = (g.begin now).1 ∧
      ((database healthTable).beginTransaction now g.session).2 = (g.begin now).2.session := by
  rw [beginTransaction, Gateway.begin]
  simp only [Act.andThen, Act.inWorld, Act.mapFailure, begin_database, ended]
  cases g.session.world.begin with
  | mk r d => cases r <;> exact ⟨rfl, rfl⟩

theorem health_gateway (g : Gateway) (timestamp : String) :
    ((database g.healthTable).health timestamp g.session.world).1 = (g.health timestamp).1 ∧
      ((database g.healthTable).health timestamp g.session.world).2 = (g.health timestamp).2.session.world ∧
      (g.health timestamp).2.session.registry = g.session.registry := by
  have hhealth : (database g.healthTable).health timestamp g.session.world =
      match g.session.world.ping g.healthTable with
      | (.ok (), d) =>
        (Gateway.status "healthy"
          [("database", .string d.name), ("schema", .string d.schema), ("timestamp", .string timestamp)], d)
      | (.error f, d) =>
        (Gateway.status "unhealthy" [("error", .string f.message), ("timestamp", .string timestamp)], d) := rfl
  rw [hhealth, Gateway.health]
  cases g.session.world.ping g.healthTable with
  | mk r d => cases r <;> exact ⟨rfl, rfl, rfl⟩

theorem answerCall_database (g : Gateway) (clock : Clock) (call : Call) :
    ((database g.healthTable).answerCall g.execution clock call g.session).1.mapError (Trouble.failure call.method) =
        (g.answerCall clock call).1 ∧
      ((database g.healthTable).answerCall g.execution clock call g.session).2 =
        (g.answerCall clock call).2.session := by
  cases call with
  | ping => exact ⟨rfl, rfl⟩
  | health =>
    obtain ⟨hv, hworld, hregistry⟩ := health_gateway g clock.timestamp
    refine ⟨congrArg Except.ok hv, ?_⟩
    change Session.mk _ _ = _
    rw [hworld, ← hregistry]
    rfl
  | begin => exact begin_gateway g clock.now _
  | commit handle => exact finish_database g "committed" (fun k d => commit_database d k) handle _
  | rollback handle => exact finish_database g "rolled_back" (fun k d => rollback_database d k) handle _
  | act action handle => exact act_database g clock.now action handle

theorem invoke_database (g : Gateway) (clock : Clock) (method : String) (params : Option Json) :
    (database g.healthTable).invoke g.execution clock method params g.session =
      ((g.invoke clock method params).1, (g.invoke clock method params).2.session) := by
  rw [invoke, Gateway.invoke]
  cases Method.ofName? method with
  | none => rfl
  | some m =>
    simp only
    cases (do Call.ofParams m (← Gateway.paramsOf params) : Except Failure Call) with
    | error f => rfl
    | ok call =>
      obtain ⟨hresult, hsession⟩ := answerCall_database g clock call
      exact Prod.ext hresult hsession

/-- Above the database that is modelled, every body is answered as the gateway answers it. -/
theorem respond_database (g : Gateway) (clock : Clock) (body : ByteArray) :
    (database g.healthTable).respond g.execution clock body g.session =
      ((g.handle clock body).1, (g.handle clock body).2.session) := by
  rw [respond, Gateway.handle]
  cases Json.readBytes? body with
  | none => rfl
  | some v =>
    simp only [Gateway.handleJson]
    cases Envelope.ofJson v with
    | error e => rfl
    | ok envelope =>
      simp only [invoke_database, Gateway.call]
      cases g.invoke clock envelope.method envelope.params with
      | mk r g' => cases r <;> rfl

end Backend

end QueryGateway
