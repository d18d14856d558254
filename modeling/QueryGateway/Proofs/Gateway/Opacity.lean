import QueryGateway.Proofs.Gateway.Notes
import QueryGateway.Proofs.Json.Text
import QueryGateway.Proofs.Store.Breakdowns

namespace QueryGateway
set_option autoImplicit true

open Rpc Store Transactions

/-- The fault without its text, if all that is told of it is its kind. -/
def Store.Fault.blank (f : Fault) : Fault :=
  match f.kind with
  | .unavailable => .path ""
  | .other => .engine ""
  | _ => f

theorem Store.Fault.blank_told (f : Fault) : Likeness.told.fault f f.blank := by
  have hunavailable : Failure.ofFault (.path "") = .storeUnavailable (Fault.path "").message := rfl
  have hother : Failure.ofFault (.engine "") = .internal (Fault.engine "").message := by
    have hkind : (Fault.engine "").kind = .other := by decide +kernel
    rw [Failure.ofFault, hkind]
  unfold Likeness.fault blank
  cases hk : f.kind with
  | unavailable =>
    rw [hunavailable, Failure.ofFault, hk]
    exact ⟨rfl, rfl⟩
  | other =>
    rw [hother, Failure.ofFault, hk]
    exact ⟨rfl, rfl⟩
  | rejected | notFound | conflict => exact ⟨rfl, rfl⟩

example : (Fault.device "sda1: read failed").blank = (Fault.path "/srv/data/store.db").blank := rfl

def Trouble.blank : Trouble Fault → Trouble Fault
  | failed f => failed f.blank
  | broken _ => broken ""

def Act.blanked (x : Act σ Fault α) : Act σ Fault α :=
  fun s => ((x s).1.mapError Trouble.blank, (x s).2)

theorem Act.blanked_alike (x : Act σ Fault α) : Alike Eq Likeness.told.fault Likeness.told.text x x.blanked := by
  intro s s' hs
  subst hs
  unfold Act.blanked
  cases x s with
  | mk r s' =>
    match r with
    | .ok a => exact ⟨.ok a, rfl⟩
    | .error (.failed f) => exact ⟨.error (.failed f.blank_told), rfl⟩
    | .error (.broken text) => exact ⟨.error (.broken trivial), rfl⟩

namespace Backend

/-- What is left of a backend without the texts that are not told, and without its health. -/
def blanked (b : Backend σ) : Backend σ where
  operation c op := (b.operation c op).blanked
  command c k := (b.command c k).blanked
  connect := b.connect.blanked
  phases := b.phases
  setPhases := b.setPhases
  health _ s := (.null, s)

theorem blanked_alike (b : Backend σ) : Alike .told Eq b b.blanked where
  operation c op := (b.operation c op).blanked_alike
  command c k := (b.command c k).blanked_alike
  connect := b.connect.blanked_alike
  phases _ _ hs := congrArg b.phases hs
  setPhases phases _ _ hs := congrArg (b.setPhases phases) hs

/-- What is not told has no influence on anything that is. -/
theorem respond_blanked (b : Backend σ) (x : Execution) (clock : Clock) (s : Session σ Nat)
    (hbody : ∀ w params, Json.writtenBytes? body = some w → ¬ Asks w Method.healthCheck.name params) :
    b.respond x clock body s = b.blanked.respond x clock body s := by
  by_cases hasks : ∃ w method params, Json.writtenBytes? body = some w ∧ Asks w method params
  · obtain ⟨w, method, params, hw, h⟩ := hasks
    have hmethod : method ≠ Method.healthCheck.name := by
      rintro rfl
      exact hbody w params hw h
    obtain ⟨hresult, hstate⟩ := b.blanked_alike.invoke x clock hmethod params (Act.InWorld.mk rfl (Eq.refl s.world))
    rw [b.respond_of_asks x clock hw h, b.blanked.respond_of_asks x clock hw h]
    exact Prod.ext (hresult.responseOf _) hstate.eq
  · obtain ⟨answer, hrespond⟩ := respond_of_refused x clock fun w method params hw h => hasks ⟨w, method, params, hw, h⟩
    rw [hrespond, hrespond]

/-- The backend as it is where work on the shared connection is always undone: what fails to be is passed over. -/
def undoing (b : Backend σ) : Backend σ where
  operation := b.operation
  command c k s :=
    match b.command c k s with
    | (.error (.failed f), s) =>
      if (c, k) = (Database.shared, .rollback) then (.ok (), s) else (.error (.failed f), s)
    | r => r
  connect := b.connect
  phases := b.phases
  setPhases := b.setPhases
  health := b.health

section

variable (b : Backend σ)

theorem undoing_command (h : (c, k) ≠ (Database.shared, Command.rollback)) : b.undoing.command c k = b.command c k := by
  funext s
  simp only [undoing, if_neg h]
  split
  · next heq => exact heq.symm
  · rfl

theorem undoing_issue (h : (c, k) ≠ (Database.shared, Command.rollback)) : b.undoing.issue c k = b.issue c k := by
  rw [issue, undoing_command b h, issue]

theorem undoing_work (c : Nat) (w : Work ε α) : b.undoing.work c w = b.work c w := by
  induction w with
  | finish outcome => cases outcome <;> rfl
  | perform op next ih =>
    funext s
    rw [work_perform, work_perform]
    simp only [ih]
    rfl

theorem undoing_undoneBy (x : Act σ ε α) :
    x.undoneBy (b.undoing.command Database.shared .rollback) = x.undoneBy (b.command Database.shared .rollback) := by
  funext s
  unfold Act.undoneBy
  split
  · next e s' heq =>
    simp only [undoing]
    cases hr : b.command Database.shared .rollback s' with
    | mk r s'' =>
      match r with
      | .ok _ => rfl
      | .error (.failed _) => rfl
      | .error (.broken _) => rfl
  · rfl

theorem undoing_runAtomic (w : Work Failure α) : b.undoing.runAtomic w = b.runAtomic w := by
  have hbegin : b.undoing.issue Database.shared .begin = b.issue Database.shared .begin :=
    b.undoing_issue fun h => nomatch congrArg Prod.snd h
  have hcommit : b.undoing.issue Database.shared .commit = b.issue Database.shared .commit :=
    b.undoing_issue fun h => nomatch congrArg Prod.snd h
  rw [runAtomic, hbegin, hcommit, undoing_work, undoing_undoneBy, runAtomic]

theorem undoing_runIn (k : Nat) (w : Work Failure α) : b.undoing.runIn k w = b.runIn k w := by
  unfold runIn
  rw [undoing_work]
  rfl

theorem connectionOf_ne_shared (k : Nat) (κ : Command) : (Database.connectionOf k, κ) ≠ (Database.shared, .rollback) := by
  intro h
  exact Nat.succ_ne_zero k (congrArg Prod.fst h)

theorem undoing_begin : b.undoing.begin = b.begin := by
  have hcommand (c : Nat) : b.undoing.command c .begin = b.command c .begin := b.undoing_command fun h => nomatch congrArg Prod.snd h
  unfold begin
  simp only [hcommand]
  rfl

theorem undoing_commit (k : Nat) : b.undoing.commit k = b.commit k := by
  unfold commit
  rw [undoing_command b (connectionOf_ne_shared k _), undoing_command b (connectionOf_ne_shared k _)]
  rfl

theorem undoing_rollback (k : Nat) : b.undoing.rollback k = b.rollback k := by
  unfold rollback
  rw [undoing_command b (connectionOf_ne_shared k _)]
  rfl

theorem undoing_act (x : Execution) (now : Nat) (a : Action) (handle : Option String) :
    b.undoing.act x now a handle = b.act x now a handle := by
  cases handle with
  | some handle =>
    unfold act inTransaction
    simp only [undoing_runIn]
  | none =>
    unfold act
    rw [undoing_runAtomic, undoing_work]

theorem undoing_answerCall (x : Execution) (clock : Clock) (call : Call) :
    b.undoing.answerCall x clock call = b.answerCall x clock call := by
  cases call with
  | ping => rfl
  | health => rfl
  | begin =>
    unfold answerCall beginTransaction
    rw [undoing_begin]
  | commit handle =>
    unfold answerCall
    rw [funext b.undoing_commit]
  | rollback handle =>
    unfold answerCall
    rw [funext b.undoing_rollback]
  | act a handle => exact b.undoing_act x clock.now a handle

/-- That work on the shared connection could not be undone is told to nobody. -/
theorem respond_undoing (x : Execution) (clock : Clock) (body : ByteArray) (s : Session σ Nat) :
    b.undoing.respond x clock body s = b.respond x clock body s := by
  have hinvoke (method : String) (params : Option Json) :
      b.undoing.invoke x clock method params s = b.invoke x clock method params s := by
    unfold invoke
    simp only [undoing_answerCall]
  unfold respond
  simp only [hinvoke]

end

end Backend

namespace Transactions.Session

def withNotes (s : Session σ Nat) : Session (σ × List (Trouble Fault)) Nat :=
  ⟨s.registry, s.world, []⟩

def withoutNotes (s : Session (σ × List (Trouble Fault)) Nat) : Session σ Nat :=
  ⟨s.registry, s.world.1⟩

end Transactions.Session

namespace Backend

variable (b : Backend σ) (x : Execution) (clock : Clock)

def troubles (body : ByteArray) (s : Session σ Nat) : List (Trouble Fault) :=
  notesOf (b.noting.respond x clock body s.withNotes).2

section

variable {b} (s : Session σ Nat) (hw : Json.writtenBytes? body = some w) (h : Asks w method params)
  (hmethod : method ≠ Method.healthCheck.name)
include hmethod

theorem invoke_noting (params : Option Json) :
    (b.noting.invoke x clock method params s.withNotes).1 = (b.invoke x clock method params s).1 ∧
      (b.noting.invoke x clock method params s.withNotes).2.withoutNotes = (b.invoke x clock method params s).2 := by
  have hs : Act.InWorld (fun s s' => s.1 = s') s.withNotes s := ⟨rfl, rfl⟩
  obtain ⟨hresult, hregistry, hworld⟩ := b.noting_alike.invoke x clock hmethod params hs
  refine ⟨hresult.eq, ?_⟩
  exact Act.InWorld.eq ⟨hregistry, hworld⟩

include hw h in
theorem troubles_explain :
    CallExplained (b.troubles x clock body s) (b.invoke x clock method params s).1 := by
  obtain ⟨more, hmore, hresult⟩ := b.noting_invoke x clock method params s.withNotes
  rw [(b.invoke_noting x clock s hmethod params).1] at hresult
  rw [troubles, b.noting.respond_of_asks x clock hw h, hmore]
  exact hresult

end

end Backend

/-- The cause that a call fails for in trouble. -/
inductive Rpc.Cause.IsOf : Cause → Trouble Fault → Prop where
  | fault (f : Fault) : IsOf (.fault f) (.failed f)
  | breakdown (m : Method) (text : String) : IsOf (.breakdown m text) (.broken text)

/-- How a body with that id is answered in trouble, with the HTTP status. -/
def Trouble.answer (id : Json) : Trouble Fault → Nat × Answer
  | failed f =>
    match f.kind with
    | .unavailable => (503, ⟨id, .error ⟨-32003, "Store unavailable"⟩⟩)
    | .other => (500, ⟨id, .error ⟨-32603, "Internal error"⟩⟩)
    | .notFound => (404, ⟨id, .error ⟨-32004, f.message⟩⟩)
    | .rejected => (400, ⟨id, .error ⟨-32602, f.message⟩⟩)
    | .conflict => (409, ⟨id, .error ⟨-32005, f.message⟩⟩)
  | broken _ => (500, ⟨id, .error ⟨-32603, "Internal error"⟩⟩)

theorem Trouble.responseOf_failure (id : Json) (t : Trouble Fault) (m : Method) :
    Gateway.responseOf id (.error ((t.map .ofFault).failure m)) = t.answer id := by
  cases t with
  | failed f =>
    simp only [map, failure, Failure.ofFault, answer]
    cases f.kind <;> rfl
  | broken text => rfl

theorem CallExplained.answer (h : CallExplained notes r) (ht : notes.getLast? = some t) (id : Json) :
    Gateway.responseOf id r = t.answer id := by
  cases h with
  | ok v => exact nomatch ht
  | own c => exact nomatch ht
  | noted front t' m =>
    rw [List.getLast?_concat] at ht
    cases ht
    exact t.responseOf_failure id m

theorem CallExplained.cause (h : CallExplained notes (.error f)) :
    ∃ c : Cause, f = c.failure ∧ ∀ t, notes.getLast? = some t → c.IsOf t := by
  cases h with
  | own c => exact ⟨c, rfl, nofun⟩
  | noted front t' m =>
    rw [List.getLast?_concat]
    cases t' with
    | failed f' => exact ⟨.fault f', rfl, fun t ht => Option.some.inj ht ▸ .fault f'⟩
    | broken text => exact ⟨.breakdown m text, rfl, fun t ht => Option.some.inj ht ▸ .breakdown m text⟩

/-- What is told of the troubles met while a body is answered, whatever the backend. -/
structure ToldByKind (x : Execution) (clock : Clock) (body : ByteArray) : Prop where
  /-- Backends that differ in nothing but the texts of breakdowns and of faults that are told by their kind. -/
  same : ∀ {σ : Type} (b b' : Backend σ) (s : Session σ Nat), b.blanked = b'.blanked →
    b.respond x clock body s = b'.respond x clock body s
  /-- The troubles are those of the run itself: that they are noted makes no difference. -/
  noted : ∀ {σ : Type} (b : Backend σ) (s : Session σ Nat),
    (b.noting.respond x clock body s.withNotes).1 = (b.respond x clock body s).1 ∧
      (b.noting.respond x clock body s.withNotes).2.withoutNotes = (b.respond x clock body s).2
  /-- Of what went before the last trouble nothing is told. -/
  last : ∀ {σ : Type} (b : Backend σ) (s : Session σ Nat) (t : Trouble Fault),
    (b.troubles x clock body s).getLast? = some t →
      (b.respond x clock body s).1 = t.answer (idWritten (Json.writtenBytes? body))
  /-- That work on the shared connection could not be undone is told to nobody. -/
  undone : ∀ {σ : Type} (b : Backend σ) (s : Session σ Nat),
    b.undoing.respond x clock body s = b.respond x clock body s
  /-- Every failure has a cause, which is the last trouble if there was one. -/
  caused : ∀ {σ : Type} (b : Backend σ) (s : Session σ Nat) (w : Json) (method : String) (params : Option Json)
    (f : Failure), Json.writtenBytes? body = some w → Asks w method params →
      (b.invoke x clock method params s).1 = .error f →
      (b.respond x clock body s).1 = (f.kind.status, ⟨idWritten (some w), .error ⟨f.kind.code, f.message⟩⟩) ∧
        ∃ c : Cause, f = c.failure ∧ f.Tells c.message ∧
          ∀ t, (b.troubles x clock body s).getLast? = some t → c.IsOf t

theorem toldByKind (x : Execution) (clock : Clock) (body : ByteArray)
    (hbody : ∀ w params, Json.writtenBytes? body = some w → ¬ Asks w Method.healthCheck.name params) :
    ToldByKind x clock body := by
  have hmethod : ∀ {w method params}, Json.writtenBytes? body = some w → Asks w method params →
      method ≠ Method.healthCheck.name := by
    rintro w method params hw h rfl
    exact hbody w params hw h
  have refused : ¬ (∃ w method params, Json.writtenBytes? body = some w ∧ Asks w method params) →
      ∃ answer, ∀ {σ : Type} (b : Backend σ) (s : Session σ Nat), b.respond x clock body s = (answer, s) :=
    fun hasks => Backend.respond_of_refused x clock fun w method params hw h => hasks ⟨w, method, params, hw, h⟩
  constructor
  case same =>
    intro σ b b' s hblanked
    rw [b.respond_blanked x clock s hbody, hblanked, ← b'.respond_blanked x clock s hbody]
  case noted =>
    intro σ b s
    by_cases hasks : ∃ w method params, Json.writtenBytes? body = some w ∧ Asks w method params
    · obtain ⟨w, method, params, hw, h⟩ := hasks
      obtain ⟨hresult, hstate⟩ := Backend.invoke_noting (b := b) x clock s (hmethod hw h) params
      rw [b.noting.respond_of_asks x clock hw h, b.respond_of_asks x clock hw h, hresult]
      exact ⟨rfl, hstate⟩
    · obtain ⟨answer, hrespond⟩ := refused hasks
      rw [hrespond, hrespond]
      exact ⟨rfl, rfl⟩
  case last =>
    intro σ b s t ht
    by_cases hasks : ∃ w method params, Json.writtenBytes? body = some w ∧ Asks w method params
    · obtain ⟨w, method, params, hw, h⟩ := hasks
      rw [b.respond_of_asks x clock hw h, hw]
      exact (Backend.troubles_explain x clock s hw h (hmethod hw h)).answer ht _
    · obtain ⟨answer, hrespond⟩ := refused hasks
      rw [Backend.troubles, hrespond] at ht
      exact nomatch ht
  case undone => exact fun b s => b.respond_undoing x clock body s
  case caused =>
    intro σ b s w method params f hw h hf
    have hexplained := Backend.troubles_explain (b := b) x clock s hw h (hmethod hw h)
    rw [hf] at hexplained
    obtain ⟨c, rfl, hc⟩ := hexplained.cause
    rw [b.respond_of_asks x clock hw h, hf]
    exact ⟨rfl, c, rfl, c.tells, hc⟩

/-- Work on the shared connection can always be undone. -/
theorem Store.Database.undo_accepted {d d₁ : Database} (hc : Database.shared < d.engine.connections.length)
    (h : d.command Database.shared .begin = (.ok (), d₁)) (w : Work ε α) :
    ((d₁.work Database.shared w).2.command Database.shared .rollback).1 = .ok () := by
  have hin : ((d₁.work Database.shared w).2.engine.connection Database.shared).inTransaction = true :=
    (d₁.inTransaction_work _ w _).trans (begin_accepted hc h).2.1
  rw [Database.command, Engine.rollback_inside hin]

namespace Gateway

/-- The gateway is the one above the database. Above every backend, whatever it fails with or breaks down with, a body
that does not ask about the health is answered as the last trouble met demands: of an unavailable store, an internal
failure or a breakdown by its kind alone, of all others in full. The one thing that may fail untold, a rollback that
undoes work on the shared connection, never does above the database. -/
theorem failures_told_by_kind :
    (∀ (g : Gateway) (clock : Clock) (body : ByteArray),
      (Backend.database g.healthTable).respond g.execution clock body g.session =
        ((g.handle clock body).1, (g.handle clock body).2.session)) ∧
    (∀ (x : Execution) (clock : Clock) (body : ByteArray),
      (∀ w params, Json.writtenBytes? body = some w → ¬ Asks w Method.healthCheck.name params) →
        ToldByKind x clock body) ∧
    ∀ {α : Type} (d d₁ : Database) (w : Work Failure α), Database.shared < d.engine.connections.length →
      d.command Database.shared .begin = (.ok (), d₁) →
        ((d₁.work Database.shared w).2.command Database.shared .rollback).1 = .ok () :=
  ⟨Backend.respond_database, toldByKind, fun _ _ w hc h => Database.undo_accepted hc h w⟩

end Gateway

/-- Fails at everything it is asked for, and to undo it too. Its state is the commands that it was given. -/
def Backend.hopeless (f : Fault) : Backend (List Command) where
  operation _ _ s := (.error (.failed f), s)
  command _ k s := (if k = .rollback then .error (.failed (.engine "out of memory")) else .ok (), s ++ [k])
  connect s := (.ok 0, s)
  phases _ := []
  setPhases _ s := s
  health _ s := (.null, s)

namespace Gateway

def insertion : Json :=
  .object [("method", .string "insert_table"),
    ("params", .object [("table_name", .string "t"), ("data", .object [("id", .array [.string "x"])])]), ("id", .int 1)]

theorem readBytes?_insertion : Json.readBytes? insertion.print.toUTF8 = some insertion := by
  have hlegible : Json.Legible Json.depthLimit insertion := by
    refine .object fun m hm => ?_
    simp only [List.mem_cons, List.not_mem_nil, or_false] at hm
    rcases hm with rfl | rfl | rfl
    · exact .string _
    · refine .object fun m hm => ?_
      simp only [List.mem_cons, List.not_mem_nil, or_false] at hm
      rcases hm with rfl | rfl
      · exact .string _
      · refine .object fun m hm => ?_
        rw [List.mem_singleton.mp hm]
        exact .array fun v hv => List.mem_singleton.mp hv ▸ .string _
    · exact .int (by decide) (by decide)
  rw [Json.readBytes?_eq, Json.writtenBytes?_print hlegible]
  rfl

def inserting (b : Backend (List Command)) : (Nat × Answer) × List Command :=
  let told := b.respond ⟨.builtIn, false, 100⟩ ⟨0, "now", 0⟩ insertion.print.toUTF8 ⟨.empty, []⟩
  (told.1, told.2.world)

/-- A rollback that fails is not told, and a value that names a class of errors changes what is told of it. -/
theorem rollback_untold :
    inserting (.hopeless (.noTable "t")) =
      ((404, ⟨.int 1, .error ⟨-32004, "Table 't' not found"⟩⟩), [.begin, .rollback]) ∧
    ((Backend.hopeless (.noTable "t")).command Database.shared .rollback [.begin]).1 =
      .error (.failed (.engine "out of memory")) ∧
    (Trouble.failed (Fault.engine "out of memory")).answer (.int 1) =
      (500, ⟨.int 1, .error ⟨-32603, "Internal error"⟩⟩) ∧
    (inserting (.hopeless (.engine "Conversion Error: Could not convert string 'x' to INT32"))).1 =
      (400, ⟨.int 1, .error ⟨-32602, "Database error: Conversion Error: Could not convert string 'x' to INT32"⟩⟩) ∧
    (inserting (.hopeless (.engine "Conversion Error: Could not convert string 'IO Error' to INT32"))).1 =
      (503, ⟨.int 1, .error ⟨-32003, "Store unavailable"⟩⟩) := by
  refine ⟨?_, rfl, rfl, ?_, ?_⟩ <;> rw [inserting, Backend.respond, readBytes?_insertion] <;> rfl

end Gateway

end QueryGateway
