import QueryGateway.Execution
import QueryGateway.Writes
import QueryGateway.Metrics
import QueryGateway.Rpc.Call
import QueryGateway.Rpc.Envelope
import QueryGateway.Store.Database

namespace QueryGateway

open Rpc Store

structure Clock where
  /-- Microseconds, from some beginning. -/
  now : Nat
  /-- The date and time. -/
  timestamp : String
  /-- The microseconds that the call has taken. -/
  elapsed : Nat

structure Gateway where
  session : Transactions.Session Database Nat
  execution : Execution
  healthTable : Option String
  metrics : Metrics

namespace Gateway

variable {α : Type}

def new (d : Database) (x : Execution) (healthTable : Option String) : Gateway :=
  ⟨⟨.empty, d⟩, x, healthTable, .empty⟩

def finisher : Transactions.Finisher Database Nat :=
  ⟨fun k d => d.commit k, fun k d => d.rollback k⟩

def openCount (g : Gateway) : Nat :=
  g.session.registry.openCount

def withDatabase (g : Gateway) (d : Database) : Gateway :=
  { g with session := { g.session with world := d } }

def brokenDown (method : Method) : Failure :=
  .internal (method.name ++ " handler failed")

def settle (method : Method) : Outcome Failure α → Except Failure α
  | .done a => .ok a
  | .failed f => .error f
  | .broken => .error (brokenDown method)

/-- Does the work in the transaction with that handle, which counts as using it. -/
def inTransaction (g : Gateway) (now : Nat) (handle : String) (w : Work Failure α) : Outcome Failure α × Gateway :=
  match g.session.registry.use? handle now with
  | none => (.failed (.ofTransactionError (.notFound handle)), g)
  | some (k, registry) =>
    let (outcome, d) := g.session.world.runIn k .ofFault w
    (outcome, { g with session := ⟨registry, d⟩ })

def read (g : Gateway) (now : Nat) (handle : Option String) (w : Work Failure α) : Outcome Failure α × Gateway :=
  match handle with
  | some h => g.inTransaction now h w
  | none =>
    let (outcome, d) := g.session.world.run w
    (outcome, g.withDatabase d)

/-- Does work that writes; outside a transaction it is one of its own. -/
def write (g : Gateway) (now : Nat) (handle : Option String) (w : Work Failure α) : Outcome Failure α × Gateway :=
  match handle with
  | some h => g.inTransaction now h w
  | none =>
    let (outcome, d) := g.session.world.runAtomic .ofFault w
    (outcome, g.withDatabase d)

/-- The row with that value in the column; of several, the first. -/
def rowById (table column : String) (value : Json) : Work Failure (Option Row) :=
  (do
    let t ← Work.describe table
    let rows ← Work.select t ⟨none, [⟨column, .eq, value.scalarText?⟩], none, some 1⟩
    return rows.getLast? : Work Fault (Option Row)).mapError .ofFault

def status (s : String) (more : List (String × Json)) : Json :=
  .object (("status", .string s) :: more)

def methodOf : Action → Method
  | .query .. => .executeQuery
  | .selectById .. => .selectById
  | .insert .. => .insertTable
  | .upsert .. => .upsertTable
  | .update .. => .updateTable

def work (x : Execution) : Action → Work Failure Json
  | .query sql args => do return .array ((← x.executeText sql args).map .object)
  | .selectById table column value => do return Json.ofOption .object (← rowById table column value)
  | .insert table data => do return status "inserted" [("rows", .int (← Writes.insert table data))]
  | .upsert table data keyColumns => do
    let n ← Writes.upsert table data keyColumns
    return status "upserted" [("rows", .int n.inserted), ("skipped", .int n.skipped)]
  | .update table values wanted => do return status "updated" [("rows", .int (← Writes.update table values wanted))]

def isWrite : Action → Bool
  | .query .. => false
  | .selectById .. => false
  | _ => true

def act (g : Gateway) (now : Nat) (action : Action) (handle : Option String) : Except Failure Json × Gateway :=
  let (outcome, g') :=
    if isWrite action then g.write now handle (work g.execution action)
    else g.read now handle (work g.execution action)
  (settle (methodOf action) outcome, g')

/-- The state of the database; that it does not answer is no failure of the call. -/
def health (g : Gateway) (timestamp : String) : Json × Gateway :=
  match g.session.world.ping g.healthTable with
  | (.ok (), d) =>
    (status "healthy"
      [("database", .string d.name), ("schema", .string d.schema), ("timestamp", .string timestamp)],
      g.withDatabase d)
  | (.error f, d) =>
    (status "unhealthy" [("error", .string f.message), ("timestamp", .string timestamp)], g.withDatabase d)

def begin (g : Gateway) (now : Nat) : Except Failure Json × Gateway :=
  match g.session.world.begin with
  | (.error f, d) => (.error (.ofFault f), g.withDatabase d)
  | (.ok k, d) =>
    let (handle, registry) := g.session.registry.add k now
    (.ok (.string handle), { g with session := ⟨registry, d⟩ })

def finish (g : Gateway) (done : String)
    (r : Except Transactions.TransactionError Unit × Transactions.Session Database Nat) :
    Except Failure Json × Gateway :=
  ((r.1.map fun _ => status done []).mapError Failure.ofTransactionError, { g with session := r.2 })

def answerCall (g : Gateway) (clock : Clock) : Call → Except Failure Json × Gateway
  | .ping => (.ok (status "ok" [("timestamp", .string clock.timestamp)]), g)
  | .health =>
    let (v, g) := g.health clock.timestamp
    (.ok v, g)
  | .begin => g.begin clock.now
  | .commit handle => g.finish "committed" (g.session.commit finisher handle)
  | .rollback handle => g.finish "rolled_back" (g.session.rollback finisher handle)
  | .act action handle => g.act clock.now action handle

/-- Parameters that are missing or null are none at all. -/
def paramsOf : Option Json → Except Failure (List (String × Json))
  | none => .ok []
  | some .null => .ok []
  | some (.object members) => .ok members
  | some _ => .error (.invalidParams "params must be an object")

/-- Finds the method, reads the parameters, and only then does anything. -/
def invoke (g : Gateway) (clock : Clock) (method : String) (params : Option Json) : Except Failure Json × Gateway :=
  match Method.ofName? method with
  | none => (.error (.methodNotFound method), g)
  | some m =>
    match (do Call.ofParams m (← paramsOf params) : Except Failure Call) with
    | .error f => (.error f, g)
    | .ok call => g.answerCall clock call

def outcomeName : Except Failure Json → String
  | .ok _ => "ok"
  | .error f => f.kind.label

/-- Methods that do not exist are all counted under one name. -/
def methodLabel (method : String) : String :=
  if (Method.ofName? method).isSome then method else "unknown"

def gauge (g : Gateway) : Gateway :=
  { g with metrics := g.metrics.setOpenTransactions g.openCount }

def call (g : Gateway) (clock : Clock) (method : String) (params : Option Json) : Except Failure Json × Gateway :=
  let (result, g) := g.invoke clock method params
  let metrics := g.metrics.observe (methodLabel method) (outcomeName result) clock.elapsed
  (result, gauge { g with metrics })

/-- Answers a call whose body is JSON, with the HTTP status of the answer. -/
def handleJson (g : Gateway) (clock : Clock) (body : Json) : (Nat × Answer) × Gateway :=
  let id := Envelope.idOf body
  match Envelope.ofJson body with
  | .error e => ((400, .refusal id e), g)
  | .ok envelope =>
    match g.call clock envelope.method envelope.params with
    | (.ok v, g) => ((200, ⟨id, .ok v⟩), g)
    | (.error f, g) => ((f.kind.status, .ofFailure id f), g)

def handle (g : Gateway) (clock : Clock) (body : ByteArray) : (Nat × Answer) × Gateway :=
  match Json.readBytes? body with
  | none => ((400, .refusal .null .notJson), g)
  | some v => g.handleJson clock v

/-- Rolls back the transactions that have not been used for longer than `maxIdle`; tells how many. -/
def expire (g : Gateway) (now maxIdle : Nat) : Nat × Gateway :=
  let (n, session) := g.session.expire finisher now maxIdle
  (n, gauge { g with session })

/-- Rolls back all open transactions before the database is closed. -/
def close (g : Gateway) : Gateway :=
  { g with session := (g.session.rollbackAll finisher).2 }

end Gateway

end QueryGateway
