import QueryGateway.Store.Engine
import QueryGateway.Store.Work

namespace QueryGateway.Store

inductive Phase where
  | active
  | spoiled
  | closed
  deriving DecidableEq, Repr

inductive Event where
  | operation (op : Operation)
  | command (k : Command)

structure Database where
  /-- The path of its file; without one it is kept in memory and lost when it is closed. -/
  file : Option String
  /-- The schema in which tables are looked for. -/
  schema : String
  engine : Engine
  /-- Of the transactions begun so far; the transaction of number `k` works on connection `k + 1`. -/
  phases : List Phase
  /-- What was done, first to last, each with its connection. -/
  log : List (Nat × Event)

namespace Database

variable {ε α : Type}

def shared : Nat := 0

def connectionOf (transaction : Nat) : Nat :=
  transaction + 1

def ofTables (file : Option String) (schema : String) (tables : List Table) : Database :=
  ⟨file, schema, .ofTables tables, [], []⟩

def name (d : Database) : String :=
  d.file.getD ":memory:"

def record (d : Database) (c : Nat) (event : Event) : Database :=
  { d with log := d.log ++ [(c, event)] }

/-- What an operation answers, and the engine after it. A fault leaves the engine as it was. -/
def answer (schema : String) (e : Engine) (c : Nat) : (op : Operation) → Except Fault op.Answer × Engine
  | .probe => (.ok (), e)
  | .describe table => (Engine.describe (e.view c) schema table, e)
  | .select t s => (e.select c t s, e)
  | .contains t wanted => (e.contains c t wanted, e)
  | .insert t bs =>
    match e.insert c t bs with
    | .ok e' => (.ok (), e')
    | .error f => (.error f, e)
  | .update t assignments wanted =>
    match e.update c t assignments wanted with
    | .ok (n, e') => (.ok n, e')
    | .error f => (.error f, e)
  | .warn _ => (.ok (), e)

/-- Whether an operation is a statement of its own, which fixes what its transaction reads. -/
def reads : Operation → Bool
  | .warn _ => false
  | _ => true

def perform (d : Database) (c : Nat) (op : Operation) : Except Fault op.Answer × Database :=
  let e := if reads op then d.engine.pin c else d.engine
  let (result, e) := answer d.schema e c op
  (result, { d.record c (.operation op) with engine := e })

def work (d : Database) (c : Nat) : Work ε α → Outcome ε α × Database
  | .finish outcome => (outcome, d)
  | .perform op next =>
    let (result, d) := d.perform c op
    d.work c (next result)

def command (d : Database) (c : Nat) (k : Command) : Except Fault Unit × Database :=
  let (result, e) := d.engine.command c k
  (result, { d.record c (.command k) with engine := e })

/-- Does the work on the shared connection, each statement for itself. -/
def run (d : Database) (w : Work ε α) : Outcome ε α × Database :=
  d.work shared w

/-- Does the work on the shared connection in a transaction of its own, which is committed if the work succeeds and
rolled back if it fails. Work that breaks down leaves the transaction open. -/
def runAtomic (d : Database) (ofFault : Fault → ε) (w : Work ε α) : Outcome ε α × Database :=
  match d.command shared .begin with
  | (.error f, d) => (.failed (ofFault f), d)
  | (.ok (), d) =>
    match d.work shared w with
    | (.done a, d) =>
      match d.command shared .commit with
      | (.ok (), d) => (.done a, d)
      | (.error f, d) => (.failed (ofFault f), d)
    | (.failed e, d) => (.failed e, (d.command shared .rollback).2)
    | (.broken, d) => (.broken, d)

def begin (d : Database) : Except Fault Nat × Database :=
  let (c, e) := d.engine.connect
  match { d with engine := e }.command c .begin with
  | (.error f, d) => (.error f, d)
  | (.ok (), d) => (.ok d.phases.length, { d with phases := d.phases ++ [.active] })

def phase (d : Database) (k : Nat) : Phase :=
  d.phases[k]?.getD .closed

def setPhase (d : Database) (k : Nat) (p : Phase) : Database :=
  { d with phases := d.phases.set k p }

/-- Does the work in a transaction, if that still takes any. -/
def runIn (d : Database) (k : Nat) (ofFault : Fault → ε) (w : Work ε α) : Outcome ε α × Database :=
  match d.phase k with
  | .closed => (.failed (ofFault .closed), d)
  | .spoiled => (.failed (ofFault .aborted), d)
  | .active =>
    match d.work (connectionOf k) w with
    | (.failed e, d) => (.failed e, d.setPhase k .spoiled)
    | (outcome, d) => (outcome, d)

/-- Commits a transaction; one that is spoiled is rolled back instead. -/
def commit (d : Database) (k : Nat) : Except Fault Unit × Database :=
  match d.phase k with
  | .closed => (.error .closed, d)
  | .active => (d.setPhase k .closed).command (connectionOf k) .commit
  | .spoiled =>
    match (d.setPhase k .closed).command (connectionOf k) .rollback with
    | (.error f, d) => (.error f, d)
    | (.ok (), d) => (.error .aborted, d)

def rollback (d : Database) (k : Nat) : Except Fault Unit × Database :=
  match d.phase k with
  | .closed => (.error .closed, d)
  | _ => (d.setPhase k .closed).command (connectionOf k) .rollback

/-- Whether the database answers and, if one is named, has the table. -/
def ping (d : Database) (table : Option String) : Except Fault Unit × Database :=
  let w : Work Fault Unit := do
    Work.ask .probe
    match table with
    | none => pure ()
    | some name => let _ ← Work.describe name
  match d.run w with
  | (.failed f, d) => (.error f, d)
  | (_, d) => (.ok (), d)

/-- Closes the database and opens it again; open transactions are lost. -/
def reopen (d : Database) : Database :=
  let e := d.engine.disconnect
  { d with
    engine := if d.file.isSome then e else { e with tables := [] }
    phases := d.phases.map fun _ => .closed }

end Database

end QueryGateway.Store
