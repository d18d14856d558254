import QueryGateway.Store.Table
import QueryGateway.Text.LowerCase

namespace QueryGateway.Store

inductive Change where
  | add (table : Nat) (r : Record)
  /-- New cells for the record with that id. -/
  | replace (table : Nat) (r : Record)

namespace Change

def apply (stamp : Nat) (tables : List Table) : Change → List Table
  | add i r => tables.modify i (·.add { r with stamp })
  | replace i r => tables.modify i (·.replace { r with stamp })

def applyAll (stamp : Nat) (tables : List Table) (changes : List Change) : List Table :=
  changes.foldl (apply stamp) tables

def replaced? : Change → Option Nat
  | add .. => none
  | replace _ r => some r.id

end Change

/-- A transaction that has begun to read. -/
structure Pending where
  /-- The number of commits before its first statement. -/
  since : Nat
  base : List Table
  changes : List Change

namespace Pending

def view (p : Pending) : List Table :=
  Change.applyAll p.since p.base p.changes

/-- The ids of the records that it holds against others. -/
def locks (p : Pending) : List Nat :=
  p.changes.filterMap Change.replaced?

end Pending

inductive Connection where
  /-- Outside a transaction. -/
  | idle
  /-- In a transaction that has not run a statement yet. -/
  | begun
  | reading (p : Pending)

namespace Connection

def locks : Connection → List Nat
  | reading p => p.locks
  | _ => []

def inTransaction : Connection → Bool
  | idle => false
  | _ => true

end Connection

inductive Command where
  | begin
  | commit
  | rollback
  deriving DecidableEq, Repr

structure Engine where
  /-- What is committed. -/
  tables : List Table
  /-- The number of commits so far. -/
  stamp : Nat
  nextId : Nat
  connections : List Connection

namespace Engine

def ofTables (tables : List Table) : Engine :=
  ⟨tables, 0, 0, [.idle]⟩

def connection (e : Engine) (c : Nat) : Connection :=
  e.connections[c]?.getD .idle

def setConnection (e : Engine) (c : Nat) (state : Connection) : Engine :=
  { e with connections := e.connections.set c state }

/-- Opens one more connection; its number is how many there were. -/
def connect (e : Engine) : Nat × Engine :=
  (e.connections.length, { e with connections := e.connections ++ [.idle] })

/-- Fixes what a transaction reads, if that is still open. -/
def pin (e : Engine) (c : Nat) : Engine :=
  match e.connection c with
  | .begun => e.setConnection c (.reading ⟨e.stamp, e.tables, []⟩)
  | _ => e

def view (e : Engine) (c : Nat) : List Table :=
  match e.connection c with
  | .reading p => p.view
  | _ => e.tables

def commitChanges (e : Engine) (changes : List Change) : Engine :=
  { e with tables := Change.applyAll (e.stamp + 1) e.tables changes, stamp := e.stamp + 1 }

/-- Notes changes for the commit to come, or commits them at once. -/
def write (e : Engine) (c : Nat) (changes : List Change) : Engine :=
  match e.connection c with
  | .reading p => e.setConnection c (.reading { p with changes := p.changes ++ changes })
  | _ => e.commitChanges changes

def findTable? (tables : List Table) (schema name : String) : Option (Nat × Table) :=
  (tables.zipIdx.find? fun (t, _) => t.info.schema == schema && t.info.name == name).map fun (t, i) => (i, t)

/-- The table of that name in any letter case, in exactly that schema. -/
def describe (tables : List Table) (schema name : String) : Except Fault TableInfo :=
  match tables.find? fun t => t.info.schema == schema && Text.sameLetters t.info.name name with
  | some t => .ok t.info
  | none => .error (.noTable name)

def missingTable (t : TableInfo) : Fault :=
  .engine s!"Catalog Error: Table with name {t.name} does not exist!"

/-- Committed records that the connection has not replaced itself. -/
def rivals (e : Engine) (c i : Nat) : Table → Table := fun t =>
  let own := (e.connection c).locks
  match e.tables[i]? with
  | some committed => { committed with records := committed.records.filter fun r => !own.contains r.id }
  | none => { t with records := [] }

/-- The first column in which the record repeats a value: among the rows the connection sees, or among those
committed by others. -/
def duplicate? (e : Engine) (c i : Nat) (t : Table) (columns : List Column) (r : Record) : Option Fault :=
  t.duplicate? columns r <|> (e.rivals c i t).duplicate? columns r

/-- Whether a record may not be replaced: another transaction holds it, or a commit since the connection began to
read has changed it. -/
def contested (e : Engine) (c i id : Nat) : Bool :=
  (e.connections.zipIdx.any fun (other, k) => k != c && other.locks.contains id) ||
    match e.connection c, e.tables[i]? with
    | .reading p, some t => t.records.any fun r => r.id == id && p.since < r.stamp
    | _, _ => false

def conflict : Fault :=
  .engine "TransactionContext Error: Conflict on update!"

/-- Appends a row with values for some columns; the others are null. -/
def insert (e : Engine) (c : Nat) (info : TableInfo) (bs : List Binding) : Except Fault Engine :=
  match findTable? (e.view c) info.schema info.name with
  | none => .error (missingTable info)
  | some (i, t) => do
    let given ← Binding.castAll bs
    let r : Record := ⟨e.nextId, Binding.cells t.info given fun _ => .null, 0⟩
    match Table.missing? t.info t.info.columns r <|> e.duplicate? c i t t.info.columns r with
    | some f => .error f
    | none => .ok { e.write c [.add i r] with nextId := e.nextId + 1 }

/-- Gives values to some columns of the rows that satisfy all conditions; also tells how many these are. -/
def update (e : Engine) (c : Nat) (info : TableInfo) (assignments wanted : List Binding) :
    Except Fault (Nat × Engine) :=
  match findTable? (e.view c) info.schema info.name with
  | none => .error (missingTable info)
  | some (i, t) => do
    let found ← Binding.applyAll t.info wanted t.records
    if found.isEmpty then return (0, e)
    let given ← Binding.castAll assignments
    let columns := assignments.map (·.column)
    let changed := found.map fun r => { r with cells := Binding.cells t.info given (t.info.cell · r) }
    let after := changed.foldl Table.replace t
    match changed.findSome? (Table.missing? t.info columns) with
    | some f => .error f
    | none =>
      if found.any fun r => e.contested c i r.id then .error conflict
      else match changed.findSome? (e.duplicate? c i after columns) with
        | some f => .error f
        | none => .ok (changed.length, e.write c (changed.map (.replace i)))

def select (e : Engine) (c : Nat) (info : TableInfo) (s : Select Column) : Except Fault (List Row) :=
  match findTable? (e.view c) info.schema info.name with
  | none => .error (missingTable info)
  | some (_, t) => s.run t.info t.records

def contains (e : Engine) (c : Nat) (info : TableInfo) (wanted : List Binding) : Except Fault Bool :=
  match findTable? (e.view c) info.schema info.name with
  | none => .error (missingTable info)
  | some (_, t) => do return !(← Binding.applyAll t.info wanted t.records).isEmpty

/-- Whether every unique column of every table has each of its values once. -/
def keysDistinct (tables : List Table) : Bool :=
  tables.all fun t => t.records.all fun r => (t.duplicate? t.info.columns r).isNone

def commit (e : Engine) (c : Nat) : Except Fault Unit × Engine :=
  match e.connection c with
  | .idle => (.error (.engine "TransactionContext Error: cannot commit - no transaction is active"), e)
  | .begun => (.ok (), e.setConnection c .idle)
  | .reading p =>
    let after := (e.commitChanges p.changes).setConnection c .idle
    if p.changes.isEmpty then (.ok (), e.setConnection c .idle)
    else if keysDistinct after.tables then (.ok (), after)
    else
      (.error (.engine "TransactionContext Error: Failed to commit: PRIMARY KEY or UNIQUE constraint violation"),
        e.setConnection c .idle)

def command (e : Engine) (c : Nat) : Command → Except Fault Unit × Engine
  | .begin =>
    if (e.connection c).inTransaction then
      (.error (.engine "TransactionContext Error: cannot start a transaction within a transaction"), e)
    else (.ok (), e.setConnection c .begun)
  | .commit => e.commit c
  | .rollback =>
    if (e.connection c).inTransaction then (.ok (), e.setConnection c .idle)
    else (.error (.engine "TransactionContext Error: cannot rollback - no transaction is active"), e)

def disconnect (e : Engine) : Engine :=
  { e with connections := e.connections.map fun _ => .idle }

end Engine

end QueryGateway.Store
