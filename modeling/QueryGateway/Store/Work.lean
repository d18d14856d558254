import QueryGateway.Store.Table
import QueryGateway.Request.OfQuery
import QueryGateway.Json.Printer

namespace QueryGateway.Store

/-- What is worth telling in the course of a query. -/
inductive Warning where
  | limit (w : LimitWarning)
  /-- More rows than may be ranked. -/
  | truncated
  deriving DecidableEq, Repr

def Warning.message : Warning → String
  | limit w => w.message
  | truncated => "vector candidates truncated; nearest-neighbour result is approximate"

inductive Operation where
  /-- Asks for nothing but an answer. -/
  | probe
  | describe (table : String)
  | select (t : TableInfo) (s : Select Column)
  | contains (t : TableInfo) (wanted : List Binding)
  | insert (t : TableInfo) (bs : List Binding)
  | update (t : TableInfo) (assignments wanted : List Binding)
  | warn (w : Warning)

namespace Operation

def Answer : Operation → Type
  | probe => Unit
  | describe _ => TableInfo
  | select .. => List Row
  | contains .. => Bool
  | insert .. => Unit
  | update .. => Nat
  | warn _ => Unit

def statement? : Operation → Option Statement
  | select t s => some (s.statement t)
  | contains t wanted => some (.existence t wanted)
  | insert t bs => some (.insertion t bs)
  | update t assignments wanted => some (.change t assignments wanted)
  | _ => none

end Operation

/-- How a unit of work ends. -/
inductive Outcome (ε α : Type) where
  | done (a : α)
  | failed (e : ε)
  | broken

inductive Work (ε α : Type) : Type where
  | finish (outcome : Outcome ε α)
  | perform (op : Operation) (next : Except Fault op.Answer → Work ε α)

namespace Work

variable {ε ε' α β : Type}

def bind (w : Work ε α) (f : α → Work ε β) : Work ε β :=
  match w with
  | finish (.done a) => f a
  | finish (.failed e) => finish (.failed e)
  | finish .broken => finish .broken
  | perform op next => perform op fun answer => (next answer).bind f

instance : Monad (Work ε) where
  pure a := finish (.done a)
  bind := bind

def fail (e : ε) : Work ε α :=
  finish (.failed e)

instance : MonadLift (Except ε) (Work ε) where
  monadLift
    | .ok a => pure a
    | .error e => fail e

def mapError (f : ε → ε') : Work ε α → Work ε' α
  | finish (.done a) => finish (.done a)
  | finish (.failed e) => finish (.failed (f e))
  | finish .broken => finish .broken
  | perform op next => perform op fun answer => (next answer).mapError f

/-- A single operation; where it fails, so does the unit. -/
def ask (op : Operation) : Work Fault op.Answer :=
  perform op fun
    | .ok a => pure a
    | .error f => fail f

def describe (table : String) : Work Fault TableInfo :=
  ask (.describe table)

def warn (w : Warning) : Work Fault Unit :=
  ask (.warn w)

def select (t : TableInfo) (s : Select String) : Work Fault (List Row) := do
  ask (.select t (← s.resolve t))

/-- Whether a row has all the values, null being the same as null. -/
def contains (t : TableInfo) (pairs : List (String × Option String)) : Work Fault Bool := do
  ask (.contains t (← t.bind pairs))

/-- Appends a row of a batch. An index beyond the batch breaks the unit. -/
def insertRow (t : TableInfo) (columns : List Column) (b : Batch) (i : Nat) : Work Fault Unit :=
  if i < b.rowCount then
    ask (.insert t (List.zipWith Binding.mk columns ((b.row i).map (·.2.scalarText?))))
  else finish .broken

theorem insertRow_of_lt {t : TableInfo} {columns : List Column} {b : Batch} {i : Nat} (hi : i < b.rowCount) :
    insertRow t columns b i = ask (.insert t (List.zipWith Binding.mk columns ((b.row i).map (·.2.scalarText?)))) :=
  if_pos hi

/-- Appends rows of a batch, each on its own; tells how many. -/
def insertRows (t : TableInfo) (b : Batch) (indices : List Nat) : Work Fault Nat := do
  let columns ← (b.columnNames.mapM t.column : Except Fault (List Column))
  Binding.checkDistinct t (columns.map (⟨·, none⟩))
  indices.forM (insertRow t columns b)
  return indices.length

def insertAll (t : TableInfo) (b : Batch) : Work Fault Nat :=
  insertRows t b (List.range b.rowCount)

/-- Changes the rows that have all the values; tells how many. -/
def update (t : TableInfo) (assignments wanted : List (String × Option String)) : Work Fault Nat := do
  let assignments ← t.bind assignments
  let wanted ← t.bind wanted
  Binding.checkSome t assignments
  Binding.checkDistinct t assignments
  ask (.update t assignments wanted)

end Work

end QueryGateway.Store
