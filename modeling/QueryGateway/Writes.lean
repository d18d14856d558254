import QueryGateway.Store.Work
import QueryGateway.Rpc.Failure

namespace QueryGateway.Writes

open Store

/-- Appends a batch, given by columns; tells how many rows it has. -/
def insert (table : String) (data : List (String × Json)) : Work Rpc.Failure Nat := do
  let b ← (Batch.ofMembers data).mapError Rpc.Failure.ofBatchError
  (do Work.insertAll (← Work.describe table) b : Work Fault Nat).mapError Rpc.Failure.ofFault

structure Upserted where
  inserted : Nat
  skipped : Nat
  deriving DecidableEq, Repr

/-- The key of a row: the texts of its values in the key columns. -/
def key (b : Batch) (keyColumns : List String) (i : Nat) : List (String × Option String) :=
  keyColumns.map fun k => (k, (b.value? k i).bind Json.scalarText?)

/-- Appends the row unless the table has one with its key. -/
def upsertRow (t : TableInfo) (b : Batch) (keyColumns : List String) (done : Upserted) (i : Nat) :
    Work Fault Upserted := do
  if ← Work.contains t (key b keyColumns i) then
    return { done with skipped := done.skipped + 1 }
  else
    return { done with inserted := done.inserted + (← Work.insertRows t b [i]) }

/-- Appends those rows of a batch whose key is not there yet; a row counts for those after it. -/
def upsert (table : String) (data : List (String × Json)) (keyColumns : List String) : Work Rpc.Failure Upserted := do
  if keyColumns.isEmpty then Work.fail (.invalidParams "key_columns must not be empty")
  let b ← (Batch.ofMembers data).mapError Rpc.Failure.ofBatchError
  (b.requireKeys keyColumns).mapError Rpc.Failure.ofBatchError
  let t ← (Work.describe table).mapError Rpc.Failure.ofFault
  ((List.range b.rowCount).foldlM (upsertRow t b keyColumns) ⟨0, 0⟩).mapError Rpc.Failure.ofFault

def texts (members : List (String × Json)) : List (String × Option String) :=
  members.map fun (name, v) => (name, v.scalarText?)

/-- Gives values to the rows that have all the wanted ones; tells how many. -/
def update (table : String) (values wanted : List (String × Json)) : Work Rpc.Failure Nat := do
  if values.isEmpty then Work.fail (.invalidParams "set_values must not be empty")
  if wanted.isEmpty then
    Work.fail (.invalidParams "where_conditions must not be empty; unconditional updates are not allowed")
  (do Work.update (← Work.describe table) (texts values) (texts wanted) : Work Fault Nat).mapError Rpc.Failure.ofFault

end QueryGateway.Writes
