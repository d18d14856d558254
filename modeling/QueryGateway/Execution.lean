import QueryGateway.Store.Work
import QueryGateway.Rpc.Failure

namespace QueryGateway

open Store

-- Powers are the core library's, whatever else is imported.
attribute [local instance (high)] instPowNat

structure Execution where
  functions : FunctionTable
  nativeVectorOrdering : Bool
  /-- How many rows may be ranked. -/
  maxVectorCandidates : Nat

namespace Execution

/-- Row counts are unsigned numbers of 64 bits. -/
def largestCount : Nat := 2 ^ (64 : Nat) - 1

def filters (r : Request) : List (Store.Filter String) :=
  r.predicates.map fun p => ⟨p.column, p.op, some p.value⟩

def storeOrder : Ordering → Option (RowOrder String)
  | .column name direction => some (.column name direction)
  | .vector v => v.native.map fun f => .distance f v.column v.vector

/-- Everything is left to the store. -/
def pushDown (r : Request) : Work Fault (List Row) := do
  let t ← Work.describe r.table
  Work.select t ⟨r.columns, filters r, r.ordering.bind storeOrder, r.limit⟩

/-- The columns to fetch: those asked for, and the one that decides the order. -/
def fetched (columns : List String) (vectorColumn : String) : List String :=
  if columns.any (Text.sameName · vectorColumn) then columns else columns ++ [vectorColumn]

/-- Whether the column that decides the order is fetched for that purpose alone. -/
def isAuxiliary (columns : Option (List String)) (vectorColumn : String) : Bool :=
  columns.any fun names => !names.any (Text.sameName · vectorColumn)

def withoutColumn (name : String) (row : Row) : Row :=
  row.filter (·.1 != name)

/-- One row more than may be ranked is fetched, which tells whether there are more. -/
def ranked (x : Execution) (r : Request) (v : VectorOrdering) : Work Fault (List Row) := do
  let t ← Work.describe r.table
  let column ← t.column v.column
  let bound := min (x.maxVectorCandidates + 1) largestCount
  let rows ← Work.select t ⟨r.columns.map (fetched · column.name), filters r, none, some bound⟩
  if x.maxVectorCandidates < rows.length then Work.warn .truncated
  let nearest := Ranking.nearestFirst column.name v.metric v.vector (rows.take x.maxVectorCandidates)
  let answer := Ranking.cut r.limit nearest
  return if isAuxiliary r.columns column.name then answer.map (withoutColumn column.name) else answer

def execute (x : Execution) (r : Request) : Work Fault (List Row) :=
  match r.vectorOrdering? with
  | some v => if x.nativeVectorOrdering && v.native.isSome then pushDown r else x.ranked r v
  | none => pushDown r

def executeText (x : Execution) (text : String) (args : List String) : Work Rpc.Failure (List Row) := do
  let t ← (Request.ofText text args x.functions).mapError Rpc.Failure.ofQueryError
  (t.warnings.forM fun w => Work.warn (.limit w)).mapError Rpc.Failure.ofFault
  (x.execute t.request).mapError Rpc.Failure.ofFault

end Execution

end QueryGateway
