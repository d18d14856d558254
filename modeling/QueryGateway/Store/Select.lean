import QueryGateway.Store.Column
import QueryGateway.Store.Fault
import QueryGateway.Comparison

namespace QueryGateway.Store

structure TableInfo where
  schema : String
  name : String
  columns : List Column
  deriving DecidableEq, Repr

namespace TableInfo

/-- The first column of that name, in any letter case. -/
def column (t : TableInfo) (name : String) : Except Fault Column :=
  match t.columns.find? (Text.sameName ·.name name) with
  | some c => .ok c
  | none => .error (.noColumn t.name name)

end TableInfo

/-- A comparison of a column with a text that is read as a value of the column; no text stands for null. -/
structure Filter (κ : Type) where
  column : κ
  op : Comparison
  value : Option String

inductive RowOrder (κ : Type) where
  | column (c : κ) (direction : Direction)
  /-- Nearest first, by the store's own function. -/
  | distance (function : String) (c : κ) (vector : List Float)

structure Select (κ : Type) where
  /-- All columns if there is no list. -/
  columns : Option (List κ)
  filters : List (Filter κ)
  order : Option (RowOrder κ)
  limit : Option Nat

namespace Select

def everything {κ : Type} : Select κ :=
  ⟨none, [], none, none⟩

def resolveFilter (t : TableInfo) (f : Filter String) : Except Fault (Filter Column) := do
  return { column := ← t.column f.column, op := f.op, value := f.value }

def resolveOrder (t : TableInfo) : RowOrder String → Except Fault (RowOrder Column)
  | .column name direction => return .column (← t.column name) direction
  | .distance function name vector => return .distance function (← t.column name) vector

/-- Finds the columns of a question: those of the projection, those of the filters, then that of the order. -/
def resolve (t : TableInfo) (s : Select String) : Except Fault (Select Column) := do
  let columns ← s.columns.mapM fun names => names.mapM t.column
  let filters ← s.filters.mapM (resolveFilter t)
  let order ← s.order.mapM (resolveOrder t)
  return { columns, filters, order, limit := s.limit }

/-- The columns of the answer as they are asked for. -/
def projection (t : TableInfo) (s : Select Column) : List Column :=
  s.columns.getD t.columns

end Select

/-- A column and the text of a value for it. -/
structure Binding where
  column : Column
  value : Option String

def TableInfo.bind (t : TableInfo) (pairs : List (String × Option String)) : Except Fault (List Binding) :=
  pairs.mapM fun (name, value) => do return ⟨← t.column name, value⟩

end QueryGateway.Store
