import QueryGateway.Store.Select
import QueryGateway.Store.Statement
import QueryGateway.Store.Cast
import QueryGateway.Store.Order
import QueryGateway.Store.ValueText
import QueryGateway.Vector

namespace QueryGateway.Store

/-- A row as some commit wrote it. -/
structure Record where
  id : Nat
  /-- In the order of the table's columns. -/
  cells : List Value
  stamp : Nat

structure Table where
  info : TableInfo
  records : List Record

namespace TableInfo

def cell (t : TableInfo) (c : Column) (r : Record) : Value :=
  ((t.columns.zip r.cells).lookup c).getD .null

/-- A row by the names of columns; a column that is asked for twice is there once. -/
def row (t : TableInfo) (columns : List Column) (r : Record) : Row :=
  columns.eraseDups.map fun c => (c.name, (t.cell c r).toJson)

end TableInfo

namespace Filter

def apply (t : TableInfo) (f : Filter Column) (rs : List Record) : Except Fault (List Record) :=
  match f.op, f.value with
  | .eq, none => .ok (rs.filter fun r => (t.cell f.column r).isNull)
  | .ne, none => .ok (rs.filter fun r => !(t.cell f.column r).isNull)
  | .like, none => .ok []
  | .like, some part => .ok (rs.filter fun r => (t.cell f.column r).text?.any (Text.contains · part))
  | op, v =>
    if rs.isEmpty then .ok []
    else do
      let wanted ← f.column.type.cast v
      return rs.filter fun r => (t.cell f.column r).compares op wanted

end Filter

namespace Select

def applyFilters (t : TableInfo) : List (Filter Column) → List Record → Except Fault (List Record)
  | [], rs => .ok rs
  | f :: fs, rs => do applyFilters t fs (← f.apply t rs)

def nativeMetrics : List (String × Metric) :=
  [("array_cosine_distance", .cosine)]

def nativeMetric? (function : String) : Option Metric :=
  (nativeMetrics.find? (Text.sameName ·.1 function)).map (·.2)

/-- The distance of two vectors; null where one of them is. -/
def distance (metric : Metric) (a b : Value) : Value :=
  match a.numbers?, b.numbers? with
  | some x, some y => .double (metric.totalDistance x y)
  | _, _ => .null

/-- Nearest first, null last. A vector in which a number is missing has no distance to any other, which is a fault. -/
def nearest (t : TableInfo) (function : String) (metric : Metric) (c : Column) (vector : List Float)
    (rs : List Record) : Except Fault (List Record) :=
  if rs.isEmpty then .ok []
  else do
    let wanted ← c.type.cast (some (vectorText vector))
    if rs.any fun r => (t.cell c r).hasGap then
      .error (.engine s!"Invalid Input Error: {function}: left argument can not contain NULL values")
    else return rs.mergeSort fun a b =>
      (distance metric (t.cell c a) wanted).notAfter .ascending (distance metric (t.cell c b) wanted)

/-- Rows that are equal in the order asked for keep their own. -/
def arrange (t : TableInfo) (order : Option (RowOrder Column)) (rs : List Record) : Except Fault (List Record) :=
  match order with
  | none => .ok rs
  | some (.column c direction) =>
    .ok (rs.mergeSort fun a b => (t.cell c a).notAfter direction (t.cell c b))
  | some (.distance function c vector) =>
    match nativeMetric? function with
    | some metric => nearest t function metric c vector rs
    | none => .ok rs

def isVector : ColumnType → Bool
  | .vector _ => true
  | _ => false

/-- What is wrong with a statement before it meets a row. -/
def check (t : TableInfo) (s : Select Column) : Except Fault Unit :=
  if (s.projection t).isEmpty then .error (.engine "Parser Error: SELECT clause without selection list")
  else match s.order with
    | some (.distance function c _) =>
      if (nativeMetric? function).isNone then
        .error (.engine s!"Catalog Error: Scalar Function with name {function} does not exist!")
      else if isVector c.type then .ok ()
      else .error (.engine s!"Binder Error: No function matches the given name and argument types '{function}'")
    | _ => .ok ()

/-- The rows that a question asks for. With a limit of zero nothing is looked at. -/
def run (t : TableInfo) (s : Select Column) (rs : List Record) : Except Fault (List Row) := do
  s.check t
  if s.limit = some 0 then return []
  let found ← arrange t s.order (← applyFilters t s.filters rs)
  return (Ranking.cut (s.limit.map (min · limitBound)) found).map (t.row (s.projection t))

end Select

namespace Binding

/-- The rows that have this value, null being the same as null. -/
def apply (t : TableInfo) (b : Binding) (rs : List Record) : Except Fault (List Record) :=
  if rs.isEmpty then .ok []
  else do
    let wanted ← b.column.type.cast b.value
    return rs.filter fun r => (t.cell b.column r).same wanted

def applyAll (t : TableInfo) : List Binding → List Record → Except Fault (List Record)
  | [], rs => .ok rs
  | b :: bs, rs => do applyAll t bs (← b.apply t rs)

/-- A column is named at most once. -/
def checkDistinct (t : TableInfo) (bs : List Binding) : Except Fault Unit :=
  match bs.find? fun b => 1 < bs.countP (·.column.name == b.column.name) with
  | some b => .error (.engine s!"Binder Error: Duplicate column \"{b.column.name}\" in table \"{t.name}\"")
  | none => .ok ()

/-- A change names a column at least. -/
def checkSome (t : TableInfo) (bs : List Binding) : Except Fault Unit :=
  if bs.isEmpty then .error (.engine s!"Parser Error: no column of \"{t.name}\" is set") else .ok ()

/-- The values of a row with columns and values that are given for some of them. -/
def cells (t : TableInfo) (given : List (Column × Value)) (old : Column → Value) : List Value :=
  t.columns.map fun c => (given.lookup c).getD (old c)

def castAll (bs : List Binding) : Except Fault (List (Column × Value)) :=
  bs.mapM fun b => do return (b.column, ← b.column.type.cast b.value)

end Binding

namespace Table

/-- Whether a record other than the one with this id has the value. -/
def taken (t : Table) (c : Column) (id : Nat) (v : Value) : Bool :=
  !v.isNull && t.records.any fun r => r.id != id && (t.info.cell c r).same v

/-- A column that may not be null but is. -/
def missing? (t : TableInfo) (columns : List Column) (r : Record) : Option Fault :=
  (columns.find? fun c => c.required && (t.cell c r).isNull).map fun c =>
    .engine s!"Constraint Error: NOT NULL constraint failed: {t.name}.{c.name}"

/-- A column that may have a value only once but has it again. -/
def duplicate? (t : Table) (columns : List Column) (r : Record) : Option Fault :=
  (columns.find? fun c => c.unique && t.taken c r.id (t.info.cell c r)).map fun c =>
    .engine ("Constraint Error: Duplicate key \"" ++ c.name ++ ": " ++ (t.info.cell c r).text?.getD "" ++
      "\" violates primary key constraint.")

def add (t : Table) (r : Record) : Table :=
  { t with records := t.records ++ [r] }

/-- Puts a record in the place of the one with its id. -/
def replace (t : Table) (r : Record) : Table :=
  { t with records := t.records.map fun old => if old.id = r.id then r else old }

end Table

end QueryGateway.Store
