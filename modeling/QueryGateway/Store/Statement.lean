import QueryGateway.Store.Select
import QueryGateway.Decimal.Layout

namespace QueryGateway.Store

-- Powers are the core library's, whatever else is imported.
attribute [local instance (high)] instPowNat

inductive Piece where
  | word (s : String)
  /-- A name from the catalog, in double quotes. -/
  | name (s : String)
  /-- A value read as one of that type. -/
  | value (type : ColumnType) (v : Option String)
  /-- A value that stays text. -/
  | plain (v : Option String)

namespace Piece

/-- A quote within a name is written twice. -/
def quoteChars : List Char → List Char
  | [] => []
  | '"' :: cs => '"' :: '"' :: quoteChars cs
  | c :: cs => c :: quoteChars cs

def quoteName (s : String) : String :=
  String.ofList ('"' :: quoteChars s.toList ++ ['"'])

def text : Piece → String
  | word s => s
  | name s => quoteName s
  | value type _ => "CAST(? AS " ++ type.name ++ ")"
  | plain _ => "?"

def value? : Piece → Option (Option String)
  | value _ v => some v
  | plain v => some v
  | _ => none

end Piece

abbrev Statement := List Piece

namespace Statement

def text (s : Statement) : String :=
  String.join (s.map Piece.text)

def values (s : Statement) : List (Option String) :=
  s.filterMap Piece.value?

def separated (separator : String) : List Statement → Statement
  | [] => []
  | [part] => part
  | part :: parts => part ++ .word separator :: separated separator parts

def tableName (t : TableInfo) : Statement :=
  [.name t.schema, .word ".", .name t.name]

def columnNames (columns : List Column) : Statement :=
  separated ", " (columns.map fun c => [.name c.name])

end Statement

open Statement

/-- Comparisons for equality with null ask for null itself. -/
def Filter.statement (f : Filter Column) : Statement :=
  match f.op, f.value with
  | .eq, none => [.name f.column.name, .word " IS NULL"]
  | .ne, none => [.name f.column.name, .word " IS NOT NULL"]
  | .like, v => [.word "contains(CAST(", .name f.column.name, .word " AS VARCHAR), ", .plain v, .word ")"]
  | op, v => [.name f.column.name, .word (" " ++ op.sql ++ " "), .value f.column.type v]

def vectorText (vector : List Float) : String :=
  "[" ++ String.intercalate ", " (vector.map fun x => Decimal.Layout.plain.text (.ofFloat x)) ++ "]"

def RowOrder.statement : RowOrder Column → Statement
  | .column c direction => [.word " ORDER BY ", .name c.name, .word (" " ++ direction.sql)]
  | .distance function c vector =>
    [.word (" ORDER BY " ++ function ++ "("), .name c.name, .word ", ", .value c.type (some (vectorText vector)),
      .word ") ASC NULLS LAST"]

/-- Limits are signed numbers of 64 bits. -/
def limitBound : Nat := 2 ^ (63 : Nat) - 1

namespace Select

def whereClause (filters : List (Filter Column)) : Statement :=
  if filters.isEmpty then []
  else .word " WHERE " :: separated " AND " (filters.map Filter.statement)

def limitClause : Option Nat → Statement
  | none => []
  | some n => [.word (" LIMIT " ++ toString (min n limitBound))]

def statement (t : TableInfo) (s : Select Column) : Statement :=
  .word "SELECT " :: columnNames (s.projection t) ++ .word " FROM " :: tableName t ++ whereClause s.filters ++
    (s.order.elim [] RowOrder.statement) ++ limitClause s.limit

end Select

/-- A condition under which null equals null. -/
def Binding.condition (b : Binding) : Statement :=
  [.name b.column.name, .word " IS NOT DISTINCT FROM ", .value b.column.type b.value]

def Binding.assignment (b : Binding) : Statement :=
  [.name b.column.name, .word " = ", .value b.column.type b.value]

namespace Statement

def conditions (bs : List Binding) : Statement :=
  if bs.isEmpty then [.word "TRUE"] else separated " AND " (bs.map Binding.condition)

def existence (t : TableInfo) (bs : List Binding) : Statement :=
  .word "SELECT 1 FROM " :: tableName t ++ .word " WHERE " :: conditions bs ++ [.word " LIMIT 1"]

def insertion (t : TableInfo) (bs : List Binding) : Statement :=
  .word "INSERT INTO " :: tableName t ++ .word " (" :: columnNames (bs.map (·.column)) ++ .word ") VALUES (" ::
    separated ", " (bs.map fun b => [.value b.column.type b.value]) ++ [.word ")"]

def change (t : TableInfo) (assignments wanted : List Binding) : Statement :=
  .word "UPDATE " :: tableName t ++ .word " SET " :: separated ", " (assignments.map Binding.assignment) ++
    .word " WHERE " :: conditions wanted

end Statement

end QueryGateway.Store
