import QueryGateway.Sql.Diagnosis
import QueryGateway.Sql.Tree

namespace QueryGateway.Sql

/-- Why a tree is no query. -/
inductive TreeFault where
  | emptyInput
  | expected (r : Rule)
  | missingColumns
  | missingTable
  | emptyColumns
  | invalidColumns
  | unknownOperator (text : String)
  | missingValue
  | invalidValue
  | emptyOrder
  | invalidOrder
  deriving DecidableEq, Repr

def TreeFault.message : TreeFault → String
  | emptyInput => "Syntax error: Empty input"
  | expected r => "Syntax error: Expected " ++ r.description
  | missingColumns => "Syntax error: Missing column list"
  | missingTable => "Syntax error: SELECT query missing FROM clause"
  | emptyColumns => "Syntax error: Empty column list"
  | invalidColumns => "Syntax error: Invalid column list"
  | unknownOperator text => "Syntax error: Unknown operator: " ++ text
  | missingValue => "Syntax error: Missing value"
  | invalidValue => "Syntax error: Invalid value"
  | emptyOrder => "Syntax error: Empty ORDER BY"
  | invalidOrder => "Syntax error: Invalid ORDER BY"

namespace Build

/-- The first pair of the rule, and the pairs after it. -/
def expect (r : Rule) : List Pair → Except TreeFault (Pair × List Pair)
  | [] => .error (.expected r)
  | p :: ps => if p.rule = r then .ok (p, ps) else expect r ps

def projection (p : Pair) : Except TreeFault Projection :=
  match p.inner with
  | [] => .error .emptyColumns
  | inner :: _ =>
    match inner.rule with
    | .wildcard => .ok .all
    | .columnList => .ok (.columns (inner.inner.map Pair.string))
    | _ => .error .invalidColumns

def table (p : Pair) : Except TreeFault String := do
  let (table, _) ← expect .name p.inner
  return table.string

def comparison (text : String) : Except TreeFault Comparison :=
  match Text.lower (Text.trim text) with
  | "=" => .ok .eq
  | "!=" => .ok .ne
  | "<>" => .ok .ne
  | ">" => .ok .gt
  | "<" => .ok .lt
  | ">=" => .ok .ge
  | "<=" => .ok .le
  | "like" => .ok .like
  | other => .error (.unknownOperator other)

def operand (p : Pair) : Except TreeFault Operand :=
  match p.inner with
  | [] => .error .missingValue
  | inner :: _ =>
    match inner.rule with
    | .placeholder => .ok .placeholder
    | .quoted => .ok (.literal ((inner.inner.head?.map Pair.string).getD ""))
    | .bare => .ok (.literal inner.string)
    | _ => .error .invalidValue

def condition (p : Pair) : Except TreeFault Condition := do
  let (column, rest) ← expect .name p.inner
  let (op, rest) ← expect .comparison rest
  let op ← comparison op.string
  let (value, _) ← expect .operand rest
  let operand ← operand value
  return ⟨column.string, op, operand⟩

def conditions (p : Pair) : Except TreeFault (List Condition) :=
  (p.inner.filter (·.rule = .condition)).mapM condition

def direction (rest : List Pair) : Direction :=
  if rest.head?.any fun p => Text.sameName (Text.trim p.string) "desc" then .descending else .ascending

def columnOrder (p : Pair) : Except TreeFault OrderItem := do
  let (column, rest) ← expect .name p.inner
  return .column column.string (direction rest)

def distanceCall (p : Pair) : Except TreeFault OrderItem := do
  let (function, rest) ← expect .name p.inner
  let (column, rest) ← expect .name rest
  let (vector, rest) ← expect .vector rest
  return .distance function.string column.string (vector.inner.map Pair.string) (direction rest)

def orderItem (p : Pair) : Except TreeFault OrderItem :=
  match p.inner with
  | [] => .error .emptyOrder
  | inner :: _ =>
    match inner.rule with
    | .columnOrder => columnOrder inner
    | .distanceCall => distanceCall inner
    | _ => .error .invalidOrder

def order (p : Pair) : Except TreeFault OrderItem := do
  let (item, _) ← expect .orderItem p.inner
  orderItem item

def limit (p : Pair) : Limit :=
  ⟨(p.inner.find? (·.rule = .limitValue)).map Pair.string⟩

structure Clauses where
  projection : Option Projection
  table : Option String
  conditions : List Condition
  order : Option OrderItem
  limit : Option Limit

def Clauses.none : Clauses :=
  ⟨.none, .none, [], .none, .none⟩

def clause (met : Clauses) (p : Pair) : Except TreeFault Clauses :=
  match p.rule with
  | .selectList => do return { met with projection := some (← projection p) }
  | .fromClause => do return { met with table := some (← table p) }
  | .whereClause => do return { met with conditions := ← conditions p }
  | .orderClause => do return { met with order := some (← order p) }
  | .limitClause => .ok { met with limit := some (limit p) }
  | _ => .ok met

def statement (p : Pair) : Except TreeFault Query := do
  let met ← p.inner.foldlM clause .none
  match met.projection, met.table with
  | none, _ => .error .missingColumns
  | some _, none => .error .missingTable
  | some projection, some table => .ok ⟨projection, table, met.conditions, met.order, met.limit⟩

def query (pairs : List Pair) : Except TreeFault Query :=
  match pairs with
  | [] => .error .emptyInput
  | p :: _ => do
    let (stmt, _) ← expect .statement p.inner
    statement stmt

end Build

/-- Why there is no query: the text is none, or the tree that the grammar found in it is none. -/
inductive BuildError where
  | text (e : QueryError)
  | tree (f : TreeFault)
  deriving DecidableEq, Repr

/-- Checks the kind of statement, follows the grammar, and builds the query from the tree that it finds. -/
def Query.build (text : String) : Except BuildError Query :=
  match statementFault? text.toList with
  | some fault => .error (.text fault)
  | none =>
    match Grammar.query.read .spaced text.toList with
    | some (pairs, _) => (Build.query pairs).mapError .tree
    | none => .error (.text (if hasWord "from" text.toList then .departure (.ofText text.toList) else .noTable))

end QueryGateway.Sql
