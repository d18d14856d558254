import QueryGateway.Sql.Query
import QueryGateway.Sql.Lexeme

namespace QueryGateway.Sql

/-- As many `p` as follow one another, with blanks before each. -/
def many (p : List Char → Option (α × List Char)) (cs : List Char) : List α × List Char :=
  match p (skipSpaces cs) with
  | none => ([], cs)
  | some (a, rest) =>
    if rest.length < cs.length then
      let (more, rest) := many p rest
      (a :: more, rest)
    else ([], cs)
termination_by cs.length

/-- One `p`, then as many as follow a separator `sep`. -/
def separated (p : List Char → Option (α × List Char)) (sep : List Char → Option (List Char))
    (cs : List Char) : Option (List α × List Char) := do
  let (first, cs) ← p cs
  let (more, cs) := many (fun cs => do p (skipSpaces (← sep cs))) cs
  return (first :: more, cs)

namespace Read

def projection (cs : List Char) : Option (Projection × List Char) :=
  match mark? '*' cs with
  | some cs => some (.all, cs)
  | none => (separated name? (mark? ',') cs).map fun (names, cs) => (.columns names, cs)

def comparison (cs : List Char) : Option (Comparison × List Char) :=
  match cs with
  | '>' :: '=' :: cs => some (.ge, cs)
  | '<' :: '=' :: cs => some (.le, cs)
  | '!' :: '=' :: cs => some (.ne, cs)
  | '<' :: '>' :: cs => some (.ne, cs)
  | '=' :: cs => some (.eq, cs)
  | '>' :: cs => some (.gt, cs)
  | '<' :: cs => some (.lt, cs)
  | cs => (keyword? "like" cs).map (.like, ·)

def operand (cs : List Char) : Option (Operand × List Char) :=
  match mark? '?' cs with
  | some cs => some (.placeholder, cs)
  | none => (quoted? cs <|> bare? cs).map fun (text, cs) => (.literal text, cs)

def condition (cs : List Char) : Option (Condition × List Char) := do
  let (column, cs) ← name? cs
  let (op, cs) ← comparison (skipSpaces cs)
  let (operand, cs) ← operand (skipSpaces cs)
  return (⟨column, op, operand⟩, cs)

/-- A missing clause is an empty conjunction. -/
def conditions (cs : List Char) : List Condition × List Char :=
  let found := do
    let cs ← keyword? "where" cs
    separated condition (keyword? "and") (skipSpaces cs)
  found.getD ([], cs)

/-- Ascending is what a missing direction means. -/
def direction (cs : List Char) : Direction × List Char :=
  match keyword? "asc" (skipSpaces cs), keyword? "desc" (skipSpaces cs) with
  | some rest, _ => (.ascending, rest)
  | none, some rest => (.descending, rest)
  | none, none => (.ascending, cs)

def vector (cs : List Char) : Option (List String × List Char) := do
  let cs := skipSpaces (← mark? '[' cs)
  let (elements, cs) := (separated element? (mark? ',') cs).getD ([], cs)
  return (elements, ← mark? ']' (skipSpaces cs))

def distance (cs : List Char) : Option (OrderItem × List Char) := do
  let (function, cs) ← name? cs
  let cs ← mark? '(' (skipSpaces cs)
  let (column, cs) ← name? (skipSpaces cs)
  let cs ← mark? ',' (skipSpaces cs)
  let (elements, cs) ← vector (skipSpaces cs)
  let cs ← mark? ')' (skipSpaces cs)
  let (direction, cs) := direction cs
  return (.distance function column elements direction, cs)

def column (cs : List Char) : Option (OrderItem × List Char) := do
  let (column, cs) ← name? cs
  let (direction, cs) := direction cs
  return (.column column direction, cs)

def order (cs : List Char) : Option OrderItem × List Char :=
  let found := do
    let cs ← keyword? "order" cs
    let cs := skipSpaces (← keyword? "by" (skipSpaces cs))
    distance cs <|> column cs
  match found with
  | some (item, cs) => (some item, cs)
  | none => (none, cs)

def limit (cs : List Char) : Option Limit × List Char :=
  match keyword? "limit" cs with
  | none => (none, cs)
  | some cs =>
    match limitToken? (skipSpaces cs) with
    | none => (some ⟨none⟩, cs)
    | some (token, cs) => (some ⟨some token⟩, cs)

/-- A whole text: blanks around, one query, at most one semicolon. -/
def query (cs : List Char) : Option Query := do
  let cs ← keyword? "select" (skipSpaces cs)
  let (projection, cs) ← projection (skipSpaces cs)
  let cs ← keyword? "from" (skipSpaces cs)
  let (table, cs) ← name? (skipSpaces cs)
  let (conditions, cs) := conditions (skipSpaces cs)
  let (order, cs) := order (skipSpaces cs)
  let (limit, cs) := limit (skipSpaces cs)
  let cs := skipSpaces cs
  let cs := skipSpaces ((mark? ';' cs).getD cs)
  if cs.isEmpty then some ⟨projection, table, conditions, order, limit⟩ else none

end Read

def Query.read? (text : String) : Option Query :=
  Read.query text.toList

end QueryGateway.Sql
