import QueryGateway.Vector
import QueryGateway.Sql.Grammar
import QueryGateway.Sql.Parse

namespace QueryGateway.Sql

/-- Where a text leaves the grammar and which rules were tried there. -/
structure Departure where
  text : List Char
  position : Nat
  expected : List Rule
  deriving DecidableEq, Repr

namespace Departure

def ofText (cs : List Char) : Departure :=
  let seen := Grammar.query.attempts cs
  ⟨cs, seen.position, Rule.all.filter (· ∈ seen.rules)⟩

def joinWords : List String → String
  | [] => ""
  | [a] => a
  | [a, b] => a ++ " or " ++ b
  | words => String.intercalate ", " words.dropLast ++ ", or " ++ words.getLast?.getD ""

def leading (d : Departure) : List Char :=
  ((d.text.take d.position).reverse.takeWhile (· != '\n')).reverse

def lineNumber (d : Departure) : Nat :=
  (d.text.take d.position).count '\n' + 1

def columnNumber (d : Departure) : Nat :=
  d.leading.length + 1

def showBreak (c : Char) : Char :=
  if c == '\n' then '␊' else if c == '\r' then '␍' else c

def isBreak (c : Char) : Bool :=
  c == '\n' || c == '\r'

/-- The line of the departure. Line breaks are left out, unless the departure stands on one: then they are shown. -/
def line (d : Departure) : List Char :=
  let after := d.text.drop d.position
  let whole := d.leading ++ after.takeWhile (· != '\n') ++ (after.dropWhile (· != '\n')).take 1
  if after.head?.any isBreak then whole.map showBreak else whole.filter (!isBreak ·)

/-- A marker under the place of the departure; tabs are kept so that it lines up. -/
def marker (d : Departure) : String :=
  String.ofList ((d.line.take (d.columnNumber - 1)).map fun c => if c == '\t' then '\t' else ' ') ++ "^---"

def message (d : Departure) : String :=
  let number := toString d.lineNumber
  let margin := String.ofList (List.replicate number.length ' ')
  String.intercalate "\n"
    [ margin ++ "--> " ++ number ++ ":" ++ toString d.columnNumber,
      margin ++ " |",
      number ++ " | " ++ String.ofList d.line,
      margin ++ " | " ++ d.marker,
      margin ++ " |",
      margin ++ " = expected " ++ joinWords (d.expected.map Rule.description) ]

end Departure

/-- Why a text with its arguments is not a request. -/
inductive QueryError where
  | empty
  | notAWord
  | otherStatement (word : String)
  | noTable
  | departure (d : Departure)
  | argumentCount (expected provided : Nat)
  | unknownFunction (name : String)
  | descendingDistance (name : String)
  | emptyVector
  | badElement (index : Nat) (text : String)
  | limitOutOfRange (text : String)
  deriving DecidableEq, Repr

/-- The family of a query error, which heads its message. -/
inductive QueryError.Kind where
  | malformed
  | departure
  | unsupported
  | argumentCount
  deriving DecidableEq, Repr

namespace QueryError

def kind : QueryError → Kind
  | departure _ => .departure
  | argumentCount .. => .argumentCount
  | unknownFunction _ => .unsupported
  | descendingDistance _ => .unsupported
  | _ => .malformed

def Kind.heading : Kind → String
  | malformed => "Syntax error: "
  | departure => "Pest error: "
  | unsupported => "Unsupported: "
  | argumentCount => ""

def detail : QueryError → String
  | empty => "Empty query"
  | notAWord => "Query must start with SELECT"
  | otherStatement word => "Only SELECT statements are supported, found " ++ word
  | noTable => "SELECT query missing FROM clause"
  | departure d => d.message
  | argumentCount expected provided =>
    s!"Query has {expected} placeholder(s) but {provided} argument(s) were supplied"
  | unknownFunction name => FunctionTable.missingMessage name
  | descendingDistance name => name ++ "() orders nearest-first only; DESC is not supported"
  | emptyVector => "Query vector is empty"
  | badElement index text => s!"Query vector element {index} is not a number: {text}"
  | limitOutOfRange text => "LIMIT out of range: " ++ text

def message (e : QueryError) : String :=
  e.kind.heading ++ e.detail

end QueryError

def firstWord (cs : List Char) : List Char :=
  (Text.trimLeft cs).takeWhile Char.isAlpha

/-- Whether `word` occurs as a longest run of word characters. -/
def hasWord (word : String) (cs : List Char) : Bool :=
  (Text.splitOn (!isWordChar ·) cs).any fun piece => piece.map Char.toLower == word.toList

/-- What is wrong with the kind of statement that a text begins with. -/
def statementFault? (cs : List Char) : Option QueryError :=
  match firstWord cs with
  | [] => some (if (Text.trimLeft cs).isEmpty then .empty else .notAWord)
  | word =>
    if word.map Char.toLower == "select".toList then none
    else some (.otherStatement (String.ofList (word.map Char.toUpper)))

def Query.parse (text : String) : Except QueryError Query :=
  match statementFault? text.toList with
  | some fault => .error fault
  | none =>
    match Query.read? text with
    | some query => .ok query
    | none => .error (if hasWord "from" text.toList then .departure (.ofText text.toList) else .noTable)

end QueryGateway.Sql
