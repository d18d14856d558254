import QueryGateway.Store.Cast.Integer
import QueryGateway.Store.Cast.Real
import QueryGateway.Store.Cast.Moment
import QueryGateway.Store.Column
import QueryGateway.Store.Fault

namespace QueryGateway.Store

namespace Cast

def elements (quote : Option Char) : List Char → List (List Char)
  | [] => [[]]
  | c :: cs =>
    let quote' := match quote with
      | some q => if c == q then none else some q
      | none => if c == '"' || c == '\'' then some c else none
    match elements quote' cs with
    | [] => [[c]]
    | piece :: pieces =>
      if c == ',' && quote.isNone then [] :: piece :: pieces else (c :: piece) :: pieces

def trimSpaces (cs : List Char) : List Char :=
  (dropSpaces (dropSpaces cs).reverse).reverse

/-- What stands within a pair of quotes, or the text itself. -/
def unquoted (cs : List Char) : List Char :=
  match cs with
  | q :: rest =>
    match rest.reverse with
    | q' :: inner => if q == q' && (q == '"' || q == '\'') then inner.reverse else cs
    | [] => cs
  | [] => cs

def element? (cs : List Char) : Option Value :=
  let cs := trimSpaces cs
  if Text.lower (String.ofList cs) == "null" then some .null
  else (real? (String.ofList (unquoted cs))).map fun x => .single x.toFloat32

def bracketed? (cs : List Char) : Option (List Char) :=
  match trimSpaces cs with
  | '[' :: rest =>
    match rest.reverse with
    | ']' :: inner => some inner.reverse
    | _ => none
  | _ => none

def vector? (size : Nat) (text : String) : Option Value := do
  let inner ← bracketed? text.toList
  let pieces := if (dropSpaces inner).isEmpty then [] else elements none inner
  if pieces.length ≠ size then none
  return .array (← pieces.mapM element?)

end Cast

namespace ColumnType

def cast? : ColumnType → String → Option Value
  | text, s => some (.text s)
  | integer kind, s => (Cast.integer? kind s).map (.integer kind)
  | single, s => (Cast.real? s).map fun x => .single x.toFloat32
  | double, s => (Cast.real? s).map fun x => .double x.toFloat
  | boolean, s => (Cast.boolean? s).map .boolean
  | timestamp, s => (Cast.timestamp? s).map (.timestamp .micro)
  | date, s => (Cast.day? s).map .date
  | vector size, s => Cast.vector? size s

def castMessage (t : ColumnType) (s : String) : String :=
  "Conversion Error: " ++
    match t with
    | text => s!"Could not convert string '{s}' to VARCHAR"
    | integer kind => s!"Could not convert string '{s}' to {kind.machineName}"
    | single => s!"Could not convert string '{s}' to FLOAT"
    | double => s!"Could not convert string '{s}' to DOUBLE"
    | boolean => s!"Could not convert string '{s}' to BOOL"
    | timestamp => s!"invalid timestamp field format: \"{s}\""
    | date => s!"invalid date field format: \"{s}\""
    | vector size => s!"Type VARCHAR with value '{s}' can't be cast to the destination type FLOAT[{size}]"

/-- The value of a text, or null where there is none. -/
def cast (t : ColumnType) : Option String → Except Fault Value
  | none => .ok .null
  | some s =>
    match t.cast? s with
    | some v => .ok v
    | none => .error (.engine (t.castMessage s))

end ColumnType

end QueryGateway.Store
