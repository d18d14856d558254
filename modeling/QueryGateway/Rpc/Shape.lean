import QueryGateway.Json.Printer
import QueryGateway.Text.Hidden

namespace QueryGateway.Rpc

inductive ShapeError where
  | wrongType (found : Json) (expected : String)
  | unknownMember (name : String) (known : List String)
  | missingMember (name : String)
  | tooLong (length : Nat)

namespace ShapeError

/-- A value as a message tells it: scalars in full, the others by their kind. -/
def describe : Json → String
  | .null => "null"
  | .bool b => "boolean `" ++ (if b then "true" else "false") ++ "`"
  | .int n => "integer `" ++ toString n ++ "`"
  | .float x => "floating point `" ++ Json.floatText x ++ "`"
  | .string s => "string " ++ Text.quoted s
  | .array _ => "sequence"
  | .object _ => "map"

def known : List String → String
  | [] => "there are no fields"
  | [a] => s!"expected `{a}`"
  | [a, b] => s!"expected `{a}` or `{b}`"
  | names => "expected one of " ++ String.intercalate ", " (names.map fun n => "`" ++ n ++ "`")

def message : ShapeError → String
  | wrongType found expected => "invalid type: " ++ describe found ++ ", expected " ++ expected
  | unknownMember name names => "unknown field `" ++ name ++ "`, " ++ known names
  | missingMember name => "missing field `" ++ name ++ "`"
  | tooLong n => s!"invalid length {n}, expected fewer elements in array"

end ShapeError

inductive Shape where
  | any
  | text
  | list
  | texts
  | members
  deriving DecidableEq, Repr

namespace Shape

def checkText : Json → Except ShapeError Unit
  | .string _ => .ok ()
  | v => .error (.wrongType v "a string")

def check (s : Shape) (v : Json) : Except ShapeError Unit :=
  match s, v with
  | any, _ => .ok ()
  | text, v => checkText v
  | list, .array _ => .ok ()
  | list, v => .error (.wrongType v "a sequence")
  | texts, .array items => items.forM checkText
  | texts, v => .error (.wrongType v "a sequence")
  | members, .object _ => .ok ()
  | members, v => .error (.wrongType v "a map")

end Shape

structure Member where
  name : String
  shape : Shape
  /-- It has to be there; else it may also be null. -/
  required : Bool
  deriving DecidableEq, Repr

namespace Member

def check (m : Member) (v : Json) : Except ShapeError Unit :=
  if !m.required && v.isNull then .ok () else m.shape.check v

end Member

abbrev Schema := List Member

namespace Schema

def checkKnown (s : Schema) (member : String × Json) : Except ShapeError Unit :=
  match s.find? (·.name == member.1) with
  | some m => m.check member.2
  | none => .error (.unknownMember member.1 (s.map (·.name)))

def checkPresent (members : List (String × Json)) (m : Member) : Except ShapeError Unit :=
  if m.required && (members.lookup m.name).isNone then .error (.missingMember m.name) else .ok ()

def check (s : Schema) (members : List (String × Json)) : Except ShapeError Unit := do
  members.forM s.checkKnown
  List.forM s (checkPresent members)

end Schema

end QueryGateway.Rpc
