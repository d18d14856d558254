import QueryGateway.Json.Basic
import QueryGateway.Decimal.Layout

namespace QueryGateway.Json

/-- Positional from 0.00001 up to 16 digits, always with a point; a value that is no number is null. -/
def numberLayout : Decimal.Layout :=
  ⟨-5, 15, true, true, 1, "null", "null"⟩

/-- Infinite values have no text of their own and are null, whatever their sign. -/
def floatText (x : Float) : String :=
  match Decimal.Binary.ofFloat x with
  | .infinite _ => "null"
  | b => numberLayout.text b

def hexDigits : List Char :=
  ['0', '1', '2', '3', '4', '5', '6', '7', '8', '9', 'a', 'b', 'c', 'd', 'e', 'f']

def hexChar (n : Nat) : Char :=
  hexDigits.getD n '0'

def escapeChar (c : Char) : List Char :=
  match c with
  | '"' => ['\\', '"']
  | '\\' => ['\\', '\\']
  | '\n' => ['\\', 'n']
  | '\r' => ['\\', 'r']
  | '\t' => ['\\', 't']
  | '\x08' => ['\\', 'b']
  | '\x0c' => ['\\', 'f']
  | c => if c.toNat < 0x20 then ['\\', 'u', '0', '0', hexChar (c.toNat / 16), hexChar (c.toNat % 16)] else [c]

def quote (s : String) : String :=
  String.ofList ('"' :: (s.toList.flatMap escapeChar ++ ['"']))

mutual

def print : Json → String
  | null => "null"
  | bool b => if b then "true" else "false"
  | int n => toString n
  | float x => floatText x
  | string s => quote s
  | array items => "[" ++ printItems items ++ "]"
  | object members => "\x7b" ++ printMembers members ++ "\x7d"

def printItems : List Json → String
  | [] => ""
  | [v] => print v
  | v :: items => print v ++ "," ++ printItems items

def printMembers : List (String × Json) → String
  | [] => ""
  | [(name, v)] => quote name ++ ":" ++ print v
  | (name, v) :: members => quote name ++ ":" ++ print v ++ "," ++ printMembers members

end

/-- A value as the text of a store cell: strings as they are, null as nothing, all else as JSON text. -/
def scalarText? : Json → Option String
  | null => none
  | string s => some s
  | v => some v.print

end QueryGateway.Json
