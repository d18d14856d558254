import QueryGateway.Json.Number

namespace QueryGateway.Json

def isSpace (c : Char) : Bool :=
  c == ' ' || c == '\t' || c == '\r' || c == '\n'

def skipSpaces (cs : List Char) : List Char :=
  cs.dropWhile isSpace

def hexDigit? (c : Char) : Option Nat :=
  if c.isDigit then some (c.toNat - '0'.toNat)
  else if 'a' ≤ c && c ≤ 'f' then some (c.toNat - 'a'.toNat + 10)
  else if 'A' ≤ c && c ≤ 'F' then some (c.toNat - 'A'.toNat + 10)
  else none

def hexQuad? (a b c d : Char) : Option Nat := do
  return 4096 * (← hexDigit? a) + 256 * (← hexDigit? b) + 16 * (← hexDigit? c) + (← hexDigit? d)

def isHighSurrogate (n : Nat) : Bool :=
  0xD800 ≤ n && n < 0xDC00

def isLowSurrogate (n : Nat) : Bool :=
  0xDC00 ≤ n && n < 0xE000

/-- What stands for a character after a backslash, apart from code units in hexadecimal. -/
def escaped? : Char → Option Char
  | '"' => some '"'
  | '\\' => some '\\'
  | '/' => some '/'
  | 'b' => some '\x08'
  | 'f' => some '\x0c'
  | 'n' => some '\n'
  | 'r' => some '\r'
  | 't' => some '\t'
  | _ => none

/-- The rest of a string after its opening quote, and what follows the closing one. Code units beyond the basic
plane come in pairs; a unit of such a pair alone is refused, and so is a control character. -/
def readString : List Char → Option (List Char × List Char)
  | [] => none
  | '"' :: cs => some ([], cs)
  | '\\' :: 'u' :: a :: b :: c :: d :: '\\' :: 'u' :: e :: f :: g :: h :: cs => do
    let first ← hexQuad? a b c d
    let second ← hexQuad? e f g h
    if isHighSurrogate first then
      if isLowSurrogate second then
        let (more, cs) ← readString cs
        return (Char.ofNat (0x10000 + 1024 * (first - 0xD800) + (second - 0xDC00)) :: more, cs)
      else none
    else if isLowSurrogate first then none
    else
      let (more, cs) ← readString ('\\' :: 'u' :: e :: f :: g :: h :: cs)
      return (Char.ofNat first :: more, cs)
  | '\\' :: 'u' :: a :: b :: c :: d :: cs => do
    let unit ← hexQuad? a b c d
    if isHighSurrogate unit || isLowSurrogate unit then none
    else
      let (more, cs) ← readString cs
      return (Char.ofNat unit :: more, cs)
  | '\\' :: c :: cs => do
    let c ← escaped? c
    let (more, cs) ← readString cs
    return (c :: more, cs)
  | c :: cs =>
    if c == '\\' || c.toNat < 0x20 then none
    else do
      let (more, cs) ← readString cs
      return (c :: more, cs)
termination_by cs => cs.length

def depthLimit : Nat := 127

mutual

/-- A value at the front of the text, where `depth` more brackets may be opened; `fuel` bounds the calls. -/
def readValue (fuel depth : Nat) (cs : List Char) : Option (Json × List Char) :=
  match fuel with
  | 0 => none
  | fuel + 1 =>
    match skipSpaces cs with
    | 'n' :: 'u' :: 'l' :: 'l' :: cs => some (null, cs)
    | 't' :: 'r' :: 'u' :: 'e' :: cs => some (bool true, cs)
    | 'f' :: 'a' :: 'l' :: 's' :: 'e' :: cs => some (bool false, cs)
    | '"' :: cs => (readString cs).map fun (s, cs) => (string (String.ofList s), cs)
    | '[' :: cs =>
      match depth with
      | 0 => none
      | depth + 1 =>
        match skipSpaces cs with
        | ']' :: cs => some (array [], cs)
        | cs => (readItems fuel depth cs).map fun (items, cs) => (array items, cs)
    | '{' :: cs =>
      match depth with
      | 0 => none
      | depth + 1 =>
        match skipSpaces cs with
        | '}' :: cs => some (object [], cs)
        | cs => (readMembers fuel depth cs).map fun (members, cs) => (object members, cs)
    | cs => readNumber cs

def readItems (fuel depth : Nat) (cs : List Char) : Option (List Json × List Char) :=
  match fuel with
  | 0 => none
  | fuel + 1 => do
    let (v, cs) ← readValue fuel depth cs
    match skipSpaces cs with
    | ',' :: cs => (readItems fuel depth cs).map fun (items, cs) => (v :: items, cs)
    | ']' :: cs => some ([v], cs)
    | _ => none

/-- One or more named values up to a closing brace, each as it is written. -/
def readMembers (fuel depth : Nat) (cs : List Char) : Option (List (String × Json) × List Char) :=
  match fuel with
  | 0 => none
  | fuel + 1 =>
    match skipSpaces cs with
    | '"' :: cs => do
      let (name, cs) ← readString cs
      match skipSpaces cs with
      | ':' :: cs =>
        let (v, cs) ← readValue fuel depth cs
        match skipSpaces cs with
        | ',' :: cs =>
          (readMembers fuel depth cs).map fun (members, cs) => ((String.ofList name, v) :: members, cs)
        | '}' :: cs => some ([(String.ofList name, v)], cs)
        | _ => none
      | _ => none
    | _ => none

end

/-- The value a text writes, with repeated members as they are written. -/
def written? (text : List Char) : Option Json :=
  match readValue (2 * text.length + 2) depthLimit text with
  | some (v, rest) => if (skipSpaces rest).isEmpty then some v else none
  | none => none

/-- The value a text stands for: of members with one name the last counts, in the first's place. -/
def read? (text : String) : Option Json :=
  (written? text.toList).map merged

/-- The value that bytes stand for, which must be well-formed UTF-8. -/
def readBytes? (bytes : ByteArray) : Option Json := do
  read? (← String.fromUTF8? bytes)

end QueryGateway.Json
