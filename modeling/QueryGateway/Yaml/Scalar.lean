import QueryGateway.Yaml.Lines
import QueryGateway.Json.Reader

namespace QueryGateway.Yaml

inductive Node where
  | scalar (plain : Bool) (text : String)
  | sequence (items : List Node)
  | mapping (entries : List (Node × Node))
  deriving Inhabited

namespace Node

def absent : Node :=
  scalar true ""

def text? : Node → Option String
  | scalar _ text => some text
  | _ => none

/-- The text of a scalar that is written, be it only as a pair of quotes. -/
def written? : Node → Option String
  | scalar true "" => none
  | node => node.text?

def entries? : Node → Option (List (Node × Node))
  | mapping entries => some entries
  | _ => none

/-- Nothing is written, a tilde, or `null` in one of three spellings. -/
def isNull : Node → Bool
  | scalar true text => text == "" || text == "~" || text == "null" || text == "Null" || text == "NULL"
  | _ => false

def bool? : Node → Option Bool
  | scalar true "true" => some true
  | scalar true "True" => some true
  | scalar true "TRUE" => some true
  | scalar true "false" => some false
  | scalar true "False" => some false
  | scalar true "FALSE" => some false
  | _ => none

end Node

/-- Characters that mean something else at the start of a plain scalar. -/
def indicators : List Char :=
  [',', '[', ']', '\x7b', '\x7d', '#', '&', '*', '!', '|', '>', '\'', '"', '%', '@', '\x60']

/-- Whether plain text can begin here; a dash, question mark or colon can if something follows it. -/
def startsPlain (flow : Bool) : List Char → Bool
  | [] => false
  | c :: cs =>
    if c == '-' || c == '?' || c == ':' then
      !Line.atBlankOrEnd cs && !(flow && c != '-' && cs.head?.any ([',', '[', ']', '\x7b', '\x7d'].contains ·))
    else !indicators.contains c && !Line.isBlankChar c

/-- What follows the first line of a scalar, where `breaks` more than one break have been passed. -/
def foldRest : List (List Char) → Nat → List Char
  | [], 0 => []
  | [], 1 => [' ']
  | [], breaks + 1 => List.replicate breaks '\n'
  | line :: lines, breaks =>
    if line.isEmpty then foldRest lines (breaks + 1)
    else (if breaks = 0 then [' '] else List.replicate breaks '\n') ++ line ++ foldRest lines 0

def foldLines : List (List Char) → List Char
  | [] => []
  | line :: lines => line ++ foldRest lines 0

def trimBlanksRight (cs : List Char) : List Char :=
  (cs.reverse.dropWhile Line.isBlankChar).reverse

/-- Folds the text of a quoted scalar: blanks around breaks go. -/
def foldQuoted (cs : List Char) : List Char :=
  match splitLines cs with
  | [] => []
  | [line] => line
  | first :: rest =>
    match rest.reverse with
    | [] => first
    | last :: middle =>
      let inner := middle.reverse.map fun l => trimBlanksRight (Line.skipBlanks l)
      foldLines (trimBlanksRight first :: inner ++ [Line.skipBlanks last])

/-- Text after an opening single quote, and the rest after the closing one; two quotes stand for one. -/
def singleQuoted? : List Char → Option (List Char × List Char)
  | [] => none
  | '\'' :: '\'' :: cs => (singleQuoted? cs).map fun (text, cs) => ('\'' :: text, cs)
  | '\'' :: cs => some ([], cs)
  | c :: cs => (singleQuoted? cs).map fun (text, cs) => (c :: text, cs)

def escaped? : Char → Option Char
  | '0' => some '\x00'
  | 'a' => some '\x07'
  | 'b' => some '\x08'
  | 't' => some '\t'
  | '\t' => some '\t'
  | 'n' => some '\n'
  | 'v' => some '\x0b'
  | 'f' => some '\x0c'
  | 'r' => some '\r'
  | 'e' => some '\x1b'
  | ' ' => some ' '
  | '"' => some '"'
  | '/' => some '/'
  | '\\' => some '\\'
  | 'N' => some (Char.ofNat 0x85)
  | '_' => some (Char.ofNat 0xA0)
  | 'L' => some (Char.ofNat 0x2028)
  | 'P' => some (Char.ofNat 0x2029)
  | _ => none

/-- How many hexadecimal digits follow a backslash and a letter. -/
def codeLength : Char → Nat
  | 'x' => 2
  | 'u' => 4
  | 'U' => 8
  | _ => 0

def hexValue? (cs : List Char) : Option Nat :=
  cs.foldlM (fun n c => (Json.hexDigit? c).map (16 * n + ·)) 0

/-- A character of a double-quoted scalar: as it is written, or by an escape, which no folding touches. -/
structure Piece where
  char : Char
  escaped : Bool

/-- Text after an opening double quote, and the rest after the closing one. -/
def doubleQuoted? : Nat → List Char → Option (List Piece × List Char)
  | 0, _ => none
  | _ + 1, [] => none
  | _ + 1, '"' :: cs => some ([], cs)
  | bound + 1, '\\' :: c :: cs =>
    let more (p : Piece) (cs : List Char) := (doubleQuoted? bound cs).map fun (text, cs) => (p :: text, cs)
    if c == '\n' then doubleQuoted? bound (Line.skipBlanks cs)
    else if 0 < codeLength c then
      let digits := cs.take (codeLength c)
      if digits.length < codeLength c then none
      else
        match hexValue? digits with
        | none => none
        | some n =>
          if n.isValidChar then more ⟨Char.ofNat n, true⟩ (cs.drop (codeLength c)) else none
    else
      match escaped? c with
      | none => none
      | some e => more ⟨e, true⟩ cs
  | bound + 1, c :: cs => (doubleQuoted? bound cs).map fun (text, cs) => (⟨c, false⟩ :: text, cs)

def splitPieces : List Piece → List (List Piece)
  | [] => [[]]
  | p :: ps =>
    if p.char == '\n' && !p.escaped then [] :: splitPieces ps
    else
      match splitPieces ps with
      | [] => [[p]]
      | line :: lines => (p :: line) :: lines

def isBlankPiece (p : Piece) : Bool :=
  !p.escaped && Line.isBlankChar p.char

def foldPieces (ps : List Piece) : List Char :=
  match splitPieces ps with
  | [] => []
  | [line] => line.map (·.char)
  | first :: rest =>
    let trimLeft (l : List Piece) := l.dropWhile isBlankPiece
    let trimRight (l : List Piece) := (l.reverse.dropWhile isBlankPiece).reverse
    match rest.reverse with
    | [] => first.map (·.char)
    | last :: middle =>
      foldLines ((trimRight first).map (·.char) ::
        (middle.reverse.map fun l => (trimRight (trimLeft l)).map (·.char)) ++ [(trimLeft last).map (·.char)])

/-- A quoted scalar at the front of the text, and what follows it. -/
def quoted? : List Char → Option (String × List Char)
  | '\'' :: cs => (singleQuoted? cs).map fun (text, cs) => (String.ofList (foldQuoted text), cs)
  | '"' :: cs => (doubleQuoted? (cs.length + 1) cs).map fun (text, cs) => (String.ofList (foldPieces text), cs)
  | _ => none

/-- The plain text at the front of a line, and the rest from a colon, a comment or the end on. In a flow
collection its separators end it too. -/
def plainPart (flow : Bool) : List Char → List Char × List Char
  | [] => ([], [])
  | c :: cs =>
    let ends := (c == ':' && (Line.atBlankOrEnd cs || (flow && cs.head?.any ([',', '[', ']', '\x7b', '\x7d'].contains ·)))) ||
      (flow && [',', '[', ']', '\x7b', '\x7d'].contains c) ||
      c == '\n' || (Line.isBlankChar c && (Line.skipBlanks cs).head?.any (· == '#'))
    if ends then ([], c :: cs)
    else
      let (text, rest) := plainPart flow cs
      (c :: text, rest)

end QueryGateway.Yaml
