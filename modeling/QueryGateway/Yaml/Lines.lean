namespace QueryGateway.Yaml

structure Line where
  indent : Nat
  content : List Char
  deriving DecidableEq, Repr

def isAllowed (c : Char) : Bool :=
  c == '\t' || c == '\n' || c == '\r' || (0x20 ≤ c.toNat && c.toNat ≤ 0x7E) || c.toNat == 0x85 ||
    (0xA0 ≤ c.toNat && c.toNat ≤ 0xD7FF) || (0xE000 ≤ c.toNat && c.toNat ≤ 0xFFFD && c.toNat != 0xFEFF) ||
    0x10000 ≤ c.toNat

/-- A line ends at a line feed, a carriage return or both together, or at a break of Unicode. -/
def splitLines : List Char → List (List Char)
  | [] => [[]]
  | '\r' :: '\n' :: cs => [] :: splitLines cs
  | c :: cs =>
    if c == '\n' || c == '\r' || c.toNat == 0x85 || c.toNat == 0x2028 || c.toNat == 0x2029 then [] :: splitLines cs
    else
      match splitLines cs with
      | [] => [[c]]
      | line :: lines => (c :: line) :: lines

namespace Line

def ofChars (cs : List Char) : Line :=
  ⟨(cs.takeWhile (· == ' ')).length, cs.dropWhile (· == ' ')⟩

def isBlankChar (c : Char) : Bool :=
  c == ' ' || c == '\t'

def skipBlanks (cs : List Char) : List Char :=
  cs.dropWhile isBlankChar

def isEmptyRest (cs : List Char) : Bool :=
  match skipBlanks cs with
  | [] => true
  | c :: _ => c == '#'

def isEmpty (l : Line) : Bool :=
  isEmptyRest l.content

def atBlankOrEnd : List Char → Bool
  | [] => true
  | c :: _ => isBlankChar c

end Line

/-- The lines from the next one on that holds something. -/
def nextLines (lines : List Line) : List Line :=
  lines.dropWhile Line.isEmpty

end QueryGateway.Yaml
