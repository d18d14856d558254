namespace QueryGateway.Sql

def isSpace (c : Char) : Bool :=
  c == ' ' || c == '\t' || c == '\r' || c == '\n'

def isWordChar (c : Char) : Bool :=
  c.isAlphanum || c == '_'

def skipSpaces (cs : List Char) : List Char :=
  cs.dropWhile isSpace

/-- The rest of a text that begins with `word`, letters compared without case. -/
def dropWord? : List Char → List Char → Option (List Char)
  | [], cs => some cs
  | _ :: _, [] => none
  | w :: ws, c :: cs => if w.toLower == c.toLower then dropWord? ws cs else none

def atWordEnd : List Char → Bool
  | [] => true
  | c :: _ => !isWordChar c

/-- The rest after `word` where it stands as a whole word. -/
def keyword? (word : String) (cs : List Char) : Option (List Char) :=
  (dropWord? word.toList cs).filter atWordEnd

/-- In the order in which they are tried; the first that begins the text decides. -/
def reservedWords : List String :=
  ["select", "from", "where", "and", "or", "not", "order", "by", "limit", "asc", "desc", "like"]

/-- Whether a reserved word stands at the front. Only the first of `reservedWords` that begins the text is
looked at, so a longer one that starts with it is not found. -/
def startsReserved (cs : List Char) : Bool :=
  match reservedWords.findSome? (dropWord? ·.toList cs) with
  | some rest => atWordEnd rest
  | none => false

def takeSome? (p : Char → Bool) (cs : List Char) : Option (String × List Char) :=
  match cs.takeWhile p with
  | [] => none
  | front => some (String.ofList front, cs.dropWhile p)

/-- A letter or underscore, then letters, digits and underscores, and not a reserved word. -/
def name? (cs : List Char) : Option (String × List Char) :=
  match cs with
  | [] => none
  | c :: _ => if startsReserved cs || !(c.isAlpha || c == '_') then none else takeSome? isWordChar cs

/-- Text up to the next `quote`, which must be there. -/
def quotedBy? (quote : Char) (cs : List Char) : Option (String × List Char) :=
  match cs with
  | [] => none
  | c :: cs =>
    if c == quote then
      match cs.dropWhile (· != quote) with
      | [] => none
      | _ :: rest => some (String.ofList (cs.takeWhile (· != quote)), rest)
    else none

def quoted? (cs : List Char) : Option (String × List Char) :=
  quotedBy? '\'' cs <|> quotedBy? '"' cs

def isBareChar (c : Char) : Bool :=
  !(isSpace c || c == '\'' || c == '"' || c == ';' || c == ',' || c == '(' || c == ')')

/-- An unquoted value: anything up to a blank, a quote, a separator or a bracket that is not a reserved word. -/
def bare? (cs : List Char) : Option (String × List Char) :=
  if startsReserved cs then none else takeSome? isBareChar cs

def isElementChar (c : Char) : Bool :=
  !(c == ',' || c == ']' || isSpace c)

def element? (cs : List Char) : Option (String × List Char) :=
  takeSome? isElementChar cs

def isLimitChar (c : Char) : Bool :=
  !(isSpace c || c == ';')

def limitToken? (cs : List Char) : Option (String × List Char) :=
  takeSome? isLimitChar cs

def mark? (mark : Char) : List Char → Option (List Char)
  | [] => none
  | c :: cs => if c == mark then some cs else none

end QueryGateway.Sql
