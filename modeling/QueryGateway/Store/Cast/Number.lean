import QueryGateway.Decimal.Numeral

namespace QueryGateway.Store.Cast

-- Powers are the core library's, whatever else is imported.
attribute [local instance (high)] instPowNat

/-- Space, tab, line feed, vertical tab, form feed and carriage return. -/
def isSpace (c : Char) : Bool :=
  c == ' ' || (9 ≤ c.toNat && c.toNat ≤ 13)

def dropSpaces (cs : List Char) : List Char :=
  cs.dropWhile isSpace

/-- The digits at the front and what follows them; nothing if an underscore follows one and no digit follows that. -/
def digits? (isDigit : Char → Bool) : List Char → Option (List Char × List Char)
  | [] => some ([], [])
  | c :: '_' :: d :: cs =>
    if isDigit c then
      if isDigit d then (digits? isDigit (d :: cs)).map fun (ds, rest) => (c :: ds, rest) else none
    else some ([], c :: '_' :: d :: cs)
  | [c, '_'] => if isDigit c then none else some ([], [c, '_'])
  | c :: cs =>
    if isDigit c then (digits? isDigit cs).map fun (ds, rest) => (c :: ds, rest) else some ([], c :: cs)
termination_by cs => cs.length

/-- Digits around an optional point, and what follows them. -/
structure Figures where
  whole : List Char
  fraction : List Char
  rest : List Char

/-- A point needs a digit on one of its sides. -/
def figures? (cs : List Char) : Option Figures := do
  let (whole, cs) ← digits? Char.isDigit cs
  match cs with
  | '.' :: cs =>
    let (fraction, cs) ← digits? Char.isDigit cs
    if whole.isEmpty && fraction.isEmpty then none else some ⟨whole, fraction, cs⟩
  | cs => some ⟨whole, [], cs⟩

def exponentBound : Nat := 2 ^ (15 : Nat) - 1

/-- A whole number with an optional sign; a sign may be followed by blanks alone, which counts as zero. -/
def exponent? (cs : List Char) : Option Int := do
  let (negative, digits) := Decimal.Numeral.splitSign cs
  let f ← figures? digits
  if digits.isEmpty || !f.fraction.isEmpty || !f.rest.all isSpace then none
  else
    let n := Decimal.digitsValue f.whole
    if negative then if n ≤ exponentBound + 1 then some (-n) else none
    else if n ≤ exponentBound then some n else none

def numeral? (cs : List Char) : Option Decimal.Numeral := do
  let (negative, cs) := Decimal.Numeral.splitSign (dropSpaces cs)
  let f ← figures? cs
  match f.rest with
  | [] => if cs.isEmpty then none else some ⟨negative, f.whole, f.fraction, 0⟩
  | c :: more =>
    if isSpace c then if more.all isSpace then some ⟨negative, f.whole, f.fraction, 0⟩ else none
    else if (c == 'e' || c == 'E') && cs.head? != some c then
      some ⟨negative, f.whole, f.fraction, ← exponent? more⟩
    else none

end QueryGateway.Store.Cast
