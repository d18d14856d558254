import QueryGateway.Store.Cast.Number
import QueryGateway.Store.Value

namespace QueryGateway.Store.Cast

-- Powers are the core library's, whatever else is imported.
attribute [local instance (high)] instPowNat

/-- A fraction as the number its digits spell, and how many there are. -/
structure Fraction where
  value : Nat
  count : Int

/-- The largest number of the word that fractions are kept in. -/
def wordBound : Nat := 2 ^ (63 : Nat) - 1

/-- A digit that the word has no room for is left out. -/
def Fraction.ofDigits (digits : List Char) : Fraction :=
  digits.foldl
    (fun f c =>
      let d := c.toNat - '0'.toNat
      if 10 * f.value + d ≤ wordBound then ⟨10 * f.value + d, f.count + 1⟩ else f)
    ⟨0, 0⟩

/-- Digits of a whole number moved behind the point, one by one, until there is nothing left before it. Only the
last one moved is kept. -/
def moveDown : Nat → Nat → Nat → Nat × Nat
  | 0, n, last => (n, last)
  | k + 1, n, last => if n = 0 then (0, last) else moveDown k (n / 10) (n % 10)

/-- A number and a fraction of it multiplied by a power of ten. -/
def scaleUp (k : Nat) (n : Nat) (f : Fraction) : Option (Nat × Fraction) :=
  let n := n * 10 ^ k
  if f.value = 0 then some (n, f)
  else
    let left := f.count - k
    if 0 ≤ left then
      some (n + f.value / 10 ^ left.toNat, ⟨f.value % 10 ^ left.toNat, left⟩)
    else
      let moved := f.value * 10 ^ (-left).toNat
      if moved ≤ wordBound then some (n + moved, ⟨0, left⟩) else none

/-- The first digit of a fraction that has more than one. -/
def leadingDigit : Nat → Fraction → Fraction
  | 0, f => f
  | fuel + 1, f => if 10 < f.value then leadingDigit fuel ⟨f.value / 10, f.count - 1⟩ else f

def roundsUp (f : Fraction) : Bool :=
  let f := leadingDigit 20 f
  f.count == 1 && 5 ≤ f.value

/-- The bounds of the word that holds the digits before the point. -/
def wordHolds (kind : IntegerKind) (n : Int) : Bool :=
  match kind with
  | .unsignedBig => kind.holds n
  | .huge => kind.holds n
  | .unsignedHuge => kind.holds n
  | _ => IntegerKind.big.holds n

def signed (negative : Bool) (n : Nat) : Int :=
  if negative then -n else n

def rounded? (kind : IntegerKind) (x : Decimal.Numeral) : Option Int := do
  let n := Decimal.digitsValue x.whole
  if !wordHolds kind (signed x.negative n) then none
  let f := Fraction.ofDigits x.fraction
  let (n, f) ←
    if x.exponent < 0 then
      let (n, last) := moveDown x.exponent.natAbs n f.value
      some (n, ⟨last, 1⟩)
    else scaleUp x.exponent.toNat n f
  let whole := signed x.negative n
  if !wordHolds kind whole || !kind.holds whole then none
  let result := if roundsUp f then whole + signed x.negative 1 else whole
  if kind.holds result then some result else none

def isHexDigit (c : Char) : Bool :=
  c.isDigit || ('a' ≤ c.toLower && c.toLower ≤ 'f')

def hexValue (c : Char) : Nat :=
  if c.isDigit then c.toNat - '0'.toNat else c.toLower.toNat - 'a'.toNat + 10

def isBinaryDigit (c : Char) : Bool :=
  c == '0' || c == '1'

def based? (base : Nat) (isDigit : Char → Bool) (kind : IntegerKind) (cs : List Char) : Option Int := do
  let (digits, rest) ← digits? isDigit cs
  let n : Int := digits.foldl (fun n c => base * n + hexValue c) 0
  if digits.isEmpty || !rest.isEmpty || !kind.holds n then none else some n

def integer? (kind : IntegerKind) (text : String) : Option Int :=
  match dropSpaces text.toList with
  | '0' :: 'x' :: cs => based? 16 isHexDigit kind cs
  | '0' :: 'X' :: cs => based? 16 isHexDigit kind cs
  | '0' :: 'b' :: cs => based? 2 isBinaryDigit kind cs
  | '0' :: 'B' :: cs => based? 2 isBinaryDigit kind cs
  | cs => do rounded? kind (← numeral? cs)

end QueryGateway.Store.Cast
