namespace QueryGateway.Decimal

/-- The digits before and after the point and the power of ten they are multiplied by. -/
structure Numeral where
  negative : Bool
  whole : List Char
  fraction : List Char
  exponent : Int
  deriving DecidableEq, Repr

def digitsValue (cs : List Char) : Nat :=
  cs.foldl (fun n c => 10 * n + (c.toNat - '0'.toNat)) 0

/-- One more digit, unless the number passes the bound by it. -/
def boundedStep? (bound n : Nat) (c : Char) : Option Nat := do
  let tenfold ← Option.guard (· ≤ bound) (10 * n)
  Option.guard (· ≤ bound) (tenfold + (c.toNat - '0'.toNat))

/-- The number that the digits say, read digit by digit; nothing as soon as it passes the bound. -/
def boundedValue? (bound : Nat) (cs : List Char) : Option Nat :=
  cs.foldlM (boundedStep? bound) 0

/-- A run of ASCII digits, with nothing else before or after it. -/
def isDigits (cs : List Char) : Bool :=
  !cs.isEmpty && cs.all Char.isDigit

namespace Numeral

def splitSign : List Char → Bool × List Char
  | '-' :: cs => (true, cs)
  | '+' :: cs => (false, cs)
  | cs => (false, cs)

/-- An exponent mark and a signed whole number at the end of the text, or nothing. -/
def exponent? : List Char → Option Int
  | [] => some 0
  | c :: cs =>
    if c == 'e' || c == 'E' then
      let (negative, digits) := splitSign cs
      if isDigits digits then
        some (if negative then -(digitsValue digits : Int) else digitsValue digits)
      else none
    else none

/-- An optional sign, digits around an optional point with at least one digit, an optional exponent. -/
def ofChars? (cs : List Char) : Option Numeral := do
  let (negative, cs) := splitSign cs
  let whole := cs.takeWhile Char.isDigit
  let cs := cs.dropWhile Char.isDigit
  let (fraction, cs) := match cs with
    | '.' :: cs => (cs.takeWhile Char.isDigit, cs.dropWhile Char.isDigit)
    | cs => ([], cs)
  if whole.isEmpty && fraction.isEmpty then none
  return ⟨negative, whole, fraction, ← exponent? cs⟩

def significand (n : Numeral) : Nat :=
  digitsValue (n.whole ++ n.fraction)

/-- The power of ten that the significand is multiplied by. -/
def scale (n : Numeral) : Int :=
  n.exponent - n.fraction.length

/-- Powers beyond which every significand of the numeral's length overflows or vanishes. -/
def boundedScale (n : Numeral) : Int :=
  let most : Int := 400 + n.whole.length + n.fraction.length
  max (-most) (min most n.scale)

/-- The nearest binary64 value, of two equally near ones the even; infinite beyond the range. -/
def toFloat (n : Numeral) : Float :=
  let x := Float.ofScientific n.significand (n.boundedScale < 0) n.boundedScale.natAbs
  if n.negative then -x else x

def toFloat32 (n : Numeral) : Float32 :=
  let x := Float32.ofScientific n.significand (n.boundedScale < 0) n.boundedScale.natAbs
  if n.negative then -x else x

end Numeral

end QueryGateway.Decimal
