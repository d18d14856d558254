import QueryGateway.Decimal.Shortest

namespace QueryGateway.Decimal

structure Layout where
  /-- Positional when the power of ten of the first digit is in this range, else with an exponent. -/
  lowest : Int
  highest : Int
  /-- A positional whole number ends in `.0`. -/
  pointZero : Bool
  /-- Positive exponents carry a sign. -/
  plusSign : Bool
  /-- The fewest digits of an exponent. -/
  exponentDigits : Nat
  notANumber : String
  infinity : String
  deriving DecidableEq, Repr

namespace Layout

def zeros (n : Nat) : List Char :=
  List.replicate n '0'

/-- `digits` with the point after the digit of power zero. -/
def positional (l : Layout) (digits : List Char) (power : Int) : List Char :=
  if power < 0 then '0' :: '.' :: (zeros (-power - 1).toNat ++ digits)
  else
    let whole := power.toNat + 1
    if digits.length ≤ whole then
      digits ++ zeros (whole - digits.length) ++ (if l.pointZero then ['.', '0'] else [])
    else digits.take whole ++ '.' :: digits.drop whole

def scientific (l : Layout) (digits : List Char) (power : Int) : List Char :=
  let mantissa := match digits with
    | [] => []
    | [d] => [d]
    | d :: more => d :: '.' :: more
  let sign := if power < 0 then ['-'] else if l.plusSign then ['+'] else []
  let exponent := Nat.toDigits 10 power.natAbs
  mantissa ++ 'e' :: (sign ++ zeros (l.exponentDigits - exponent.length) ++ exponent)

def signed (negative : Bool) (cs : List Char) : String :=
  String.ofList (if negative then '-' :: cs else cs)

def text (l : Layout) : Binary → String
  | .undefined => l.notANumber
  | .infinite negative => signed negative l.infinity.toList
  | .zero negative => signed negative (if l.pointZero then ['0', '.', '0'] else ['0'])
  | .finite negative m =>
    let (digits, power) := m.shortest.written
    signed negative
      (if l.lowest ≤ power && power ≤ l.highest then l.positional digits power else l.scientific digits power)

/-- Every digit, without an exponent and without a needless point. -/
def plain : Layout :=
  ⟨-400, 400, false, false, 1, "NaN", "inf"⟩

end Layout

end QueryGateway.Decimal
