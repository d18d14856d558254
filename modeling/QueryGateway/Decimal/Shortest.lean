import QueryGateway.Decimal.Binary

namespace QueryGateway.Decimal

-- Powers are the core library's, whatever else is imported.
attribute [local instance (high)] instPowNat

structure Scientific where
  digits : Nat
  exponent : Int
  deriving DecidableEq, Repr

namespace Magnitude

/-- Factors by which a multiple of `10 ^ k` and a multiple of a quarter of the value's last place become
comparable natural numbers. -/
def scales (m : Magnitude) (k : Int) : Nat × Nat :=
  let e := m.exponent - 2
  (10 ^ k.toNat * 2 ^ (-e).toNat, 2 ^ e.toNat * 10 ^ (-k).toNat)

/-- The value and the ends of its interval, in quarters of its last place. -/
def quarters (m : Magnitude) : Nat :=
  4 * m.mantissa

def lowerEnd (m : Magnitude) : Nat :=
  if m.crowdedBelow then 4 * m.mantissa - 1 else 4 * m.mantissa - 2

def upperEnd (m : Magnitude) : Nat :=
  4 * m.mantissa + 2

/-- Whether `d * 10 ^ k` rounds to the value; the ends of the interval do if the mantissa is even. -/
def holds (m : Magnitude) (k : Int) (d : Nat) : Bool :=
  let (ten, two) := m.scales k
  if m.mantissa % 2 = 0 then m.lowerEnd * two ≤ d * ten && d * ten ≤ m.upperEnd * two
  else m.lowerEnd * two < d * ten && d * ten < m.upperEnd * two

/-- The multiple of `10 ^ k` that rounds to the value and is nearest to it, if there is one. -/
def onGrid? (m : Magnitude) (k : Int) : Option Scientific :=
  let (ten, two) := m.scales k
  let below := m.quarters * two / ten
  let above := below + 1
  let under := m.quarters * two - below * ten
  let excess := above * ten - m.quarters * two
  match m.holds k below, m.holds k above with
  | false, false => none
  | true, false => some ⟨below, k⟩
  | false, true => some ⟨above, k⟩
  | true, true =>
    if under < excess || (under == excess && below % 2 == 0) then some ⟨below, k⟩ else some ⟨above, k⟩

def leadingPower (m : Magnitude) : Int :=
  if 0 ≤ m.exponent then ((Nat.toDigits 10 (m.mantissa * 2 ^ m.exponent.toNat)).length : Int) - 1
  else ((Nat.toDigits 10 (m.mantissa * 10 ^ (350 : Nat) / 2 ^ (-m.exponent).toNat)).length : Int) - 351

/-- Seventeen digits are always enough. -/
def shortest (m : Magnitude) : Scientific :=
  let top := m.leadingPower
  ((List.range 18).findSome? fun i => m.onGrid? (top - Int.ofNat i)).getD ⟨m.mantissa, 0⟩

end Magnitude

namespace Scientific

/-- Written digits without trailing zeros, and the power of ten of the first one. -/
def written (d : Scientific) : List Char × Int :=
  let digits := Nat.toDigits 10 d.digits
  let kept := (digits.reverse.dropWhile (· == '0')).reverse
  (kept, d.exponent + digits.length - 1)

end Scientific

end QueryGateway.Decimal
