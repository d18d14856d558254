namespace QueryGateway.Decimal

-- Powers are the core library's, whatever else is imported.
attribute [local instance (high)] instPowNat

/-- A binary interchange format, by the widths of its two stored fields. -/
structure Width where
  fraction : Nat
  exponent : Nat
  deriving DecidableEq, Repr

namespace Width

def single : Width := ⟨23, 8⟩
def double : Width := ⟨52, 11⟩

def bias (w : Width) : Nat :=
  2 ^ (w.exponent - 1) - 1

end Width

/-- The positive value `mantissa * 2 ^ exponent` with the distance to its neighbours. -/
structure Magnitude where
  mantissa : Nat
  exponent : Int
  /-- The neighbour below is only half as far away as the one above. -/
  crowdedBelow : Bool
  deriving DecidableEq, Repr

inductive Binary where
  | zero (negative : Bool)
  | finite (negative : Bool) (magnitude : Magnitude)
  | infinite (negative : Bool)
  | undefined
  deriving DecidableEq, Repr

namespace Binary

def ofBits (w : Width) (bits : Nat) : Binary :=
  let fraction := bits % 2 ^ w.fraction
  let biased := bits / 2 ^ w.fraction % 2 ^ w.exponent
  let negative := bits / 2 ^ (w.fraction + w.exponent) % 2 == 1
  if biased = 2 ^ w.exponent - 1 then
    if fraction = 0 then infinite negative else undefined
  else if biased = 0 then
    if fraction = 0 then zero negative
    else finite negative ⟨fraction, 1 - (w.bias : Int) - w.fraction, false⟩
  else
    finite negative
      ⟨2 ^ w.fraction + fraction, (biased : Int) - w.bias - w.fraction, fraction == 0 && biased > 1⟩

def ofFloat (x : Float) : Binary :=
  ofBits .double x.toBits.toNat

def ofFloat32 (x : Float32) : Binary :=
  ofBits .single x.toBits.toNat

/-- The value in double precision, which holds all values of single precision. -/
def toFloat (b : Binary) : Float :=
  let signed (negative : Bool) (x : Float) := if negative then -x else x
  match b with
  | zero negative => signed negative 0
  | finite negative m =>
    signed negative <|
      if 0 ≤ m.exponent then Float.ofNat (m.mantissa * 2 ^ m.exponent.toNat)
      else Float.ofNat m.mantissa / Float.ofNat (2 ^ (-m.exponent).toNat)
  | infinite negative => signed negative (1 / 0)
  | undefined => 0 / 0

end Binary

end QueryGateway.Decimal
