import QueryGateway.Json.Basic
import QueryGateway.Decimal.Numeral

namespace QueryGateway.Json

-- Powers are the core library's, whatever else is imported.
attribute [local instance (high)] instPowNat

/-- A significand and the power of ten it is multiplied by. -/
structure Scaled where
  significand : Nat
  exponent : Int
  deriving DecidableEq, Repr

namespace Scaled

def fits (n : Nat) : Bool :=
  n < 2 ^ (64 : Nat)

def pushed (s : Scaled) (c : Char) : Nat :=
  10 * s.significand + (c.toNat - '0'.toNat)

/-- Digits before the point: once one no longer fits, it and all that follow only count as powers of ten. -/
def addWhole (s : Scaled) : List Char → Scaled
  | [] => s
  | c :: cs =>
    if fits (s.pushed c) then addWhole ⟨s.pushed c, s.exponent⟩ cs
    else ⟨s.significand, s.exponent + (cs.length + 1)⟩

/-- Digits after the point: once one no longer fits, it and all that follow are dropped. -/
def addFraction (s : Scaled) : List Char → Scaled
  | [] => s
  | c :: cs => if fits (s.pushed c) then addFraction ⟨s.pushed c, s.exponent - 1⟩ cs else s

end Scaled

def powerOfTen (n : Nat) : Float :=
  Float.ofScientific 1 false n

/-- `x * 10 ^ e` by one multiplication, or by divisions by at most `10 ^ 308`; nothing on overflow. -/
def scaleByTen (x : Float) (e : Int) : Option Float :=
  if 0 ≤ e then
    if e ≤ 308 then
      let y := x * powerOfTen e.toNat
      if y.isInf then none else some y
    else if x == 0 then some x else none
  else if -308 ≤ e then some (x / powerOfTen (-e).toNat)
  else if x == 0 then some x
  else scaleByTen (x / powerOfTen 308) (e + 308)
termination_by (-e).toNat

def Scaled.toFloat? (s : Scaled) (negative : Bool) : Option Float :=
  (scaleByTen (Float.ofScientific s.significand false 0) s.exponent).map fun x => if negative then -x else x

/-- The digits of a whole part: a lone zero, or digits that do not begin with one. -/
def wholeDigits? (cs : List Char) : Option (List Char × List Char) :=
  match cs.takeWhile Char.isDigit with
  | [] => none
  | '0' :: _ :: _ => none
  | digits => some (digits, cs.dropWhile Char.isDigit)

/-- A point with digits after it; no digits if there is no point. -/
def fractionDigits? : List Char → Option (Option (List Char) × List Char)
  | '.' :: cs =>
    match cs.takeWhile Char.isDigit with
    | [] => none
    | digits => some (some digits, cs.dropWhile Char.isDigit)
  | cs => some (none, cs)

/-- An exponent mark with an optional sign and digits; nothing if there is no mark. -/
def exponentPart? : List Char → Option (Option Int × List Char)
  | c :: cs =>
    if c == 'e' || c == 'E' then
      let (negative, cs) := Decimal.Numeral.splitSign cs
      match cs.takeWhile Char.isDigit with
      | [] => none
      | digits =>
        let n : Int := Decimal.digitsValue digits
        some (some (if negative then -n else n), cs.dropWhile Char.isDigit)
    else some (none, c :: cs)
  | [] => some (none, [])

/-- A whole number, if it is written as one and fits; negative zero does not. -/
def wholeNumber? (negative : Bool) (n : Nat) : Option Int :=
  if negative then
    if 0 < n && n ≤ 2 ^ (63 : Nat) then some (-(n : Int)) else none
  else if n < 2 ^ (64 : Nat) then some n else none

def readNumber (cs : List Char) : Option (Json × List Char) := do
  let (negative, cs) := match cs with
    | '-' :: cs => (true, cs)
    | cs => (false, cs)
  let (whole, cs) ← wholeDigits? cs
  let (fraction, cs) ← fractionDigits? cs
  let (exponent, cs) ← exponentPart? cs
  let asFloat (_ : Unit) : Option (Json × List Char) := do
    let s := (Scaled.addWhole ⟨0, 0⟩ whole).addFraction (fraction.getD [])
    let x ← (⟨s.significand, s.exponent + exponent.getD 0⟩ : Scaled).toFloat? negative
    return (.float x, cs)
  match fraction, exponent, wholeNumber? negative (Decimal.digitsValue whole) with
  | none, none, some n => some (.int n, cs)
  | _, _, _ => asFloat ()

end QueryGateway.Json
