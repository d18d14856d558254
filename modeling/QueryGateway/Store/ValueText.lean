import QueryGateway.Store.Value

namespace QueryGateway.Store

-- Powers are the core library's, whatever else is imported.
attribute [local instance (high)] instPowNat

/-- Positional from 0.0001 up to 16 digits, always with a point; exponents have two digits at least. -/
def realLayout : Decimal.Layout :=
  ⟨-4, 15, true, true, 2, "nan", "inf"⟩

/-- A date; the years before the first are counted backwards from it. -/
def dayText (days : Int) : String :=
  if days = 2 ^ (31 : Nat) - 1 then "infinity"
  else if days = -(2 ^ (31 : Nat) - 1) then "-infinity"
  else
    let date := Date.ofDays days
    let year := if date.year ≤ 0 then 1 - date.year else date.year
    Date.padded 4 year.toNat ++ "-" ++ Date.padded 2 date.month ++ "-" ++ Date.padded 2 date.day ++
      (if date.year ≤ 0 then " (BC)" else "")

/-- The fraction of a second without zeros at its end. -/
def fractionText (micros : Nat) : String :=
  if micros = 0 then ""
  else "." ++ String.ofList ((Date.padded 6 micros).toList.reverse.dropWhile (· == '0')).reverse

def momentText (micros : Int) : String :=
  if micros = 2 ^ (63 : Nat) - 1 then "infinity"
  else if micros = -(2 ^ (63 : Nat) - 1) then "-infinity"
  else
    let time := (micros % microsPerDay).toNat
    dayText (micros / microsPerDay) ++ " " ++ TimeOfDay.clockText (time / 1000000) ++ fractionText (time % 1000000)

namespace Value

def itemText : Value → String
  | single x => realLayout.text (.ofFloat32 x)
  | double x => realLayout.text (.ofFloat x)
  | _ => "NULL"

/-- The text of a value in a column; null has none. -/
def text? : Value → Option String
  | boolean b => some (if b then "true" else "false")
  | integer _ n => some (toString n)
  | single x => some (realLayout.text (.ofFloat32 x))
  | double x => some (realLayout.text (.ofFloat x))
  | text s => some s
  | timestamp unit n => some (momentText (unit.toMicros n))
  | date days => some (dayText days)
  | array items => some ("[" ++ String.intercalate ", " (items.map itemText) ++ "]")
  | _ => none

end Value

end QueryGateway.Store
