namespace QueryGateway

structure Date where
  year : Int
  month : Nat
  day : Nat
  deriving DecidableEq, Repr

namespace Date

def isLeap (year : Int) : Bool :=
  year % 4 == 0 && (year % 100 != 0 || year % 400 == 0)

def daysInMonth (year : Int) (month : Nat) : Nat :=
  if month = 2 then if isLeap year then 29 else 28
  else if month = 4 || month = 6 || month = 9 || month = 11 then 30
  else 31

def isValid (d : Date) : Bool :=
  1 ≤ d.month && d.month ≤ 12 && 1 ≤ d.day && d.day ≤ daysInMonth d.year d.month

/-- The date of a day. Years are taken to begin in March, so that a leap day is the last of its year, and
come in groups of 400, which are 146097 days each. -/
def ofDays (days : Int) : Date :=
  let shifted := days + 719468
  let era := shifted / 146097
  let dayOfEra := shifted % 146097
  let yearOfEra := (dayOfEra - dayOfEra / 1460 + dayOfEra / 36524 - dayOfEra / 146096) / 365
  let dayOfYear := dayOfEra - (365 * yearOfEra + yearOfEra / 4 - yearOfEra / 100)
  let marchMonth := (5 * dayOfYear + 2) / 153
  let day := dayOfYear - (153 * marchMonth + 2) / 5 + 1
  let month := if marchMonth < 10 then marchMonth + 3 else marchMonth - 9
  ⟨yearOfEra + 400 * era + (if month ≤ 2 then 1 else 0), month.toNat, day.toNat⟩

def toDays (d : Date) : Int :=
  let year := if d.month ≤ 2 then d.year - 1 else d.year
  let era := year / 400
  let yearOfEra := year % 400
  let marchMonth : Int := if d.month > 2 then d.month - 3 else d.month + 9
  let dayOfYear := (153 * marchMonth + 2) / 5 + d.day - 1
  let dayOfEra := 365 * yearOfEra + yearOfEra / 4 - yearOfEra / 100 + dayOfYear
  146097 * era + dayOfEra - 719468

/-- The days from the first of the year -262143 to the last of the year 262142. -/
def firstDay : Int := -96465292
def lastDay : Int := 95026236

def inRange (days : Int) : Bool :=
  firstDay ≤ days && days ≤ lastDay

/-- 1970-01-01 in days of which 0001-01-01 is the first. -/
def epoch : Int := 719163

/-- The date of a day of which 0001-01-01 is the first, if it is in range. -/
def ofEraDay? (n : Int) : Option Date :=
  if inRange (n - epoch) then some (ofDays (n - epoch)) else none

/-- Digits with zeros in front up to the given width. -/
def padded (width n : Nat) : String :=
  let digits := toString n
  String.ofList (List.replicate (width - digits.length) '0') ++ digits

/-- Four digits at least; a sign before a year that is negative or has more. -/
def yearText (year : Int) : String :=
  if year < 0 then "-" ++ padded 4 year.natAbs
  else if year ≤ 9999 then padded 4 year.natAbs
  else "+" ++ toString year

def text (d : Date) : String :=
  yearText d.year ++ "-" ++ padded 2 d.month ++ "-" ++ padded 2 d.day

end Date

namespace TimeOfDay

def clockText (seconds : Nat) : String :=
  Date.padded 2 (seconds / 3600) ++ ":" ++ Date.padded 2 (seconds / 60 % 60) ++ ":" ++ Date.padded 2 (seconds % 60)

/-- Nothing for a whole second, three digits for whole milliseconds, else six. -/
def fractionText (micros : Nat) : String :=
  if micros = 0 then ""
  else if micros % 1000 = 0 then "." ++ Date.padded 3 (micros / 1000)
  else "." ++ Date.padded 6 micros

def text (micros : Nat) : String :=
  clockText (micros / 1000000) ++ fractionText (micros % 1000000)

/-- A time of day given in seconds and, beyond them, nanoseconds that are whole microseconds, if the day has it. -/
def text? (seconds nanos : Nat) : Option String :=
  if seconds < 86400 && nanos < 1000000000 then some (text (seconds * 1000000 + nanos / 1000)) else none

end TimeOfDay

def microsPerDay : Nat := 86400000000

/-- The date and time of a count of microseconds since 1970-01-01, if the date is in range. -/
def instantText? (micros : Int) : Option String :=
  let days := micros / microsPerDay
  if Date.inRange days then
    some ((Date.ofDays days).text ++ "T" ++ TimeOfDay.text (micros % microsPerDay).toNat)
  else none

end QueryGateway
