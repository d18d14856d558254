import QueryGateway.Store.Cast.Number
import QueryGateway.Calendar
import QueryGateway.Text.Blank

namespace QueryGateway.Store.Cast

-- Powers are the core library's, whatever else is imported.
attribute [local instance (high)] instPowNat

def twoDigits? : List Char → Option (Nat × List Char)
  | [] => none
  | [c] => if c.isDigit then some (Decimal.digitsValue [c], []) else none
  | c :: d :: cs =>
    if !c.isDigit then none
    else if d.isDigit then some (Decimal.digitsValue [c, d], cs)
    else some (Decimal.digitsValue [c], d :: cs)

def isDateSeparator (c : Char) : Bool :=
  c == '-' || c == '/' || c == '\\' || c == ' '

def firstYear : Int := -5877641
def lastYear : Int := 5881580

def beforeChrist? : List Char → Option (List Char)
  | s :: '(' :: b :: c :: ')' :: cs =>
    if isSpace s && b.toLower == 'b' && c.toLower == 'c' then some cs else none
  | _ => none

/-- The date at the front and what follows it, which may not be a digit. -/
def date? (cs : List Char) : Option (Date × List Char) := do
  let cs := dropSpaces cs
  let (negative, cs) := match cs with
    | '-' :: cs => (true, cs)
    | cs => (false, cs)
  let digits := cs.takeWhile Char.isDigit
  if digits.isEmpty || 9 < digits.length then none
  let year := Decimal.digitsValue digits
  match cs.dropWhile Char.isDigit with
  | separator :: cs =>
    if !isDateSeparator separator then none
    let (month, cs) ← twoDigits? cs
    if cs.head? != some separator then none
    let (day, cs) ← twoDigits? cs.tail
    let (year, cs) ← match beforeChrist? cs with
      | some cs => if negative || year = 0 then none else some (1 - (year : Int), cs)
      | none => some (if negative then -(year : Int) else year, cs)
    if cs.head?.any Char.isDigit then none
    let date : Date := ⟨year, month, day⟩
    if date.isValid && firstYear ≤ year && year ≤ lastYear then some (date, cs) else none
  | [] => none

/-- Digits after the point as microseconds; further ones are dropped. -/
def fractionMicros (digits : List Char) : Nat :=
  let kept := digits.take 6
  Decimal.digitsValue kept * 10 ^ (6 - kept.length)

/-- Seconds with a fraction if there is one; a time may end before them. -/
def seconds? : List Char → Option (Nat × Nat × List Char)
  | [] => some (0, 0, [])
  | [':'] => some (0, 0, [])
  | ':' :: cs => do
    let (seconds, cs) ← twoDigits? cs
    match cs with
    | '.' :: cs => return (seconds, fractionMicros (cs.takeWhile Char.isDigit), cs.dropWhile Char.isDigit)
    | cs => return (seconds, 0, cs)
  | _ => none

/-- Minutes and what may come after them; a time may end before them too. -/
def minutes? : List Char → Option (Nat × List Char)
  | [':'] => some (0, [])
  | ':' :: cs => twoDigits? cs
  | _ => none

/-- The microseconds of a time at the front, at most a whole day, and what follows it. -/
def timeOfDay? (cs : List Char) : Option (Nat × List Char) := do
  let cs := dropSpaces cs
  let digits := cs.takeWhile Char.isDigit
  if digits.isEmpty || 9 < digits.length then none
  let (minutes, cs) ← minutes? (cs.dropWhile Char.isDigit)
  let (seconds, micros, cs) ← seconds? cs
  let total := ((Decimal.digitsValue digits * 60 + minutes) * 60 + seconds) * 1000000 + micros
  if 60 ≤ minutes || 60 ≤ seconds || microsPerDay < total then none else some (total, cs)

/-- Two digits, after a colon or not; zero if there are none. -/
def offsetPart (cs : List Char) : Nat × List Char :=
  let after := match cs with
    | ':' :: cs => cs
    | cs => cs
  match after with
  | c :: d :: rest => if c.isDigit && d.isDigit then (Decimal.digitsValue [c, d], rest) else (0, cs)
  | _ => (0, cs)

/-- An offset in seconds: a sign, two digits for hours, two each for minutes and seconds if they are given. -/
def offset? : List Char → Option (Int × List Char)
  | sign :: c :: d :: cs =>
    if (sign == '+' || sign == '-') && c.isDigit && d.isDigit then
      let (minutes, cs) := offsetPart cs
      let (seconds, cs) := offsetPart cs
      let total : Int := (Decimal.digitsValue [c, d] * 60 + minutes) * 60 + seconds
      some (if sign == '-' then -total else total, cs)
    else none
  | _ => none

/-- The offset at the end of a time; a lone `Z` is none. -/
def zone? : List Char → Option Int
  | [] => some 0
  | 'Z' :: cs => if cs.all isSpace then some 0 else none
  | cs =>
    match offset? cs with
    | some (seconds, rest) => if rest.all isSpace then some seconds else none
    | none => match cs with
      | ' ' :: cs =>
        if (dropSpaces cs).isEmpty || Text.lower (String.ofList (cs.takeWhile (!isSpace ·))) == "utc" &&
          (cs.dropWhile (!isSpace ·)).all isSpace then some 0 else none
      | _ => none

/-- The moments that stand for no moment. -/
def endOfTime : Int := 2 ^ (63 : Nat) - 1

def wordAlone (word : String) (cs : List Char) : Bool :=
  Text.lower (String.ofList (dropSpaces (dropSpaces cs).reverse).reverse) == word

def timestamp? (text : String) : Option Int :=
  let cs := text.toList
  if wordAlone "epoch" cs then some 0
  else if wordAlone "infinity" cs then some endOfTime
  else if wordAlone "-infinity" cs then some (-endOfTime)
  else do
    let (date, rest) ← date? cs
    let midnight := date.toDays * microsPerDay
    let micros ← match rest with
      | [] => some midnight
      | c :: more => do
        let (time, rest) ← timeOfDay? (if c == ' ' || c == 'T' then more else rest)
        return midnight + time - (← zone? rest) * 1000000
    if -endOfTime < micros && micros < endOfTime then some micros else none

/-- The days that stand for no day. -/
def endOfDays : Int := 2 ^ (31 : Nat) - 1

/-- Days since 1970. What follows the date is passed over. -/
def day? (text : String) : Option Int :=
  let cs := text.toList
  if wordAlone "epoch" cs then some 0
  else if wordAlone "infinity" cs then some endOfDays
  else if wordAlone "-infinity" cs then some (-endOfDays)
  else (date? cs).map fun (date, _) => date.toDays

end QueryGateway.Store.Cast
