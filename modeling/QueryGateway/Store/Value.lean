import QueryGateway.Calendar
import QueryGateway.Json.Basic
import QueryGateway.Decimal.Layout
import QueryGateway.Text.Hidden

namespace QueryGateway.Store

-- Powers are the core library's, whatever else is imported.
attribute [local instance (high)] instPowNat

inductive IntegerKind where
  | tiny
  | small
  | regular
  | big
  | huge
  | unsignedTiny
  | unsignedSmall
  | unsignedRegular
  | unsignedBig
  | unsignedHuge
  deriving DecidableEq, Repr

namespace IntegerKind

def description : IntegerKind → String
  | tiny => "TinyInt"
  | small => "SmallInt"
  | regular => "Int"
  | big => "BigInt"
  | huge => "HugeInt"
  | unsignedTiny => "UTinyInt"
  | unsignedSmall => "USmallInt"
  | unsignedRegular => "UInt"
  | unsignedBig => "UBigInt"
  | unsignedHuge => "UHugeInt"

def bits : IntegerKind → Nat
  | tiny => 8
  | small => 16
  | regular => 32
  | big => 64
  | huge => 128
  | unsignedTiny => 8
  | unsignedSmall => 16
  | unsignedRegular => 32
  | unsignedBig => 64
  | unsignedHuge => 128

def isSigned : IntegerKind → Bool
  | tiny => true
  | small => true
  | regular => true
  | big => true
  | huge => true
  | _ => false

def least (k : IntegerKind) : Int :=
  if k.isSigned then -2 ^ (k.bits - 1) else 0

def greatest (k : IntegerKind) : Int :=
  if k.isSigned then 2 ^ (k.bits - 1) - 1 else 2 ^ k.bits - 1

def holds (k : IntegerKind) (n : Int) : Bool :=
  k.least ≤ n && n ≤ k.greatest

/-- The nearest number of the kind. -/
def saturated (k : IntegerKind) (n : Int) : Int :=
  max k.least (min k.greatest n)

end IntegerKind

inductive TimeUnit where
  | second
  | milli
  | micro
  | nano
  deriving DecidableEq, Repr

namespace TimeUnit

def description : TimeUnit → String
  | second => "Second"
  | milli => "Millisecond"
  | micro => "Microsecond"
  | nano => "Nanosecond"

/-- A count of units in microseconds, cut toward zero; beyond 64 bits the last number is taken. -/
def toMicros (u : TimeUnit) (n : Int) : Int :=
  match u with
  | second => IntegerKind.big.saturated (n * 1000000)
  | milli => IntegerKind.big.saturated (n * 1000)
  | micro => n
  | nano => n.tdiv 1000

end TimeUnit

inductive Value where
  | null
  | boolean (b : Bool)
  | integer (kind : IntegerKind) (n : Int)
  | single (x : Float32)
  | double (x : Float)
  | decimal (unscaled : Int) (width scale : Nat)
  | text (s : String)
  | label (s : String)
  | blob (bytes : List UInt8)
  | timestamp (unit : TimeUnit) (n : Int)
  | date (days : Int)
  | time (unit : TimeUnit) (n : Int)
  | interval (months days nanos : Int)
  | list (items : List Value)
  | array (items : List Value)
  | record (fields : List (String × Value))
  | union (v : Value)
  deriving Inhabited

namespace Value

/-- A whole number with `scale` of its digits after the point. -/
def decimalText (unscaled : Int) (scale : Nat) : String :=
  let sign := if unscaled < 0 then "-" else ""
  let whole := unscaled.natAbs / 10 ^ scale
  let fraction := unscaled.natAbs % 10 ^ scale
  if scale = 0 then sign ++ toString whole
  else sign ++ toString whole ++ "." ++ Date.padded scale fraction

/-- Positional from 0.0001 up to 16 digits, always with a point; else with an exponent. -/
def describedLayout : Decimal.Layout :=
  ⟨-4, 15, true, false, 1, "NaN", "inf"⟩

mutual

def describe : Value → String
  | null => "Null"
  | boolean b => "Boolean(" ++ (if b then "true" else "false") ++ ")"
  | integer kind n => kind.description ++ "(" ++ toString n ++ ")"
  | single x => "Float(" ++ describedLayout.text (.ofFloat32 x) ++ ")"
  | double x => "Double(" ++ describedLayout.text (.ofFloat x) ++ ")"
  | decimal unscaled _ scale => "Decimal(" ++ decimalText unscaled scale ++ ")"
  | text s => "Text(" ++ Text.quoted s ++ ")"
  | label s => "Enum(" ++ Text.quoted s ++ ")"
  | blob bytes => "Blob([" ++ String.intercalate ", " (bytes.map fun b => toString b.toNat) ++ "])"
  | timestamp unit n => "Timestamp(" ++ unit.description ++ ", " ++ toString n ++ ")"
  | date days => "Date32(" ++ toString days ++ ")"
  | time unit n => "Time64(" ++ unit.description ++ ", " ++ toString n ++ ")"
  | interval months days nanos =>
    "Interval \x7b months: " ++ toString months ++ ", days: " ++ toString days ++ ", nanos: " ++ toString nanos ++ " \x7d"
  | list items => "List([" ++ String.intercalate ", " (describeItems items) ++ "])"
  | array items => "Array([" ++ String.intercalate ", " (describeItems items) ++ "])"
  | record fields => "Struct(OrderedMap([" ++ String.intercalate ", " (describeFields fields) ++ "]))"
  | union v => "Union(" ++ describe v ++ ")"

def describeItems : List Value → List String
  | [] => []
  | v :: items => describe v :: describeItems items

def describeFields : List (String × Value) → List String
  | [] => []
  | (name, v) :: fields => ("(" ++ Text.quoted name ++ ", " ++ describe v ++ ")") :: describeFields fields

end

/-- A float that is not finite has no JSON form. -/
def floatJson (x : Float) : Json :=
  if x.isFinite then .float x else .null

def timestampJson (unit : TimeUnit) (n : Int) : Json :=
  Json.ofOption .string (instantText? (unit.toMicros n))

/-- A day since 1970-01-01 as one of which 0001-01-01 is the first; beyond 32 bits the last number is taken. -/
def eraDay (days : Int) : Int :=
  IntegerKind.regular.saturated (days + Date.epoch)

def dateJson (days : Int) : Json :=
  Json.ofOption .string ((Date.ofEraDay? (eraDay days)).map Date.text)

def wholeSeconds (micros : Int) : Int :=
  micros.tdiv 1000000

def nanosBeyond (micros : Int) : Int :=
  micros.tmod 1000000 * 1000

/-- Seconds and nanoseconds that 32 bits hold without a sign. -/
def timeText? (seconds nanos : Int) : Option String :=
  if IntegerKind.unsignedRegular.holds seconds && IntegerKind.unsignedRegular.holds nanos then
    TimeOfDay.text? seconds.toNat nanos.toNat
  else none

def timeJson (unit : TimeUnit) (n : Int) : Json :=
  let micros := unit.toMicros n
  Json.ofOption .string (timeText? (wholeSeconds micros) (nanosBeyond micros))

def element? : Value → Option Float
  | single x => some (Decimal.Binary.ofFloat32 x).toFloat
  | _ => none

def numbers? : Value → Option (List Float)
  | array items => items.mapM element?
  | _ => none

/-- Whether this is a vector in which a number is missing. -/
def hasGap : Value → Bool
  | array items => items.any fun item => item.element?.isNone
  | _ => false

mutual

def toJson : Value → Json
  | null => .null
  | boolean b => .bool b
  | integer .unsignedHuge n => .string ("UHugeInt(" ++ toString n ++ ")")
  | integer .huge n => if -2 ^ (63 : Nat) ≤ n && n < 2 ^ (63 : Nat) then .int n else .string (toString n)
  | integer _ n => .int n
  | single x => floatJson (Decimal.Binary.ofFloat32 x).toFloat
  | double x => floatJson x
  | decimal unscaled _ scale => .string (decimalText unscaled scale)
  | text s => .string s
  | label s => .string s
  | blob bytes => .string s!"<blob {bytes.length} bytes>"
  | timestamp unit n => timestampJson unit n
  | date days => dateJson days
  | time unit n => timeJson unit n
  | list items => .array (itemsJson items)
  | array items => .array (itemsJson items)
  | v => .string v.describe

def itemsJson : List Value → List Json
  | [] => []
  | v :: items => toJson v :: itemsJson items

end

end Value

end QueryGateway.Store
