import QueryGateway.Store.Value
import QueryGateway.Comparison
import QueryGateway.Vector

namespace QueryGateway.Store

-- Powers are the core library's, whatever else is imported.
attribute [local instance (high)] instPowNat

/-- Two zeros are one number; what is no number is greater than all others. -/
def floatKey (x : Float) : Int :=
  if x.isNaN then 2 ^ (63 : Nat) else if x == 0 then 0 else floatRank x

namespace Value

def isNull : Value → Bool
  | null => true
  | _ => false

/-- A number in a vector; null is greater than all others. -/
def elementKey : Value → Int
  | single x => floatKey (Decimal.Binary.ofFloat32 x).toFloat
  | double x => floatKey x
  | _ => 2 ^ (64 : Nat)

def key? : Value → Option (List Int)
  | boolean b => some [if b then 1 else 0]
  | integer _ n => some [n]
  | single x => some [floatKey (Decimal.Binary.ofFloat32 x).toFloat]
  | double x => some [floatKey x]
  | text s => some (s.toList.map fun c => (c.toNat : Int))
  | timestamp _ n => some [n]
  | date days => some [days]
  | array items => some (items.map elementKey)
  | _ => none

def same (a b : Value) : Bool :=
  a.key? == b.key?

end Value

/-- Whether two keys compare in this way. Containment is about texts and not about keys. -/
def compareKeys (op : Comparison) (a b : List Int) : Bool :=
  match op with
  | .eq => a == b
  | .ne => a != b
  | .gt => decide (b < a)
  | .lt => decide (a < b)
  | .ge => !decide (a < b)
  | .le => !decide (b < a)
  | .like => false

/-- A comparison with null holds of nothing. -/
def Value.compares (op : Comparison) (a b : Value) : Bool :=
  match a.key?, b.key? with
  | some x, some y => compareKeys op x y
  | _, _ => false

def Value.notAfter (direction : Direction) (a b : Value) : Bool :=
  match a.key?, b.key? with
  | some x, some y =>
    match direction with
    | .ascending => !decide (y < x)
    | .descending => !decide (x < y)
  | some _, none => true
  | none, some _ => false
  | none, none => true

end QueryGateway.Store
