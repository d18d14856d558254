import QueryGateway.Json.Basic
import QueryGateway.Text.Blank

namespace QueryGateway

-- Powers are the core library's, whatever else is imported.
attribute [local instance (high)] instPowNat

inductive Metric where
  | cosine
  deriving DecidableEq, Repr

namespace Metric

def name : Metric → String
  | cosine => "Cosine"

def ofName? (s : String) : Option Metric :=
  [cosine].find? (·.name == s)

@[simp] theorem ofName?_name (m : Metric) : ofName? m.name = some m := by
  cases m; rfl

end Metric

namespace Vector

def dot (a b : List Float) : Float :=
  (a.zip b).foldl (fun sum (x, y) => sum + x * y) 0

/-- One less the cosine of the angle; none for different dimensions, for no dimension, for a vector of length zero
or where the quotient is not finite. -/
def cosineDistance (a b : List Float) : Option Float :=
  if a.length ≠ b.length || a.isEmpty then none
  else
    let normA := dot a a
    let normB := dot b b
    if normA == 0 || normB == 0 then none
    else
      let distance := 1 - dot a b / (normA.sqrt * normB.sqrt)
      if distance.isFinite then some distance else none

/-- One less the cosine of the angle, which is held between its least and its greatest value; what is no number counts
as the least. Any two vectors have this distance. -/
def totalCosineDistance (a b : List Float) : Float :=
  let cosine := dot a b / (dot a a * dot b b).sqrt
  let atMost := if 1 < cosine then 1 else cosine
  1 - if -1 < atMost then atMost else -1

end Vector

def Metric.distance : Metric → List Float → List Float → Option Float
  | .cosine => Vector.cosineDistance

/-- The distance as the store has it, where it is always a number. -/
def Metric.totalDistance : Metric → List Float → List Float → Float
  | .cosine => Vector.totalCosineDistance

/-- A number that grows with the value of a float: negative values first, negative zero before zero. -/
def floatRank (x : Float) : Int :=
  let bits := x.toBits.toNat
  if bits < 2 ^ (63 : Nat) then bits else 2 ^ (63 : Nat) - 1 - (bits : Int)

structure DistanceFunction where
  name : String
  metric : Metric
  /-- The store's own function for the distance, if it has one. -/
  native : Option String
  deriving DecidableEq, Repr

/-- Newest first. -/
structure FunctionTable where
  entries : List DistanceFunction

namespace FunctionTable

def register (t : FunctionTable) (f : DistanceFunction) : FunctionTable :=
  ⟨f :: t.entries⟩

def lookup? (t : FunctionTable) (name : String) : Option DistanceFunction :=
  t.entries.find? (Text.sameName ·.name name)

def builtIn : FunctionTable :=
  ⟨[⟨"array_cosine_distance", .cosine, some "array_cosine_distance"⟩,
    ⟨"cosine_distance", .cosine, some "array_cosine_distance"⟩]⟩

def missingMessage (name : String) : String :=
  "Unsupported distance function: " ++ name

@[simp] theorem lookup?_register_self (t : FunctionTable) (f : DistanceFunction) :
    (t.register f).lookup? f.name = some f := by
  simp [register, lookup?, Text.sameName]

end FunctionTable

/-- A row of an answer: values by column, in the order of the columns. -/
abbrev Row := List (String × Json)

namespace Ranking

/-- The distance of a row; none where its column holds no vector that compares with `vector`. -/
def distance? (column : String) (metric : Metric) (vector : List Float) (row : Row) : Option Float := do
  metric.distance (← (← row.lookup column).vector?) vector

/-- Nearer first; rows without a distance after all others. -/
def notAfter : Option Float → Option Float → Bool
  | some x, some y => floatRank x ≤ floatRank y
  | some _, none => true
  | none, some _ => false
  | none, none => true

/-- Rows that are equally near keep their order. -/
def nearestFirst (column : String) (metric : Metric) (vector : List Float) (rows : List Row) : List Row :=
  ((rows.map fun row => (distance? column metric vector row, row)).mergeSort
    fun a b => notAfter a.1 b.1).map (·.2)

def cut (limit : Option Nat) (rows : List α) : List α :=
  match limit with
  | none => rows
  | some n => rows.take n

end Ranking

end QueryGateway
