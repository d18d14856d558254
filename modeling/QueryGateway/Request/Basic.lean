import QueryGateway.Comparison
import QueryGateway.Digest
import QueryGateway.Json.Printer
import QueryGateway.Vector

namespace QueryGateway

structure Predicate where
  column : String
  op : Comparison
  value : String
  deriving DecidableEq, Repr

/-- Nearest first, by the distance of a column to a vector. -/
structure VectorOrdering where
  column : String
  metric : Metric
  vector : List Float
  /-- The store's own function for the distance, if it has one. -/
  native : Option String

inductive Ordering where
  | column (name : String) (direction : Direction)
  | vector (ordering : VectorOrdering)

structure Request where
  table : String
  /-- In the order asked for; all columns if there is no list. -/
  columns : Option (List String)
  /-- A row has to satisfy them all. -/
  predicates : List Predicate
  ordering : Option Ordering
  limit : Option Nat

namespace Request

def vectorOrdering? (r : Request) : Option VectorOrdering :=
  match r.ordering with
  | some (.vector v) => some v
  | _ => none

theorem vectorOrdering?_eq_some_iff {r : Request} {v : VectorOrdering} :
    r.vectorOrdering? = some v ↔ r.ordering = some (.vector v) := by
  unfold vectorOrdering?
  constructor
  · intro h
    split at h
    · next heq =>
      cases h
      exact heq
    · cases h
  · intro h
    rw [h]

end Request

def Predicate.toJson (p : Predicate) : Json :=
  .object [("column", .string p.column), ("op", .string p.op.name), ("value", .string p.value)]

def Ordering.toJson : Ordering → Json
  | column name direction =>
    .object [("type", .string "Column"), ("column", .string name), ("direction", .string direction.name)]
  | vector v =>
    .object
      ([("type", .string "Vector"), ("column", .string v.column), ("metric", .string v.metric.name),
          ("vector", .array (v.vector.map .float))] ++
        v.native.toList.map fun f => ("native_function", .string f))

namespace Request

def toJson (r : Request) : Json :=
  .object
    (("table", .string r.table) ::
      (r.columns.toList.map fun names => ("columns", .array (names.map .string))) ++
      (if r.predicates.isEmpty then [] else [("predicates", .array (r.predicates.map Predicate.toJson))]) ++
      (r.ordering.toList.map fun o => ("ordering", o.toJson)) ++
      (r.limit.toList.map fun n => ("limit", .int n)))

def text (r : Request) : String :=
  r.toJson.print

def fingerprint (r : Request) : String :=
  Digest.sha256 r.text

end Request

end QueryGateway
