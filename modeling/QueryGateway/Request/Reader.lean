import QueryGateway.Request.Basic
import QueryGateway.Json.Reader

namespace QueryGateway

namespace Request.Reader

/-- The values of the named fields, each where it is given. -/
def fields? (names : List String) : Json → Option (List (Option Json))
  | .object members =>
    if names.any fun n => 1 < members.countP (·.1 == n) then none
    else some (names.map fun n => members.lookup n)
  | .array items =>
    if names.length < items.length then none
    else some ((List.range names.length).map (items[·]?))
  | _ => none

/-- A field that may be missing, but not null. -/
def orElse (fallback : α) (read : Json → Option α) : Option Json → Option α
  | none => some fallback
  | some v => read v

/-- A field that may be missing or null. -/
def optional (read : Json → Option α) : Option Json → Option (Option α)
  | none => some none
  | some .null => some none
  | some v => (read v).map some

def list? (read : Json → Option α) (v : Json) : Option (List α) := do
  (← v.array?).mapM read

/-- A choice by name; also as the only member's name, over nothing. -/
def choice? (ofName? : String → Option α) (isNothing : Json → Bool) : Json → Option α
  | .string s => ofName? s
  | .object [(s, v)] => if isNothing v then ofName? s else none
  | _ => none

def isNothing : Json → Bool
  | .null => true
  | .object [] => true
  | _ => false

def predicate? (v : Json) : Option Predicate := do
  match ← fields? ["column", "op", "value"] v with
  | [some column, some op, some value] =>
    return ⟨← column.string?, ← choice? Comparison.ofName? Json.isNull op, ← value.string?⟩
  | _ => none

def columnOrdering? (v : Json) : Option Ordering := do
  match ← fields? ["column", "direction"] v with
  | [some column, direction] =>
    return .column (← column.string?)
      (← orElse .ascending (choice? Direction.ofName? isNothing) direction)
  | _ => none

def vectorOrdering? (v : Json) : Option Ordering := do
  match ← fields? ["column", "metric", "vector", "native_function"] v with
  | [some column, some metric, some vector, native] =>
    return .vector
      ⟨← column.string?, ← choice? Metric.ofName? isNothing metric, ← vector.vector?,
        ← optional Json.string? native⟩
  | _ => none

/-- The kind of an ordering, and what is left without it. -/
def tagged? : Json → Option (String × Json)
  | .object members =>
    match members.filter (·.1 == "type") with
    | [(_, .string kind)] => some (kind, .object (members.filter (·.1 != "type")))
    | _ => none
  | .array (.string kind :: items) => some (kind, .array items)
  | _ => none

def ordering? (v : Json) : Option Ordering := do
  let (kind, v) ← tagged? v
  match kind with
  | "Column" => columnOrdering? v
  | "Vector" => vectorOrdering? v
  | _ => none

def limit? : Json → Option Nat
  | .int n => if 0 ≤ n then some n.toNat else none
  | _ => none

def request? (v : Json) : Option Request := do
  match ← fields? ["table", "columns", "predicates", "ordering", "limit"] v with
  | [some table, columns, predicates, ordering, limit] =>
    return ⟨← table.string?, ← optional (list? Json.string?) columns, ← orElse [] (list? predicate?) predicates,
      ← optional ordering? ordering, ← optional limit? limit⟩
  | _ => none

end Request.Reader

def Request.read? (text : String) : Option Request := do
  Request.Reader.request? (← Json.written? text.toList)

end QueryGateway
