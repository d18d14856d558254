import QueryGateway.Json.Basic

namespace QueryGateway

inductive BatchError where
  | noColumns
  | notAList (column : String)
  | ragged (column : String) (expected actual : Nat)
  | missingKey (column : String)
  deriving DecidableEq, Repr

def BatchError.message : BatchError → String
  | noColumns => "Columnar data has no columns"
  | notAList column => s!"Column '{column}' must be a list of values"
  | ragged column expected actual => s!"Column '{column}' has {actual} values, expected {expected}"
  | missingKey column => s!"Key column '{column}' is not present in the data"

structure Batch where
  columns : List (String × List Json)
  rowCount : Nat
  length_eq : ∀ c ∈ columns, c.2.length = rowCount

namespace Batch

/-- The columns of an object whose values are lists of `n` values each. -/
def columnsOf (n : Nat) : (members : List (String × Json)) →
    Except BatchError { cs : List (String × List Json) // ∀ c ∈ cs, c.2.length = n }
  | [] => .ok ⟨[], by simp⟩
  | (name, .array values) :: members =>
    if h : values.length = n then do
      let ⟨rest, hrest⟩ ← columnsOf n members
      return ⟨(name, values) :: rest, by simpa [h] using hrest⟩
    else .error (.ragged name n values.length)
  | (name, _) :: _ => .error (.notAList name)

/-- The first column fixes how many rows there are. -/
def ofMembers : List (String × Json) → Except BatchError Batch
  | [] => .error .noColumns
  | (name, .array values) :: members => do
    let ⟨rest, hrest⟩ ← columnsOf values.length members
    return ⟨(name, values) :: rest, values.length, by simpa using hrest⟩
  | (name, _) :: _ => .error (.notAList name)

def columnNames (b : Batch) : List String :=
  b.columns.map (·.1)

def hasColumn (b : Batch) (name : String) : Bool :=
  b.columns.any (·.1 == name)

def row (b : Batch) (i : Nat) : List (String × Json) :=
  b.columns.filterMap fun (name, values) => values[i]?.map (name, ·)

def rows (b : Batch) : List (List (String × Json)) :=
  (List.range b.rowCount).map b.row

def value? (b : Batch) (column : String) (i : Nat) : Option Json := do
  (← b.columns.lookup column)[i]?

def requireKeys (b : Batch) (keys : List String) : Except BatchError Unit :=
  match keys.find? (!b.hasColumn ·) with
  | some key => .error (.missingKey key)
  | none => .ok ()

end Batch

end QueryGateway
