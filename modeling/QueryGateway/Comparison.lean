namespace QueryGateway

inductive Comparison where
  | eq
  | ne
  | gt
  | lt
  | ge
  | le
  /-- The value occurs somewhere in the column's text. -/
  | like
  deriving DecidableEq, Repr

namespace Comparison

/-- The name under which a comparison is stored and exchanged. -/
def name : Comparison → String
  | eq => "Eq"
  | ne => "Ne"
  | gt => "Gt"
  | lt => "Lt"
  | ge => "Ge"
  | le => "Le"
  | like => "Like"

def ofName? (s : String) : Option Comparison :=
  [eq, ne, gt, lt, ge, le, like].find? (·.name == s)

def sql : Comparison → String
  | eq => "="
  | ne => "<>"
  | gt => ">"
  | lt => "<"
  | ge => ">="
  | le => "<="
  | like => "LIKE"

@[simp] theorem ofName?_name (c : Comparison) : ofName? c.name = some c := by
  cases c <;> rfl

end Comparison

inductive Direction where
  | ascending
  | descending
  deriving DecidableEq, Repr

namespace Direction

def name : Direction → String
  | ascending => "Asc"
  | descending => "Desc"

def ofName? (s : String) : Option Direction :=
  [ascending, descending].find? (·.name == s)

def sql : Direction → String
  | ascending => "ASC"
  | descending => "DESC"

@[simp] theorem ofName?_name (d : Direction) : ofName? d.name = some d := by
  cases d <;> rfl

end Direction

end QueryGateway
