import QueryGateway.Comparison

namespace QueryGateway.Sql

inductive Projection where
  | all
  | columns (names : List String)
  deriving DecidableEq, Repr

inductive Operand where
  | literal (text : String)
  /-- Takes its text from the arguments, by position. -/
  | placeholder
  deriving DecidableEq, Repr

structure Condition where
  column : String
  op : Comparison
  operand : Operand
  deriving DecidableEq, Repr

inductive OrderItem where
  | column (name : String) (direction : Direction)
  | distance (function column : String) (elements : List String) (direction : Direction)
  deriving DecidableEq, Repr

/-- A written limit clause, with the token after its keyword if there is one. -/
structure Limit where
  token : Option String
  deriving DecidableEq, Repr

structure Query where
  projection : Projection
  table : String
  conditions : List Condition
  order : Option OrderItem
  limit : Option Limit
  deriving DecidableEq, Repr

namespace Query

def placeholderCount (q : Query) : Nat :=
  q.conditions.countP (·.operand == .placeholder)

end Query

end QueryGateway.Sql
