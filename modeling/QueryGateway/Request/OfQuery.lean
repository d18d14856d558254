import QueryGateway.Request.Basic
import QueryGateway.Vector
import QueryGateway.Sql.Diagnosis
import QueryGateway.Decimal.Numeral

namespace QueryGateway

open Sql

-- Powers are the core library's, whatever else is imported.
attribute [local instance (high)] instPowNat

/-- What is worth telling about a limit that has no effect. -/
inductive LimitWarning where
  | missing
  | notANumber
  deriving DecidableEq, Repr

def LimitWarning.message : LimitWarning → String
  | missing => "LIMIT without a value, returning all rows"
  | notANumber => "non-numeric LIMIT ignored"

/-- A request with the warnings on the way to it. -/
structure Prepared where
  request : Request
  warnings : List LimitWarning

namespace Request.OfQuery

/-- The operands' texts; each placeholder takes the next argument. -/
def predicates : List Condition → List String → List Predicate
  | [], _ => []
  | ⟨column, op, .literal text⟩ :: more, args => ⟨column, op, text⟩ :: predicates more args
  | ⟨column, op, .placeholder⟩ :: more, arg :: args => ⟨column, op, arg⟩ :: predicates more args
  | ⟨column, op, .placeholder⟩ :: more, [] => ⟨column, op, ""⟩ :: predicates more []

def element? (text : String) : Option Float := do
  let x := (← Decimal.Numeral.ofChars? (Text.trim text).toList).toFloat
  if x.isFinite then some x else none

/-- The numbers of a vector; the first element that is none is the one reported. -/
def vector (elements : List String) : Except QueryError (List Float) :=
  if elements.isEmpty then .error .emptyVector
  else elements.zipIdx.mapM fun (text, i) =>
    match element? text with
    | some x => .ok x
    | none => .error (.badElement i text)

def ordering (functions : FunctionTable) : OrderItem → Except QueryError Ordering
  | .column name direction => .ok (.column name direction)
  | .distance function column elements direction =>
    match functions.lookup? function with
    | none => .error (.unknownFunction function)
    | some f =>
      if direction = .descending then .error (.descendingDistance function)
      else do return .vector ⟨column, f.metric, ← vector elements, f.native⟩

/-- Rows are counted in signed 64-bit numbers. -/
def largestLimit : Nat := 2 ^ (63 : Nat) - 1

def limit : Limit → Except QueryError (Option Nat × List LimitWarning)
  | ⟨none⟩ => .ok (none, [.missing])
  | ⟨some token⟩ =>
    if !Decimal.isDigits token.toList then .ok (none, [.notANumber])
    else match Decimal.boundedValue? largestLimit token.toList with
      | some n => .ok (some n, [])
      | none => .error (.limitOutOfRange token)

def columns : Projection → Option (List String)
  | .all => none
  | .columns names => some names

end Request.OfQuery

open Request.OfQuery in
/-- Faults are looked for in the arguments, then in the ordering, then in the limit. -/
def Sql.Query.toRequest (q : Query) (args : List String) (functions : FunctionTable) :
    Except QueryError Prepared :=
  if q.placeholderCount ≠ args.length then .error (.argumentCount q.placeholderCount args.length)
  else do
    let ordering ← q.order.mapM (ordering functions)
    let (limit, warnings) ← match q.limit with
      | none => .ok (none, [])
      | some l => Request.OfQuery.limit l
    return ⟨⟨q.table, columns q.projection, predicates q.conditions args, ordering, limit⟩, warnings⟩

/-- Reads a query and makes its request; a text that is no query is refused before anything else. -/
def Request.ofText (text : String) (args : List String) (functions : FunctionTable) :
    Except QueryError Prepared := do
  (← Query.parse text).toRequest args functions

end QueryGateway
