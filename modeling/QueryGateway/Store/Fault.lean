import QueryGateway.Batch
import QueryGateway.Text.Blank

namespace QueryGateway.Store

inductive Fault where
  /-- The engine's own message, which begins with the class of the error. -/
  | engine (text : String)
  /-- A database path that the engine cannot use. -/
  | path (text : String)
  /-- A value that cannot be handed to the engine or read back from it. -/
  | conversion (text : String)
  | device (text : String)
  | noTable (name : String)
  | noColumn (table column : String)
  | closed
  | aborted
  | data (e : BatchError)
  deriving DecidableEq, Repr

namespace Fault

inductive Kind where
  | unavailable
  | rejected
  | notFound
  | conflict
  | other
  deriving DecidableEq, Repr

def message : Fault → String
  | engine text => "Database error: " ++ text
  | path text => "Database error: Invalid path: " ++ text
  | conversion text => "Database error: " ++ text
  | device text => "I/O error: " ++ text
  | noTable name => s!"Table '{name}' not found"
  | noColumn table column => s!"Column '{column}' not found in table '{table}'"
  | closed => "Transaction is already closed"
  | aborted => "Transaction aborted by an earlier failure; its changes were discarded"
  | data e => e.message

/-- The classes of engine errors by the kind they count as, in the order in which they are looked for. -/
def classes : List (Kind × List String) :=
  [(.unavailable, ["IO Error", "Connection Error", "Could not set lock"]),
    (.conflict, ["TransactionContext Error"]),
    (.rejected, ["Conversion Error", "Binder Error", "Constraint Error", "Invalid Input Error",
      "Mismatch Type Error", "Out of Range Error"])]

/-- The first kind with a class that occurs in the text, wherever it does. -/
def kindOfText (text : String) : Kind :=
  match classes.find? fun (_, names) => names.any (Text.contains text ·) with
  | some (kind, _) => kind
  | none => .other

def kind : Fault → Kind
  | engine text => kindOfText text
  | path _ => .unavailable
  | conversion _ => .rejected
  | device _ => .unavailable
  | noTable _ => .notFound
  | noColumn .. => .notFound
  | closed => .notFound
  | aborted => .conflict
  | data _ => .rejected

end Fault

end QueryGateway.Store
