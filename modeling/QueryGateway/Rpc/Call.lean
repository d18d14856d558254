import QueryGateway.Json.Printer
import QueryGateway.Rpc.Failure
import QueryGateway.Rpc.Shape

namespace QueryGateway.Rpc

inductive Method where
  | ping
  | healthCheck
  | beginTransaction
  | commitTransaction
  | rollbackTransaction
  | executeQuery
  | selectById
  | insertTable
  | upsertTable
  | updateTable
  deriving DecidableEq, Repr

namespace Method

def all : List Method :=
  [ping, healthCheck, beginTransaction, commitTransaction, rollbackTransaction, executeQuery, selectById, insertTable,
    upsertTable, updateTable]

def name : Method → String
  | ping => "ping"
  | healthCheck => "health_check"
  | beginTransaction => "begin_transaction"
  | commitTransaction => "commit_transaction"
  | rollbackTransaction => "rollback_transaction"
  | executeQuery => "execute_query"
  | selectById => "select_by_id"
  | insertTable => "insert_table"
  | upsertTable => "upsert_table"
  | updateTable => "update_table"

def ofName? (s : String) : Option Method :=
  all.find? (·.name == s)

@[simp] theorem ofName?_name (m : Method) : ofName? m.name = some m := by
  cases m <;> rfl

/-- The transaction in which the call is to work. -/
def transaction : Member := ⟨"tx_id", .text, false⟩

def schema : Method → Schema
  | ping => []
  | healthCheck => []
  | beginTransaction => []
  | commitTransaction => [⟨"tx_id", .text, true⟩]
  | rollbackTransaction => [⟨"tx_id", .text, true⟩]
  | executeQuery => [⟨"sql", .text, true⟩, ⟨"args", .list, false⟩, transaction]
  | selectById =>
    [⟨"table_name", .text, true⟩, ⟨"id_column", .text, true⟩, ⟨"id_value", .any, true⟩, transaction]
  | insertTable => [⟨"table_name", .text, true⟩, ⟨"data", .members, true⟩, transaction]
  | upsertTable =>
    [⟨"table_name", .text, true⟩, ⟨"data", .members, true⟩, ⟨"key_columns", .texts, true⟩, transaction]
  | updateTable =>
    [⟨"table_name", .text, true⟩, ⟨"set_values", .members, true⟩, ⟨"where_conditions", .members, true⟩, transaction]

end Method

inductive Action where
  | query (sql : String) (args : List String)
  | selectById (table column : String) (value : Json)
  | insert (table : String) (data : List (String × Json))
  | upsert (table : String) (data : List (String × Json)) (keyColumns : List String)
  | update (table : String) (values wanted : List (String × Json))

inductive Call where
  | ping
  | health
  | begin
  | commit (handle : String)
  | rollback (handle : String)
  /-- In the transaction with that handle, if there is one. -/
  | act (action : Action) (handle : Option String)

namespace Call

/-- An argument's text: strings as they are, numbers and booleans as JSON has them. -/
def argument (v : Json) (i : Nat) : Except Failure String :=
  match v with
  | .string s => .ok s
  | .int n => .ok (toString n)
  | .float x => .ok (Json.floatText x)
  | .bool b => .ok (if b then "true" else "false")
  | v => .error (.invalidParams (s!"args[{i}] must be a string, number or boolean, got " ++ v.print))

def arguments (values : List Json) : Except Failure (List String) :=
  values.zipIdx.mapM fun (v, i) => argument v i

section

variable (params : List (String × Json))

def text? (name : String) : Option String :=
  (params.lookup name).bind Json.string?

def text (name : String) : String :=
  (text? params name).getD ""

def items (name : String) : List Json :=
  ((params.lookup name).bind Json.array?).getD []

def members (name : String) : List (String × Json) :=
  ((params.lookup name).elim [] Json.members)

/-- The call that parameters of the right shape stand for. -/
def ofChecked (method : Method) : Except Failure Call :=
  let handle := text? params "tx_id"
  let table := text params "table_name"
  match method with
  | .ping => .ok ping
  | .healthCheck => .ok health
  | .beginTransaction => .ok begin
  | .commitTransaction => .ok (commit (text params "tx_id"))
  | .rollbackTransaction => .ok (rollback (text params "tx_id"))
  | .executeQuery => do return act (.query (text params "sql") (← arguments (items params "args"))) handle
  | .selectById =>
    .ok (act (.selectById table (text params "id_column") ((params.lookup "id_value").getD .null)) handle)
  | .insertTable => .ok (act (.insert table (members params "data")) handle)
  | .upsertTable =>
    .ok (act (.upsert table (members params "data") ((items params "key_columns").filterMap Json.string?)) handle)
  | .updateTable => .ok (act (.update table (members params "set_values") (members params "where_conditions")) handle)

end

/-- Reads the parameters of a method. Nothing is done before they are found right. -/
def ofParams (method : Method) (params : List (String × Json)) : Except Failure Call := do
  (method.schema.check params).mapError fun e => .invalidParams ("Invalid params: " ++ e.message)
  ofChecked params method

end Call

/-- The most bytes of text that a list or object may take. -/
def summaryLimit : Nat := 100

def summarizeValue (v : Json) : Json :=
  let size := match v with
    | .array items => some items.length
    | .object members => some members.length
    | _ => none
  match size with
  | some n => if summaryLimit < v.print.utf8ByteSize then .string s!"<{n} items>" else v
  | none => v

def summarize (params : List (String × Json)) : List (String × Json) :=
  params.map fun (name, v) => (name, summarizeValue v)

end QueryGateway.Rpc
