import QueryGateway.Store.Fault
import QueryGateway.Sql.Diagnosis
import QueryGateway.Transactions.Registry

namespace QueryGateway.Rpc

inductive FailureKind where
  | methodNotFound
  | invalidParams
  | malformedQuery
  | unsupportedOperation
  | notFound
  | conflict
  | storeUnavailable
  | internal
  deriving DecidableEq, Repr

namespace FailureKind

def all : List FailureKind :=
  [methodNotFound, invalidParams, malformedQuery, unsupportedOperation, notFound, conflict, storeUnavailable, internal]

def code : FailureKind → Int
  | methodNotFound => -32601
  | invalidParams => -32602
  | malformedQuery => -32001
  | unsupportedOperation => -32002
  | notFound => -32004
  | conflict => -32005
  | storeUnavailable => -32003
  | internal => -32603

/-- The HTTP status of an answer with such a failure. -/
def status : FailureKind → Nat
  | methodNotFound => 404
  | invalidParams => 400
  | malformedQuery => 400
  | unsupportedOperation => 400
  | notFound => 404
  | conflict => 409
  | storeUnavailable => 503
  | internal => 500

def label : FailureKind → String
  | methodNotFound => "method_not_found"
  | invalidParams => "invalid_params"
  | malformedQuery => "malformed_query"
  | unsupportedOperation => "unsupported_operation"
  | notFound => "not_found"
  | conflict => "conflict"
  | storeUnavailable => "store_unavailable"
  | internal => "internal"

end FailureKind

structure Failure where
  kind : FailureKind
  message : String
  /-- The whole cause, where the message does not tell it. -/
  detail : Option String
  deriving DecidableEq, Repr

namespace Failure

def invalidParams (message : String) : Failure :=
  ⟨.invalidParams, message, none⟩

def notFound (message : String) : Failure :=
  ⟨.notFound, message, none⟩

def methodNotFound (method : String) : Failure :=
  ⟨.methodNotFound, "Method not found: " ++ method, none⟩

def storeUnavailable (detail : String) : Failure :=
  ⟨.storeUnavailable, "Store unavailable", some detail⟩

def internal (detail : String) : Failure :=
  ⟨.internal, "Internal error", some detail⟩

def ofQueryError (e : Sql.QueryError) : Failure :=
  match e.kind with
  | .unsupported => ⟨.unsupportedOperation, e.message, none⟩
  | .argumentCount => invalidParams e.message
  | .malformed => ⟨.malformedQuery, e.message, none⟩
  | .departure => ⟨.malformedQuery, e.message, none⟩

def ofFault (f : Store.Fault) : Failure :=
  match f.kind with
  | .notFound => notFound f.message
  | .rejected => invalidParams f.message
  | .conflict => ⟨.conflict, f.message, none⟩
  | .unavailable => storeUnavailable f.message
  | .other => internal f.message

def ofBatchError (e : BatchError) : Failure :=
  invalidParams e.message

def ofTransactionError : Transactions.TransactionError → Failure
  | .notFound handle => notFound (Transactions.TransactionError.notFound handle).message
  | .store f => ofFault f

end Failure

end QueryGateway.Rpc
