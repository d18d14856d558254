import QueryGateway.Rpc.Shape
import QueryGateway.Rpc.Failure
import QueryGateway.Json.Reader

namespace QueryGateway.Rpc

inductive EnvelopeError where
  | notJson
  | shape (e : ShapeError)
  | version
  | noMethod

namespace EnvelopeError

def code : EnvelopeError → Int
  | notJson => -32700
  | _ => -32600

def message : EnvelopeError → String
  | notJson => "Parse error"
  | shape e => "Invalid request: " ++ e.message
  | version => "Invalid request: jsonrpc must be \"2.0\""
  | noMethod => "Invalid request: missing method"

end EnvelopeError

structure Envelope where
  method : String
  params : Option Json

namespace Envelope

def schema : Schema :=
  [⟨"jsonrpc", .text, false⟩, ⟨"method", .text, false⟩, ⟨"params", .any, false⟩, ⟨"id", .any, false⟩]

def checkMember (member : String × Json) : Except ShapeError Unit :=
  match List.find? (·.name == member.1) schema with
  | some m => m.check member.2
  | none => .ok ()

/-- The members of a call in the form of an object, each of the right shape. -/
def members : Json → Except ShapeError (List (String × Json))
  | .object ms => do
    ms.forM checkMember
    return ms
  | .array items => do
    let ms := (schema.map (·.name)).zip items
    ms.forM checkMember
    if schema.length < items.length then .error (.tooLong items.length)
    return ms
  | v => .error (.wrongType v "struct RpcRequest")

def present? (members : List (String × Json)) (name : String) : Option Json :=
  (members.lookup name).bind fun v => if v.isNull then none else some v

def ofJson (body : Json) : Except EnvelopeError Envelope := do
  let ms ← (members body).mapError .shape
  if ((present? ms "jsonrpc").bind Json.string?).any (· != "2.0") then throw .version
  match (present? ms "method").bind Json.string? with
  | some method => return ⟨method, present? ms "params"⟩
  | none => throw .noMethod

/-- What the answer to a body is to be known by: the `id` of an object, else null. -/
def idOf (body : Json) : Json :=
  (body.member? "id").getD .null

end Envelope

structure ErrorObject where
  code : Int
  message : String
  deriving DecidableEq, Repr

structure Answer where
  id : Json
  result : Except ErrorObject Json

namespace Answer

def toJson (a : Answer) : Json :=
  .object
    [("jsonrpc", .string "2.0"), ("id", a.id),
      match a.result with
      | .ok v => ("result", v)
      | .error e => ("error", .object [("code", .int e.code), ("message", .string e.message)])]

def refusal (id : Json) (e : EnvelopeError) : Answer :=
  ⟨id, .error ⟨e.code, e.message⟩⟩

def ofFailure (id : Json) (f : Failure) : Answer :=
  ⟨id, .error ⟨f.kind.code, f.message⟩⟩

end Answer

end QueryGateway.Rpc
