import QueryGateway.Gateway

namespace QueryGateway.Http

structure Request where
  method : String
  /-- The path, with what may follow a question mark. -/
  target : String
  body : ByteArray

structure Response where
  status : Nat
  contentType : Option String
  allowOrigin : Option String
  allowMethods : Option String
  allowHeaders : Option String
  body : String
  deriving DecidableEq, Repr

namespace Response

/-- Pages from anywhere may read the answer. -/
def plain (status : Nat) (contentType : Option String) (body : String) : Response :=
  ⟨status, contentType, some "*", none, none, body⟩

def json (status : Nat) (v : Json) : Response :=
  plain status (some "application/json") v.print

/-- Tells a browser that it may ask from anywhere, in any way. -/
def permission : Response :=
  ⟨200, none, some "*", some "*", some "*", ""⟩

def withoutBody (r : Response) : Response :=
  { r with body := "" }

end Response

inductive Route where
  | rpc
  | health
  | ping
  | metrics
  deriving DecidableEq, Repr

namespace Route

def path : Route → String
  | rpc => "/rpc"
  | health => "/health"
  | ping => "/ping"
  | metrics => "/metrics"

def ofPath? (path : String) : Option Route :=
  [rpc, health, ping, metrics].find? (·.path == path)

@[simp] theorem ofPath?_path (r : Route) : ofPath? r.path = some r := by
  cases r <;> rfl

def method : Route → String
  | rpc => "POST"
  | _ => "GET"

end Route

def pathOf (target : String) : String :=
  String.ofList (target.toList.takeWhile (· != '?'))

def isHealthy (v : Json) : Bool :=
  ((v.member? "status").bind Json.string?) == some "healthy"

def serveRoute (g : Gateway) (clock : Clock) (route : Route) (body : ByteArray) : Response × Gateway :=
  match route with
  | .rpc =>
    let ((status, answer), g) := g.handle clock body
    (.json status answer.toJson, g)
  | .health =>
    match g.call clock Rpc.Method.healthCheck.name none with
    | (.ok v, g) => (.json (if isHealthy v then 200 else 503) v, g)
    | (.error f, g) => (.json f.kind.status (.string f.message), g)
  | .ping =>
    match g.call clock Rpc.Method.ping.name none with
    | (.ok v, g) => (.json 200 v, g)
    | (.error f, g) => (.json f.kind.status (.string f.message), g)
  | .metrics => (.plain 200 (some "text/plain; version=0.0.4") g.metrics.text, g)

/-- `HEAD` is answered as `GET` is, without the body. -/
def serve (g : Gateway) (clock : Clock) (r : Request) : Response × Gateway :=
  if r.method == "OPTIONS" then (.permission, g)
  else
    match Route.ofPath? (pathOf r.target) with
    | none => (.plain 404 none "", g)
    | some route =>
      if r.method == route.method then serveRoute g clock route r.body
      else if r.method == "HEAD" && route.method == "GET" then
        let (response, g) := serveRoute g clock route r.body
        (response.withoutBody, g)
      else (.plain 405 none "", g)

end QueryGateway.Http
