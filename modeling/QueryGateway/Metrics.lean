import QueryGateway.Decimal.Layout

namespace QueryGateway

/-- How many durations fell into each bucket, their sum and their number. -/
structure Histogram where
  buckets : List Nat
  sum : Float
  count : Nat

namespace Histogram

/-- The upper ends of the buckets in seconds, each with its text. -/
def bounds : List (Float × String) :=
  [(0.0005, "0.0005"), (0.001, "0.001"), (0.005, "0.005"), (0.01, "0.01"), (0.05, "0.05"), (0.1, "0.1"),
    (0.5, "0.5"), (1, "1"), (5, "5")]

def empty : Histogram :=
  ⟨bounds.map fun _ => 0, 0, 0⟩

/-- Adds one to the first bucket that the duration does not exceed, if there is one. -/
def bump (x : Float) : List (Float × String) → List Nat → List Nat
  | (bound, _) :: bounds, n :: ns => if x ≤ bound then (n + 1) :: ns else n :: bump x bounds ns
  | _, ns => ns

def observe (h : Histogram) (x : Float) : Histogram :=
  ⟨bump x bounds h.buckets, h.sum + x, h.count + 1⟩

def cumulative (h : Histogram) : List Nat :=
  (h.buckets.foldl (fun (done, total) n => (done ++ [total + n], total + n)) ([], 0)).1

end Histogram

structure Metrics where
  /-- By method and outcome. -/
  requests : List ((String × String) × Nat)
  /-- By method. -/
  durations : List (String × Histogram)
  openTransactions : Nat

namespace Metrics

def empty : Metrics :=
  ⟨[], [], 0⟩

/-- Changes the value of a key, or that of `fresh` where there is none. -/
def alter [BEq α] (key : α) (fresh : β) (change : β → β) : List (α × β) → List (α × β)
  | [] => [(key, change fresh)]
  | (k, v) :: rest => if k == key then (k, change v) :: rest else (k, v) :: alter key fresh change rest

/-- Seconds from microseconds: whole seconds and the fraction are converted apart. -/
def seconds (micros : Nat) : Float :=
  Float.ofNat (micros / 1000000) + Float.ofNat (micros % 1000000 * 1000) / 1000000000

/-- `outcome` is "ok" or the label of a failure. -/
def observe (m : Metrics) (method outcome : String) (micros : Nat) : Metrics :=
  { m with
    requests := alter (method, outcome) 0 (· + 1) m.requests
    durations := alter method .empty (·.observe (seconds micros)) m.durations }

def setOpenTransactions (m : Metrics) (count : Nat) : Metrics :=
  { m with openTransactions := count }

def requestCount (m : Metrics) (method outcome : String) : Nat :=
  (m.requests.lookup (method, outcome)).getD 0

def escapeLabel (s : String) : String :=
  String.ofList (s.toList.flatMap fun c =>
    match c with
    | '\\' => ['\\', '\\']
    | '"' => ['\\', '"']
    | '\n' => ['\\', 'n']
    | c => [c])

def labels (pairs : List (String × String)) : String :=
  "\x7b" ++ String.intercalate "," (pairs.map fun (name, v) => name ++ "=\"" ++ escapeLabel v ++ "\"") ++ "\x7d"

def heading (name help kind : String) : List String :=
  ["# HELP " ++ name ++ " " ++ help, "# TYPE " ++ name ++ " " ++ kind]

def openLines (m : Metrics) : List String :=
  let name := "sidecar_open_transactions"
  heading name "Transactions currently open" "gauge" ++ [name ++ " " ++ toString m.openTransactions]

def histogramLines (name method : String) (h : Histogram) : List String :=
  let bucket (bound : String) (n : Nat) :=
    name ++ "_bucket" ++ labels [("method", method), ("le", bound)] ++ " " ++ toString n
  (List.zipWith bucket (Histogram.bounds.map (·.2)) h.cumulative) ++
    [bucket "+Inf" h.count,
      name ++ "_sum" ++ labels [("method", method)] ++ " " ++ Decimal.Layout.plain.text (.ofFloat h.sum),
      name ++ "_count" ++ labels [("method", method)] ++ " " ++ toString h.count]

def durationLines (m : Metrics) : List String :=
  let name := "sidecar_rpc_request_duration_seconds"
  if m.durations.isEmpty then []
  else heading name "RPC handling time in seconds" "histogram" ++
    (m.durations.mergeSort fun a b => a.1 ≤ b.1).flatMap fun (method, h) => histogramLines name method h

def requestLines (m : Metrics) : List String :=
  let name := "sidecar_rpc_requests_total"
  let notAfter (a b : (String × String) × Nat) := a.1.1 < b.1.1 || (a.1.1 == b.1.1 && a.1.2 ≤ b.1.2)
  if m.requests.isEmpty then []
  else heading name "RPC requests by method and outcome" "counter" ++
    (m.requests.mergeSort notAfter).map fun ((method, outcome), n) =>
      name ++ labels [("method", method), ("outcome", outcome)] ++ " " ++ toString n

/-- Families by name; samples by the values of their labels. -/
def text (m : Metrics) : String :=
  String.join ((m.openLines ++ m.durationLines ++ m.requestLines).map (· ++ "\n"))

end Metrics

end QueryGateway
