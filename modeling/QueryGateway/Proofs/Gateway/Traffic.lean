import QueryGateway.Gateway

namespace QueryGateway

open Store Rpc

namespace Traffic

/-- What one request at a time may hold. -/
inductive Hold where
  | shared
  | transaction (k : Nat)
  /-- A transaction that has no handle yet. -/
  | unregistered (k : Nat)
  deriving DecidableEq

/-- How far a request in flight is. -/
inductive Stage where
  /-- Has looked its transaction up and waits for it. -/
  | entering (action : Action) (handle : String) (k : Nat)
  /-- Works in a transaction; when it began, the connection had noted `before` changes. -/
  | inside (action : Action) (handle : String) (k before : Nat) (rest : Work Failure Json)
  | reading (action : Action) (rest : Work Failure Json)
  /-- Writes outside of a transaction, in one of its own on the shared connection. -/
  | writing (action : Action) (rest : Work Failure Json)
  /-- Has taken a transaction out, to commit it or to roll it back. -/
  | finishing (handle : String) (k : Nat) (commit : Bool)
  /-- Has begun a transaction, which gets a handle next. -/
  | registering (k : Nat)
  /-- Has taken transactions out, to roll them back. -/
  | abandoning (ks : List Nat)
  | ended

def Stage.holds : Stage → Option Hold
  | reading .. => some .shared
  | writing .. => some .shared
  | inside _ _ k _ _ => some (.transaction k)
  | registering k => some (.unregistered k)
  | _ => none

/-- What has been answered. -/
inductive Event where
  /-- A unit of work came to its end, inside the transaction of a handle or outside, and `changes` is what it noted. -/
  | worked (action : Action) (handle : Option String) (result : Except Failure Json) (changes : List Change)
  /-- A call was answered with no unit of work done. -/
  | answered (call : Call) (result : Except Failure Json)

inductive Move where
  /-- The first step of a request. -/
  | arrive (clock : Clock) (call : Call)
  /-- The next step of the request of number `i`. -/
  | advance (i now : Nat)
  | sweep (now maxIdle : Nat)
  | close

end Traffic

open Traffic

structure Traffic where
  gateway : Gateway
  /-- By the order of arrival; those that have ended keep their place. -/
  requests : List Stage
  /-- First to last. -/
  history : List Traffic.Event

namespace Traffic

variable (t : Traffic)

def database : Database :=
  t.gateway.session.world

def registry : Transactions.Registry Nat :=
  t.gateway.session.registry

def holds : List Hold :=
  t.requests.filterMap Stage.holds

def withDatabase (d : Database) : Traffic :=
  { t with gateway := t.gateway.withDatabase d }

def withRegistry (r : Transactions.Registry Nat) : Traffic :=
  { t with gateway := { t.gateway with session := { t.gateway.session with registry := r } } }

def launch (stage : Stage) : Traffic :=
  { t with requests := t.requests ++ [stage] }

def turn (i : Nat) (stage : Stage) : Traffic :=
  { t with requests := t.requests.set i stage }

def note (e : Event) : Traffic :=
  { t with history := t.history ++ [e] }

/-- The changes that a connection holds for its commit. -/
def noted (c : Nat) : List Change :=
  match t.database.engine.connection c with
  | .reading p => p.changes
  | _ => []

def work (a : Action) : Work Failure Json :=
  Gateway.work t.gateway.execution a

def unknown (handle : String) : Except Failure Json :=
  .error (.ofTransactionError (.notFound handle))

def take (call : Call) (handle : String) (commit : Bool) : Traffic :=
  match t.registry.take? handle with
  | none => t.note (.answered call (unknown handle))
  | some (k, r) => (t.withRegistry r).launch (.finishing handle k commit)

/-- The first step of a request. One that needs the shared connection does not come in while another has it. -/
def arrive (clock : Clock) : Call → Traffic
  | .ping => t.note (.answered .ping (.ok (Gateway.status "ok" [("timestamp", .string clock.timestamp)])))
  | .health =>
    if .shared ∈ t.holds then t
    else
      let (v, g) := t.gateway.health clock.timestamp
      { t with gateway := g }.note (.answered .health (.ok v))
  | .begin =>
    match t.database.begin with
    | (.error f, d) => (t.withDatabase d).note (.answered .begin (.error (.ofFault f)))
    | (.ok k, d) => (t.withDatabase d).launch (.registering k)
  | .commit handle => t.take (.commit handle) handle true
  | .rollback handle => t.take (.rollback handle) handle false
  | .act a (some handle) =>
    match t.registry.use? handle clock.now with
    | none => t.note (.answered (.act a (some handle)) (unknown handle))
    | some (k, r) => (t.withRegistry r).launch (.entering a handle k)
  | .act a none =>
    if .shared ∈ t.holds then t
    else if Gateway.isWrite a then
      match t.database.command Database.shared .begin with
      | (.error f, d) => (t.withDatabase d).note (.answered (.act a none) (.error (.ofFault f)))
      | (.ok (), d) => (t.withDatabase d).launch (.writing a (t.work a))
    else t.launch (.reading a (t.work a))

/-- Goes into a transaction that nobody else works in. -/
def enter (i : Nat) (a : Action) (handle : String) (k : Nat) : Traffic :=
  if .transaction k ∈ t.holds then t
  else match t.database.phase k with
    | .closed => (t.turn i .ended).note (.answered (.act a (some handle)) (.error (.ofFault .closed)))
    | .spoiled => (t.turn i .ended).note (.answered (.act a (some handle)) (.error (.ofFault .aborted)))
    | .active =>
      t.turn i (.inside a handle k (t.noted (Database.connectionOf k)).length (t.work a))

def operate (i c : Nat) (op : Operation) (next : Except Fault op.Answer → Work Failure Json)
    (stage : Work Failure Json → Stage) : Traffic :=
  let (result, d) := t.database.perform c op
  (t.withDatabase d).turn i (stage (next result))

/-- The end of a unit of work in a transaction. A failure spoils the transaction. -/
def leave (i : Nat) (a : Action) (handle : String) (k before : Nat) (outcome : Outcome Failure Json) : Traffic :=
  let changes := (t.noted (Database.connectionOf k)).drop before
  let t := (t.turn i .ended).note (.worked a (some handle) (Gateway.settle (Gateway.methodOf a) outcome) changes)
  match outcome with
  | .failed _ => t.withDatabase (t.database.setPhase k .spoiled)
  | _ => t

/-- The end of a write outside of a transaction: it is committed if it succeeded, else rolled back. -/
def conclude (i : Nat) (a : Action) (outcome : Outcome Failure Json) : Traffic :=
  let changes := t.noted Database.shared
  let answer (d : Database) (result : Except Failure Json) :=
    ((t.withDatabase d).turn i .ended).note (.worked a none result changes)
  match outcome with
  | .done v =>
    match t.database.command Database.shared .commit with
    | (.ok (), d) => answer d (.ok v)
    | (.error f, d) => answer d (.error (.ofFault f))
  | .failed f => answer (t.database.command Database.shared .rollback).2 (.error f)
  | .broken => answer t.database (.error (Gateway.brokenDown (Gateway.methodOf a)))

def finish (i : Nat) (handle : String) (k : Nat) (commit : Bool) : Traffic :=
  if .transaction k ∈ t.holds then t
  else
    let (result, d) := if commit then t.database.commit k else t.database.rollback k
    let answer := (result.map fun _ => Gateway.status (if commit then "committed" else "rolled_back") []).mapError
      Failure.ofFault
    ((t.withDatabase d).turn i .ended).note
      (.answered (if commit then .commit handle else .rollback handle) answer)

def advance (i now : Nat) : Traffic :=
  match t.requests[i]? with
  | none => t
  | some .ended => t
  | some (.entering a handle k) => t.enter i a handle k
  | some (.inside a handle k before (.perform op next)) =>
    t.operate i (Database.connectionOf k) op next (.inside a handle k before)
  | some (.inside a handle k before (.finish outcome)) => t.leave i a handle k before outcome
  | some (.reading a (.perform op next)) => t.operate i Database.shared op next (.reading a)
  | some (.reading a (.finish outcome)) =>
    (t.turn i .ended).note (.worked a none (Gateway.settle (Gateway.methodOf a) outcome) [])
  | some (.writing a (.perform op next)) => t.operate i Database.shared op next (.writing a)
  | some (.writing a (.finish outcome)) => t.conclude i a outcome
  | some (.finishing handle k commit) => t.finish i handle k commit
  | some (.registering k) =>
    let (handle, r) := t.registry.add k now
    ((t.withRegistry r).turn i .ended).note (.answered .begin (.ok (.string handle)))
  | some (.abandoning []) => t.turn i .ended
  | some (.abandoning (k :: ks)) =>
    if .transaction k ∈ t.holds then t
    else (t.withDatabase (t.database.rollback k).2).turn i (.abandoning ks)

def step (t : Traffic) : Move → Traffic
  | .arrive clock call => t.arrive clock call
  | .advance i now => t.advance i now
  | .sweep now maxIdle =>
    let (ks, r) := t.registry.sweep now maxIdle
    (t.withRegistry r).launch (.abandoning ks)
  | .close =>
    let (ks, r) := t.registry.drain
    (t.withRegistry r).launch (.abandoning ks)

def run (t : Traffic) (moves : List Move) : Traffic :=
  moves.foldl step t

end Traffic

end QueryGateway
