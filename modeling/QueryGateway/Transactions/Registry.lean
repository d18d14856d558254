import QueryGateway.Store.Fault

namespace QueryGateway.Transactions

structure Entry (τ : Type) where
  number : Nat
  transaction : τ
  /-- The last time it was looked up or begun. -/
  lastUsed : Nat

structure Registry (τ : Type) where
  /-- The number of the next handle. -/
  next : Nat
  /-- In the order in which they were begun. -/
  entries : List (Entry τ)
  number_lt : ∀ e ∈ entries, e.number < next
  distinct : entries.Pairwise fun a b => a.number ≠ b.number

def handle (number : Nat) : String :=
  "tx_" ++ toString number

namespace Registry

variable {τ : Type}

def empty : Registry τ :=
  ⟨1, [], by simp, by simp⟩

def openCount (r : Registry τ) : Nat :=
  r.entries.length

def add (r : Registry τ) (transaction : τ) (now : Nat) : String × Registry τ :=
  (handle r.next,
    ⟨r.next + 1, r.entries ++ [⟨r.next, transaction, now⟩],
      by
        intro e he
        rcases List.mem_append.mp he with h | h
        · exact Nat.lt_succ_of_lt (r.number_lt e h)
        · rw [List.mem_singleton.mp h]; exact Nat.lt_succ_self _,
      List.pairwise_append.mpr
        ⟨r.distinct, by simp, fun a ha b hb => by
          rw [List.mem_singleton.mp hb]; exact Nat.ne_of_lt (r.number_lt a ha)⟩⟩)

def find? (r : Registry τ) (h : String) : Option (Entry τ) :=
  r.entries.find? (handle ·.number == h)

def keep (r : Registry τ) (p : Entry τ → Bool) : Registry τ :=
  ⟨r.next, r.entries.filter p, fun e he => r.number_lt e ((List.mem_filter.mp he).1), r.distinct.filter p⟩

/-- The entry with a new time, if it is the one with this handle. -/
def touched (h : String) (now : Nat) (e : Entry τ) : Entry τ :=
  if handle e.number == h then { e with lastUsed := now } else e

theorem touched_number (h : String) (now : Nat) (e : Entry τ) : (touched h now e).number = e.number := by
  unfold touched; split <;> rfl

/-- Looks a transaction up, which counts as using it. -/
def use? (r : Registry τ) (h : String) (now : Nat) : Option (τ × Registry τ) :=
  (r.find? h).map fun e =>
    (e.transaction,
      ⟨r.next, r.entries.map (touched h now),
        by
          intro e he
          obtain ⟨e', he', rfl⟩ := List.mem_map.mp he
          rw [touched_number]; exact r.number_lt e' he',
        List.pairwise_map.mpr (r.distinct.imp fun hab => by simpa only [touched_number] using hab)⟩)

/-- Takes a transaction out, so that nobody else can finish it. -/
def take? (r : Registry τ) (h : String) : Option (τ × Registry τ) :=
  (r.find? h).map fun e => (e.transaction, r.keep (handle ·.number != h))

def drain (r : Registry τ) : List τ × Registry τ :=
  (r.entries.map (·.transaction), r.keep fun _ => false)

/-- Unused for longer than `maxIdle`; a time that lies ahead counts as now. -/
def isStale (now maxIdle : Nat) (e : Entry τ) : Bool :=
  maxIdle < now - e.lastUsed

def sweep (r : Registry τ) (now maxIdle : Nat) : List τ × Registry τ :=
  ((r.entries.filter (isStale now maxIdle)).map (·.transaction), r.keep (!isStale now maxIdle ·))

end Registry

inductive TransactionError where
  | notFound (handle : String)
  | store (fault : Store.Fault)
  deriving DecidableEq, Repr

def TransactionError.message : TransactionError → String
  | notFound handle => "Transaction not found: " ++ handle
  | store fault => fault.message

/-- How transactions of a kind are finished, in a world `σ` that they act on. -/
structure Finisher (σ τ : Type) where
  commit : τ → σ → Except Store.Fault Unit × σ
  rollback : τ → σ → Except Store.Fault Unit × σ

/-- The open transactions together with the world they act on. -/
structure Session (σ τ : Type) where
  registry : Registry τ
  world : σ

namespace Session

variable {σ τ : Type}

/-- Takes the transaction out and finishes it; whether or not that succeeds, its handle is gone. -/
def finish (act : τ → σ → Except Store.Fault Unit × σ) (s : Session σ τ) (h : String) :
    Except TransactionError Unit × Session σ τ :=
  match s.registry.take? h with
  | none => (.error (.notFound h), s)
  | some (t, registry) =>
    let (result, world) := act t s.world
    (result.mapError .store, ⟨registry, world⟩)

def commit (f : Finisher σ τ) (s : Session σ τ) (h : String) : Except TransactionError Unit × Session σ τ :=
  s.finish f.commit h

def rollback (f : Finisher σ τ) (s : Session σ τ) (h : String) : Except TransactionError Unit × Session σ τ :=
  s.finish f.rollback h

/-- Rolls back what was taken out; a rollback that fails is counted like any other. -/
def abandon (f : Finisher σ τ) (taken : List τ × Registry τ) (world : σ) : Nat × Session σ τ :=
  (taken.1.length, ⟨taken.2, taken.1.foldl (fun world t => (f.rollback t world).2) world⟩)

def rollbackAll (f : Finisher σ τ) (s : Session σ τ) : Nat × Session σ τ :=
  abandon f s.registry.drain s.world

def expire (f : Finisher σ τ) (s : Session σ τ) (now maxIdle : Nat) : Nat × Session σ τ :=
  abandon f (s.registry.sweep now maxIdle) s.world

end Session

end QueryGateway.Transactions
