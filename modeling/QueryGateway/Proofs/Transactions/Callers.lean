import QueryGateway.Proofs.Transactions.Registry

namespace QueryGateway.Transactions

open Store

namespace Registry

variable {τ : Type}

/-- Handles are counted by a word of 64 bits. -/
def wordSize : Nat := 2 ^ 64

/-- The number of the next handle; after the last one that a word holds comes zero. -/
def draw (r : Registry τ) : Nat × Registry τ :=
  (r.next % wordSize, ⟨r.next + 1, r.entries, fun e he => Nat.lt_succ_of_lt (r.number_lt e he), r.distinct⟩)

/-- Puts a transaction under the handle of a number, in the place of one that is there. -/
def put (r : Registry τ) (number : Nat) (k : τ) (now : Nat) : Registry τ :=
  ⟨max r.next (number + 1), r.entries.filter (·.number != number) ++ [⟨number, k, now⟩],
    by
      intro e he
      rcases List.mem_append.mp he with h | h
      · exact Nat.lt_of_lt_of_le (r.number_lt e (List.mem_filter.mp h).1) (Nat.le_max_left _ _)
      · rw [List.mem_singleton.mp h]
        exact Nat.le_max_right _ _,
    List.pairwise_append.mpr
      ⟨r.distinct.filter _, List.pairwise_singleton _ _, fun a ha b hb => by
        rw [List.mem_singleton.mp hb]
        exact bne_iff_ne.mp (List.mem_filter.mp ha).2⟩⟩

/-- Drawing a number and using it at once is how a transaction is added by one caller alone, as long as a word holds
the number. -/
theorem add_eq (r : Registry τ) (h : r.next < wordSize) (k : τ) (now : Nat) :
    r.add k now = (handle r.draw.1, r.draw.2.put r.draw.1 k now) := by
  have hn : r.next % wordSize = r.next := Nat.mod_eq_of_lt h
  have hf : r.entries.filter (·.number != r.next) = r.entries := by
    apply List.filter_eq_self.mpr
    intro e he
    exact bne_iff_ne.mpr (Nat.ne_of_lt (r.number_lt e he))
  simp only [add, draw, put, hn, hf, Nat.max_self]

end Registry

inductive Ending where
  | commit
  | rollback
  deriving DecidableEq, Repr

def Finisher.act {σ τ : Type} (f : Finisher σ τ) : Ending → τ → σ → Except Fault Unit × σ
  | .commit => f.commit
  | .rollback => f.rollback

/-- Tells besides which transactions were committed or rolled back, first to last, whatever came of it. -/
def Finisher.recorded {σ τ : Type} (f : Finisher σ τ) : Finisher (σ × List (Ending × τ)) τ where
  commit k w := ((f.commit k w.1).1, (f.commit k w.1).2, w.2 ++ [(.commit, k)])
  rollback k w := ((f.rollback k w.1).1, (f.rollback k w.1).2, w.2 ++ [(.rollback, k)])

theorem Finisher.recorded_act {σ τ : Type} (f : Finisher σ τ) (how : Ending) (k : τ)
    (w : σ × List (Ending × τ)) :
    f.recorded.act how k w = ((f.act how k w.1).1, (f.act how k w.1).2, w.2 ++ [(how, k)]) := by
  cases how <;> rfl

namespace Callers

/-- How far a call is that has not been answered at once. -/
inductive Stage where
  /-- Has started a transaction. -/
  | starting (k : Nat)
  /-- Has drawn a number for it. -/
  | numbered (k number : Nat)
  /-- Has taken a transaction out, to finish it. -/
  | finishing (handle : String) (how : Ending) (k : Nat)
  /-- Has taken `count` transactions out, and still has some of them to roll back. -/
  | abandoning (count : Nat) (ks : List Nat)
  | ended
  deriving DecidableEq

/-- The transactions that a call has taken out and not finished yet. -/
def Stage.owes : Stage → List (Ending × Nat)
  | finishing _ how k => [(how, k)]
  | abandoning _ ks => ks.map (.rollback, ·)
  | _ => []

/-- The transaction that has been started and is under no handle yet, with the number that was drawn for it. -/
def Stage.begins? : Stage → Option (Nat × Option Nat)
  | starting k => some (k, none)
  | numbered k number => some (k, some number)
  | _ => none

/-- What has happened. Calls are numbered in the order in which they came. -/
inductive Event where
  /-- A handle was answered. -/
  | begun (handle : String) (k : Nat)
  /-- No transaction could be started. -/
  | refused (fault : Fault)
  | found (handle : String) (k : Nat)
  | failed (error : TransactionError)
  /-- A call took a transaction out of the registry. -/
  | taken (call : Nat) (how : Ending) (k : Nat)
  /-- A call finished a transaction, with that result. -/
  | finished (call : Nat) (how : Ending) (k : Nat) (result : Except Fault Unit)
  | counted (n : Nat)

def Event.begun? : Event → Option (String × Nat)
  | begun handle k => some (handle, k)
  | _ => none

def Event.taken? : Event → Option (Nat × Ending × Nat)
  | taken call how k => some (call, how, k)
  | _ => none

def Event.finished? : Event → Option (Nat × Ending × Nat)
  | finished call how k _ => some (call, how, k)
  | _ => none

inductive Move (σ : Type) where
  /-- Somebody begins a transaction, which `start` starts. -/
  | begin (start : σ → Except Fault Unit × σ)
  | get (handle : String) (now : Nat)
  | finish (how : Ending) (handle : String)
  | rollbackAll
  | expire (now maxIdle : Nat)
  /-- The next step of the call of that number. Where it may go on with any of several transactions, `pick` tells
  with which. -/
  | advance (call now pick : Nat)

def Move.isBegin {σ : Type} : Move σ → Bool
  | begin _ => true
  | _ => false

end Callers

open Callers

structure Callers (σ : Type) where
  session : Session σ Nat
  /-- How many transactions have been started; each is told from the others by how many there were before it. -/
  started : Nat
  /-- By the order in which they came; those that have ended keep their place. -/
  calls : List Stage
  /-- First to last. -/
  history : List Callers.Event

namespace Callers

variable {σ : Type} (s : Callers σ)

def opened (world : σ) : Callers σ :=
  ⟨⟨.empty, world⟩, 0, [], []⟩

def registry : Registry Nat :=
  s.session.registry

def withRegistry (r : Registry Nat) : Callers σ :=
  { s with session := ⟨r, s.session.world⟩ }

def withWorld (world : σ) : Callers σ :=
  { s with session := ⟨s.session.registry, world⟩ }

def launch (stage : Stage) : Callers σ :=
  { s with calls := s.calls ++ [stage] }

def turn (i : Nat) (stage : Stage) : Callers σ :=
  { s with calls := s.calls.set i stage }

def note (es : List Event) : Callers σ :=
  { s with history := s.history ++ es }

def begin (start : σ → Except Fault Unit × σ) : Callers σ :=
  match start s.session.world with
  | (.error fault, world) => (s.withWorld world).note [.refused fault]
  | (.ok (), world) => { (s.withWorld world).launch (.starting s.started) with started := s.started + 1 }

def get (handle : String) (now : Nat) : Callers σ :=
  match s.registry.use? handle now with
  | none => s.note [.failed (.notFound handle)]
  | some (k, r) => (s.withRegistry r).note [.found handle k]

def take (how : Ending) (handle : String) : Callers σ :=
  match s.registry.take? handle with
  | none => s.note [.failed (.notFound handle)]
  | some (k, r) => ((s.withRegistry r).launch (.finishing handle how k)).note [.taken s.calls.length how k]

/-- Goes on with transactions that were taken out together. -/
def abandon (taken : List Nat × Registry Nat) : Callers σ :=
  ((s.withRegistry taken.2).launch (.abandoning taken.1.length taken.1)).note
    (taken.1.map (.taken s.calls.length .rollback))

def finish (f : Finisher σ Nat) (i : Nat) (how : Ending) (k : Nat) (stage : Stage) : Callers σ :=
  let (result, world) := f.act how k s.session.world
  ((s.withWorld world).turn i stage).note [.finished i how k result]

def advance (f : Finisher σ Nat) (i now pick : Nat) : Callers σ :=
  match s.calls[i]? with
  | some (.starting k) => (s.withRegistry s.registry.draw.2).turn i (.numbered k s.registry.draw.1)
  | some (.numbered k number) =>
    ((s.withRegistry (s.registry.put number k now)).turn i .ended).note [.begun (handle number) k]
  | some (.finishing _ how k) => s.finish f i how k .ended
  | some (.abandoning count ks) =>
    match ks.rotate pick with
    | k :: rest => s.finish f i .rollback k (.abandoning count rest)
    | [] => (s.turn i .ended).note [.counted count]
  | some .ended => s
  | none => s

def step (f : Finisher σ Nat) (s : Callers σ) : Move σ → Callers σ
  | .begin start => s.begin start
  | .get handle now => s.get handle now
  | .finish how handle => s.take how handle
  | .rollbackAll => s.abandon s.registry.drain
  | .expire now maxIdle => s.abandon (s.registry.sweep now maxIdle)
  | .advance i now pick => s.advance f i now pick

def run (f : Finisher σ Nat) (s : Callers σ) (moves : List (Move σ)) : Callers σ :=
  moves.foldl (step f) s

/-- The handles that were answered, each with its transaction. -/
def begun : List (String × Nat) :=
  s.history.filterMap Event.begun?

/-- Which call took which transaction out, and what for. -/
def taken : List (Nat × Ending × Nat) :=
  s.history.filterMap Event.taken?

/-- Which call finished which transaction, and how. -/
def finished : List (Nat × Ending × Nat) :=
  s.history.filterMap Event.finished?

def beginning : List (Nat × Option Nat) :=
  s.calls.filterMap Stage.begins?

/-- What a call has taken out and not finished yet. -/
def owes (i : Nat) : List (Ending × Nat) :=
  (s.calls[i]?.map Stage.owes).getD []

section Alone

variable {s : Callers σ} {i : Nat} (f : Finisher σ Nat) (now pick : Nat)

theorem advance_none (hi : s.calls[i]? = none) : s.advance f i now pick = s := by
  rw [advance, hi]

theorem advance_starting {k : Nat} (hi : s.calls[i]? = some (.starting k)) :
    s.advance f i now pick = (s.withRegistry s.registry.draw.2).turn i (.numbered k s.registry.draw.1) := by
  rw [advance, hi]

theorem advance_numbered {k number : Nat} (hi : s.calls[i]? = some (.numbered k number)) :
    s.advance f i now pick =
      ((s.withRegistry (s.registry.put number k now)).turn i .ended).note [.begun (handle number) k] := by
  rw [advance, hi]

theorem advance_finishing {h : String} {how : Ending} {k : Nat} (hi : s.calls[i]? = some (.finishing h how k)) :
    s.advance f i now pick = s.finish f i how k .ended := by
  rw [advance, hi]

theorem advance_abandoning {count k : Nat} {ks : List Nat} (hi : s.calls[i]? = some (.abandoning count (k :: ks))) :
    s.advance f i now 0 = s.finish f i .rollback k (.abandoning count ks) := by
  rw [advance, hi]
  simp only [List.rotate_zero]

theorem advance_abandoned {count : Nat} (hi : s.calls[i]? = some (.abandoning count [])) :
    s.advance f i now pick = (s.turn i .ended).note [.counted count] := by
  rw [advance, hi]
  simp only [List.rotate_nil]

theorem calls_launch (s : Callers σ) (stage : Stage) : (s.launch stage).calls[s.calls.length]? = some stage :=
  List.getElem?_concat_length

theorem calls_turn {stage : Stage} (hi : s.calls[i]? = some stage) (stage' : Stage) :
    (s.turn i stage').calls[i]? = some stage' :=
  List.getElem?_set_self (List.getElem?_eq_some_iff.mp hi).1

theorem begin_refused {start : σ → Except Fault Unit × σ} {fault : Fault} {world : σ}
    (hs : start s.session.world = (.error fault, world)) :
    s.begin start = (s.withWorld world).note [.refused fault] := by
  rw [begin, hs]

theorem begin_started {start : σ → Except Fault Unit × σ} {world : σ} (hs : start s.session.world = (.ok (), world)) :
    s.begin start = { (s.withWorld world).launch (.starting s.started) with started := s.started + 1 } := by
  rw [begin, hs]

theorem begin_alone {start : σ → Except Fault Unit × σ} {world : σ} (hw : s.registry.next < Registry.wordSize)
    (hs : start s.session.world = (.ok (), world)) :
    let s' := run f s [.begin start, .advance s.calls.length now 0, .advance s.calls.length now 0]
    s'.session = ⟨(s.registry.add s.started now).2, world⟩ ∧
      s'.history = s.history ++ [.begun (s.registry.add s.started now).1 s.started] := by
  have hbegin := begin_started hs
  have hi : (s.begin start).calls[s.calls.length]? = some (.starting s.started) := by
    rw [hbegin]
    exact calls_launch s _
  have hdraw := advance_starting f now 0 hi
  have hi' : ((s.begin start).advance f s.calls.length now 0).calls[s.calls.length]? =
      some (.numbered s.started s.registry.draw.1) := by
    rw [hdraw, hbegin]
    exact calls_turn (s := s.launch (.starting s.started)) (calls_launch s _) _
  have hput := advance_numbered f now 0 hi'
  rw [Registry.add_eq _ hw]
  simp only [run, List.foldl_cons, List.foldl_nil, step]
  rw [hput, hdraw, hbegin]
  exact ⟨rfl, rfl⟩

theorem take_none {h : String} (hr : s.registry.take? h = none) (how : Ending) :
    s.take how h = s.note [.failed (.notFound h)] := by
  rw [take, hr]

theorem take_some {h : String} {k : Nat} {r : Registry Nat} (hr : s.registry.take? h = some (k, r)) (how : Ending) :
    s.take how h = ((s.withRegistry r).launch (.finishing h how k)).note [.taken s.calls.length how k] := by
  rw [take, hr]

theorem finish_alone (how : Ending) (h : String) :
    (run f s [.finish how h, .advance s.calls.length now pick]).session = (s.session.finish (f.act how) h).2 := by
  simp only [run, List.foldl_cons, List.foldl_nil, step, Session.finish]
  cases hr : s.registry.take? h with
  | none =>
    have hi : (s.note [.failed (.notFound h)]).calls[s.calls.length]? = none :=
      List.getElem?_eq_none_iff.mpr (Nat.le_refl _)
    rw [take_none hr, advance_none f now pick hi, show s.session.registry.take? h = none from hr]
    rfl
  | some taken =>
    have hi : (s.take how h).calls[s.calls.length]? = some (.finishing h how taken.1) := by
      rw [take_some hr]
      exact calls_launch s _
    rw [advance_finishing f now pick hi, take_some hr, show s.session.registry.take? h = some taken from hr]
    rfl

theorem abandoning_alone (count : Nat) (ks : List Nat) :
    ∀ {s : Callers σ}, s.calls[i]? = some (.abandoning count ks) →
      (run f s (List.replicate (ks.length + 1) (.advance i now 0))).session =
        ⟨s.registry, ks.foldl (fun world k => (f.rollback k world).2) s.session.world⟩ := by
  induction ks with
  | nil =>
    intro s hi
    change (s.advance f i now 0).session = _
    rw [advance_abandoned f now 0 hi]
    rfl
  | cons k ks ih =>
    intro s hi
    have hstep := advance_abandoning f now hi
    have hnext : (s.advance f i now 0).calls[i]? = some (.abandoning count ks) := by
      rw [hstep]
      exact calls_turn hi _
    change (run f (s.advance f i now 0) (List.replicate (ks.length + 1) (.advance i now 0))).session = _
    rw [ih hnext, hstep]
    rfl

theorem abandon_alone (taken : List Nat × Registry Nat) :
    (run f (s.abandon taken) (List.replicate (taken.1.length + 1) (.advance s.calls.length now 0))).session =
      (Session.abandon f taken s.session.world).2 :=
  abandoning_alone f now _ _ (calls_launch s _)

end Alone

end Callers

end QueryGateway.Transactions
