import QueryGateway.Proofs.Gateway.Ends
import QueryGateway.Proofs.Transactions.Sweeps

namespace QueryGateway.Traffic
set_option autoImplicit true

open Store Rpc

/-- The answer to a begin. -/
def Event.Issues (handle : String) (e : Event) : Prop :=
  e = .answered .begin (.ok (.string handle))

/-- How a run goes on for the handles. -/
structure Onward (t t' : Traffic) : Prop where
  registry : t.registry.Precedes t'.registry
  issued : ∀ e ∈ t'.history, ∀ handle, e.Issues handle →
    e ∈ t.history ∨ ∃ n < t'.registry.next, handle = Transactions.handle n

namespace Onward

variable {t t' t'' : Traffic}

theorem same (hr : t.registry.Precedes t'.registry) (hh : t'.history = t.history) : Onward t t' :=
  ⟨hr, fun _ he _ _ => .inl (hh ▸ he)⟩

theorem refl (t : Traffic) : Onward t t :=
  same (.refl _) rfl

theorem noted {e : Event} (hr : t.registry.Precedes t'.registry) (hh : t'.history = t.history ++ [e])
    (he : ∀ handle, ¬ e.Issues handle) : Onward t t' := by
  refine ⟨hr, fun e' hm handle hi => ?_⟩
  rw [hh] at hm
  rcases List.mem_append.mp hm with hm | hm
  · exact .inl hm
  · rw [List.mem_singleton.mp hm] at hi
    exact (he handle hi).elim

theorem take (t : Traffic) (call : Call) (handle : String) (commit : Bool) (hc : call ≠ .begin) :
    Onward t (t.take call handle commit) := by
  unfold Traffic.take
  split
  · refine noted (.refl _) rfl fun handle' hi => ?_
    cases hi
  · next ht => exact same (.take? ht) rfl

theorem arrive (t : Traffic) (clock : Clock) (call : Call) : Onward t (t.arrive clock call) := by
  cases call with
  | ping => exact noted (.refl _) rfl fun _ hi => by cases hi
  | health =>
    simp only [Traffic.arrive]
    split
    · exact refl t
    · have hr : t.registry.Precedes (t.gateway.health clock.timestamp).2.session.registry := by
        unfold Gateway.health
        split
        · exact .refl _
        · exact .refl _
      exact noted (e := .answered .health (.ok (t.gateway.health clock.timestamp).1)) hr rfl fun _ hi => by cases hi
  | begin =>
    simp only [Traffic.arrive]
    split
    · exact noted (.refl _) rfl fun _ hi => by cases hi
    · exact same (.refl _) rfl
  | commit handle => exact take t _ handle true Call.noConfusion
  | rollback handle => exact take t _ handle false Call.noConfusion
  | act a handle =>
    cases handle with
    | some handle =>
      simp only [Traffic.arrive]
      split
      · exact noted (.refl _) rfl fun _ hi => by cases hi
      · next hu => exact same (.use? hu) rfl
    | none =>
      simp only [Traffic.arrive]
      split
      · exact refl t
      · split
        · split
          · exact noted (.refl _) rfl fun _ hi => by cases hi
          · exact same (.refl _) rfl
        · exact same (.refl _) rfl

theorem leave (t : Traffic) (i : Nat) (a : Action) (handle : String) (k before : Nat)
    (outcome : Outcome Failure Json) : Onward t (t.leave i a handle k before outcome) := by
  cases outcome with
  | done => exact noted (.refl _) rfl nofun
  | failed => exact noted (.refl _) rfl nofun
  | broken => exact noted (.refl _) rfl nofun

theorem conclude (t : Traffic) (i : Nat) (a : Action) (outcome : Outcome Failure Json) :
    Onward t (t.conclude i a outcome) := by
  cases outcome with
  | done v =>
    rw [conclude_done]
    exact noted (.refl _) rfl nofun
  | failed => exact noted (.refl _) rfl nofun
  | broken => exact noted (.refl _) rfl nofun

theorem advance (t : Traffic) (i now : Nat) : Onward t (t.advance i now) := by
  unfold Traffic.advance
  split
  · exact refl t
  · exact refl t
  · unfold enter
    split
    · exact refl t
    · split
      · exact noted (.refl _) rfl nofun
      · exact noted (.refl _) rfl nofun
      · exact same (.refl _) rfl
  · exact same (.refl _) rfl
  · exact leave ..
  · exact same (.refl _) rfl
  · exact noted (.refl _) rfl nofun
  · exact same (.refl _) rfl
  · exact conclude ..
  · unfold finish
    split
    · exact refl t
    · next commit _ _ => cases commit <;> exact noted (.refl _) rfl nofun
  · next k hs =>
    refine ⟨.add _ k now, fun e he handle hi => ?_⟩
    rcases List.mem_append.mp he with hm | hm
    · exact .inl hm
    · rw [List.mem_singleton.mp hm] at hi
      cases hi
      exact .inr ⟨t.registry.next, Nat.lt_succ_self _, rfl⟩
  · exact same (.refl _) rfl
  · split
    · exact refl t
    · exact same (.refl _) rfl

theorem step (t : Traffic) (m : Move) : Onward t (t.step m) := by
  cases m with
  | arrive clock call => exact arrive t clock call
  | advance i now => exact advance t i now
  | sweep now maxIdle => exact same (.keep _ _) rfl
  | close => exact same (.keep _ _) rfl

end Onward

/-- Every handle that was answered is one that was issued. -/
theorem issued_run (t : Traffic)
    (h : ∀ e ∈ t.history, ∀ handle, e.Issues handle → ∃ n < t.registry.next, handle = Transactions.handle n)
    (moves : List Move) : ∀ e ∈ (t.run moves).history, ∀ handle, e.Issues handle →
      ∃ n < (t.run moves).registry.next, handle = Transactions.handle n := by
  induction moves generalizing t with
  | nil => exact h
  | cons m moves ih =>
    refine ih (t.step m) fun e he handle hi => ?_
    rcases (Onward.step t m).issued e he handle hi with hm | hn
    · obtain ⟨n, hlt, hh⟩ := h e hm handle hi
      exact ⟨n, Nat.lt_of_lt_of_le hlt (Onward.step t m).registry.next_le, hh⟩
    · exact hn

theorem precedes_run (t : Traffic) (moves : List Move) : t.registry.Precedes (t.run moves).registry := by
  induction moves generalizing t with
  | nil => exact .refl _
  | cons m moves ih => exact (Onward.step t m).registry.trans (ih (t.step m))

/-- The handle was answered, and its transaction has been taken out. -/
def Gone (t : Traffic) (handle : String) : Prop :=
  (∃ n < t.registry.next, handle = Transactions.handle n) ∧ t.registry.find? handle = none

theorem Gone.of_precedes {t t' : Traffic} (h : t.Gone handle) (hr : t.registry.Precedes t'.registry) : t'.Gone handle := by
  obtain ⟨⟨n, hn, rfl⟩, hf⟩ := h
  exact ⟨⟨n, Nat.lt_of_lt_of_le hn hr.next_le, rfl⟩, hr.find?_none hn hf⟩

theorem Gone.run {t : Traffic} (h : t.Gone handle) (moves : List Move) : (t.run moves).Gone handle :=
  h.of_precedes (precedes_run t moves)

theorem issued_of_known {t : Traffic} (h : t.registry.find? handle ≠ none) :
    ∃ n < t.registry.next, handle = Transactions.handle n := by
  obtain ⟨e, he⟩ := Option.ne_none_iff_exists'.mp h
  obtain ⟨hm, rfl⟩ := Transactions.Registry.find?_some he
  exact ⟨e.number, t.registry.number_lt e hm, rfl⟩

theorem arrive_unknown (t : Traffic) (clock : Clock) {call : Call} (hc : call.handle? = some handle)
    (hf : t.registry.find? handle = none) : t.arrive clock call = t.note (.answered call (unknown handle)) := by
  cases call with
  | commit h =>
    cases hc
    simp only [arrive, take, Transactions.Registry.take?, hf, Option.map_none]
  | rollback h =>
    cases hc
    simp only [arrive, take, Transactions.Registry.take?, hf, Option.map_none]
  | act a h =>
    cases hc
    simp only [arrive, Transactions.Registry.use?, hf, Option.map_none]
  | _ => cases hc

def ending (commit : Bool) (handle : String) : Call :=
  if commit then .commit handle else .rollback handle

theorem handle?_ending (commit : Bool) (handle : String) : (ending commit handle).handle? = some handle := by
  cases commit <;> rfl

theorem arrive_ending (t : Traffic) (clock : Clock) (commit : Bool) (he : t.registry.find? handle = some e) :
    t.arrive clock (ending commit handle) =
      (t.withRegistry (t.registry.keep (Transactions.handle ·.number != handle))).launch
        (.finishing handle e.transaction commit) := by
  cases commit <;> simp only [ending, if_true, Bool.false_eq_true, if_false, arrive, take, Transactions.Registry.take?,
    he, Option.map_some]

def Stage.Finishes (handle : String) (commit : Bool) : Stage → Prop
  | finishing h _ c => h = handle ∧ c = commit
  | _ => False

/-- The transaction of the handle was taken out to be committed, or to be rolled back: that is to be done yet, or has
been answered. -/
def EndsAs (t : Traffic) (handle : String) (commit : Bool) : Prop :=
  (∃ s ∈ t.requests, s.Finishes handle commit) ∨ ∃ e ∈ t.history, e.Ends handle commit

/-- How a run goes on where no transaction is taken out to be ended on request. -/
structure Keeps (t t' : Traffic) : Prop where
  requests : ∀ s ∈ t'.requests, ∀ handle commit, s.Finishes handle commit → t.EndsAs handle commit
  history : ∀ e ∈ t'.history, ∀ handle commit, e.Ends handle commit → t.EndsAs handle commit

namespace Keeps

variable {t t' : Traffic}

theorem refl (t : Traffic) : Keeps t t :=
  ⟨fun s hs _ _ h => .inl ⟨s, hs, h⟩, fun e he _ _ h => .inr ⟨e, he, h⟩⟩

theorem withDatabase (h : Keeps t t') (d : Database) : Keeps t (t'.withDatabase d) :=
  ⟨h.requests, h.history⟩

theorem withRegistry (h : Keeps t t') (r : Transactions.Registry Nat) : Keeps t (t'.withRegistry r) :=
  ⟨h.requests, h.history⟩

theorem note (h : Keeps t t') {e : Event} (he : ∀ handle commit, e.Ends handle commit → t.EndsAs handle commit) :
    Keeps t (t'.note e) := by
  refine ⟨h.requests, fun e' hm => ?_⟩
  rcases List.mem_append.mp hm with hm | hm
  · exact h.history e' hm
  · rw [List.mem_singleton.mp hm]
    exact he

theorem launch (h : Keeps t t') {stage : Stage} (hs : ∀ handle commit, ¬ stage.Finishes handle commit) :
    Keeps t (t'.launch stage) := by
  refine ⟨fun s hm handle commit hf => ?_, h.history⟩
  rcases List.mem_append.mp hm with hm | hm
  · exact h.requests s hm handle commit hf
  · exact absurd (List.mem_singleton.mp hm ▸ hf) (hs handle commit)

theorem turn (h : Keeps t t') (i : Nat) {stage : Stage} (hs : ∀ handle commit, ¬ stage.Finishes handle commit) :
    Keeps t (t'.turn i stage) := by
  refine ⟨fun s hm handle commit hf => ?_, h.history⟩
  rcases List.mem_or_eq_of_mem_set hm with hm | rfl
  · exact h.requests s hm handle commit hf
  · exact absurd hf (hs handle commit)

theorem endsAs (h : Keeps t t') (he : t'.EndsAs handle commit) : t.EndsAs handle commit := by
  rcases he with ⟨s, hm, hf⟩ | ⟨e, hm, hends⟩
  · exact h.requests s hm handle commit hf
  · exact h.history e hm handle commit hends

theorem arrive (t : Traffic) (clock : Clock) (call : Call) (hc : ∀ commit handle, call ≠ ending commit handle) :
    Keeps t (t.arrive clock call) := by
  cases call with
  | ping => exact (refl t).note fun _ _ h => by cases h
  | health =>
    simp only [Traffic.arrive]
    split
    · exact refl t
    · have hkept : Keeps t { t with gateway := (t.gateway.health clock.timestamp).2 } :=
        ⟨(refl t).requests, (refl t).history⟩
      exact hkept.note fun _ _ h => by cases h
  | begin =>
    simp only [Traffic.arrive]
    split
    · exact ((refl t).withDatabase _).note fun _ _ h => by cases h
    · exact ((refl t).withDatabase _).launch fun _ _ => id
  | commit handle => exact absurd rfl (hc true handle)
  | rollback handle => exact absurd rfl (hc false handle)
  | act a handle =>
    cases handle with
    | some handle =>
      simp only [Traffic.arrive]
      split
      · exact (refl t).note fun _ _ h => by cases h
      · exact ((refl t).withRegistry _).launch fun _ _ => id
    | none =>
      simp only [Traffic.arrive]
      split
      · exact refl t
      · split
        · split
          · exact ((refl t).withDatabase _).note fun _ _ h => by cases h
          · exact ((refl t).withDatabase _).launch fun _ _ => id
        · exact (refl t).launch fun _ _ => id

theorem leave (t : Traffic) (i : Nat) (a : Action) (handle : String) (k before : Nat) (outcome : Outcome Failure Json) :
    Keeps t (t.leave i a handle k before outcome) := by
  have hnoted : Keeps t ((t.turn i .ended).note (.worked a (some handle)
      (Gateway.settle (Gateway.methodOf a) outcome) ((t.noted (Database.connectionOf k)).drop before))) :=
    ((refl t).turn i fun _ _ => id).note nofun
  cases outcome with
  | done => exact hnoted
  | failed => exact hnoted.withDatabase _
  | broken => exact hnoted

theorem conclude (t : Traffic) (i : Nat) (a : Action) (outcome : Outcome Failure Json) :
    Keeps t (t.conclude i a outcome) := by
  cases outcome with
  | done v =>
    rw [conclude_done]
    exact (((refl t).withDatabase _).turn i fun _ _ => id).note nofun
  | failed => exact (((refl t).withDatabase _).turn i fun _ _ => id).note nofun
  | broken => exact (((refl t).withDatabase _).turn i fun _ _ => id).note nofun

theorem finish (t : Traffic) (hs : t.requests[i]? = some (.finishing handle k commit)) :
    Keeps t (t.finish i handle k commit) := by
  unfold Traffic.finish
  split
  · exact refl t
  · have hends (answer : Except Failure Json) (handle' : String) (commit' : Bool)
        (h : (Event.answered (ending commit handle) answer).Ends handle' commit') : t.EndsAs handle' commit' := by
      refine .inl ⟨_, List.mem_of_getElem? hs, ?_⟩
      cases commit <;> cases h <;> exact ⟨rfl, rfl⟩
    exact (((refl t).withDatabase _).turn i fun _ _ => id).note (hends _)

theorem advance (t : Traffic) (i now : Nat) : Keeps t (t.advance i now) := by
  unfold Traffic.advance
  split
  · exact refl t
  · exact refl t
  · unfold enter
    split
    · exact refl t
    · split
      · exact ((refl t).turn i fun _ _ => id).note nofun
      · exact ((refl t).turn i fun _ _ => id).note nofun
      · exact (refl t).turn i fun _ _ => id
  · exact ((refl t).withDatabase _).turn i fun _ _ => id
  · exact leave ..
  · exact ((refl t).withDatabase _).turn i fun _ _ => id
  · exact ((refl t).turn i fun _ _ => id).note nofun
  · exact ((refl t).withDatabase _).turn i fun _ _ => id
  · exact conclude ..
  · next hs => exact finish t hs
  · exact (((refl t).withRegistry _).turn i fun _ _ => id).note nofun
  · exact (refl t).turn i fun _ _ => id
  · split
    · exact refl t
    · exact ((refl t).withDatabase _).turn i fun _ _ => id

theorem step (t : Traffic) (m : Move) (hm : ∀ clock commit handle, m ≠ .arrive clock (ending commit handle)) :
    Keeps t (t.step m) := by
  cases m with
  | arrive clock call => exact arrive t clock call fun commit handle heq => hm clock commit handle (heq ▸ rfl)
  | advance i now => exact advance t i now
  | sweep now maxIdle => exact ((refl t).withRegistry _).launch fun _ _ => id
  | close => exact ((refl t).withRegistry _).launch fun _ _ => id

end Keeps

/-- A transaction is ended on request once such a request has come in and has taken it out. -/
theorem EndsAs.of_step {t : Traffic} {m : Move} (h : (t.step m).EndsAs handle commit) : t.EndsAs handle commit ∨
    (∃ clock, m = .arrive clock (ending commit handle)) ∧ t.registry.find? handle ≠ none ∧ (t.step m).Gone handle := by
  by_cases hm : ∃ clock c x, m = .arrive clock (ending c x)
  · obtain ⟨clock, c, x, rfl⟩ := hm
    change (t.arrive clock (ending c x)).EndsAs handle commit at h
    cases hf : t.registry.find? x with
    | none =>
      rw [arrive_unknown t clock (handle?_ending c x) hf] at h
      refine .inl ((Keeps.note (.refl t) fun handle' commit' hends => ?_).endsAs h)
      cases c <;> cases hends
    | some e =>
      have hstep := arrive_ending t clock c hf
      rw [hstep] at h
      rcases h with ⟨s, hs, hfinishes⟩ | hends
      · rcases List.mem_append.mp hs with hs | hs
        · exact .inl (.inl ⟨s, hs, hfinishes⟩)
        · rw [List.mem_singleton.mp hs] at hfinishes
          obtain ⟨rfl, rfl⟩ := hfinishes
          have hknown : t.registry.find? x ≠ none := hf ▸ Option.some_ne_none e
          refine .inr ⟨⟨clock, rfl⟩, hknown, ?_⟩
          change (t.arrive clock (ending c x)).Gone x
          rw [hstep]
          exact ⟨issued_of_known (t := t) hknown, (t.registry.find?_keep_others _ _).trans (if_pos rfl)⟩
      · exact .inl (.inr hends)
  · exact .inl ((Keeps.step t m fun clock c x heq => hm ⟨clock, c, x, heq⟩).endsAs h)

/-- A transaction that is ended on request is gone, and is ended in one way. -/
def OneWay (t : Traffic) : Prop :=
  ∀ handle commit, t.EndsAs handle commit → t.Gone handle ∧ ¬ t.EndsAs handle (!commit)

theorem OneWay.step {t : Traffic} (h : t.OneWay) (m : Move) : (t.step m).OneWay := by
  intro handle commit hends
  rcases hends.of_step with hbefore | ⟨⟨clock, rfl⟩, hknown, hgone⟩
  · obtain ⟨hgone, hother⟩ := h handle commit hbefore
    refine ⟨hgone.of_precedes (Onward.step t m).registry, fun hends' => ?_⟩
    rcases hends'.of_step with hbefore' | ⟨-, hknown, -⟩
    · exact hother hbefore'
    · exact hknown hgone.2
  · refine ⟨hgone, fun hends' => ?_⟩
    rcases hends'.of_step with hbefore' | ⟨⟨clock', heq⟩, -, -⟩
    · exact hknown (h handle _ hbefore').1.2
    · cases commit <;> cases heq

theorem OneWay.run {t : Traffic} (h : t.OneWay) (moves : List Move) : (t.run moves).OneWay := by
  induction moves generalizing t with
  | nil => exact h
  | cons m moves ih => exact ih (h.step m)

/-- A transaction that was taken out for something else is never ended so. -/
theorem Gone.never_ends {t : Traffic} (h : t.Gone handle) (hnot : ¬ t.EndsAs handle commit) (moves : List Move) :
    ¬ (t.run moves).EndsAs handle commit := by
  induction moves generalizing t with
  | nil => exact hnot
  | cons m moves ih =>
    refine ih (h.of_precedes (Onward.step t m).registry) fun hends => ?_
    rcases hends.of_step with hbefore | ⟨-, hknown, -⟩
    · exact hnot hbefore
    · exact hknown h.2

end QueryGateway.Traffic
