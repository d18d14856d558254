import Mathlib.Data.List.Infix
import QueryGateway.Gateway

namespace QueryGateway
set_option autoImplicit true

namespace Overlap

/-- What is done to the gateway and counted after that. -/
inductive Job where
  | call (clock : Clock) (method : String) (params : Option Json)
  | sweep (now maxIdle : Nat)

inductive Phase where
  | arrived (job : Job)
  | worked
  | counted (n : Nat)
  | ended

/-- A step of the job of number `i`. -/
inductive Event where
  | worked (i : Nat)
  | counted (i n : Nat)
  | gauged (i n : Nat)

inductive Move where
  | arrive (job : Job)
  /-- The next step of the job of number `i`. -/
  | advance (i : Nat)

namespace Job

/-- All that a job does before it counts the open transactions. -/
def work (g : Gateway) : Job → Gateway
  | call clock method params =>
    let (result, g) := g.invoke clock method params
    { g with metrics := g.metrics.observe (Gateway.methodLabel method) (Gateway.outcomeName result) clock.elapsed }
  | sweep now maxIdle => { g with session := (g.session.expire Gateway.finisher now maxIdle).2 }

/-- What a job comes to when nothing happens between its steps. -/
def whole (g : Gateway) : Job → Gateway
  | call clock method params => (g.call clock method params).2
  | sweep now maxIdle => (g.expire now maxIdle).2

theorem whole_eq (g : Gateway) (job : Job) : job.whole g = (job.work g).gauge := by
  cases job <;> rfl

end Job

def Phase.isCounted : Phase → Bool
  | counted _ => true
  | _ => false

def Phase.isEnded : Phase → Bool
  | ended => true
  | _ => false

end Overlap

open Overlap

structure Overlap where
  gateway : Gateway
  /-- By the order of arrival; those that have ended keep their place. -/
  jobs : List Phase
  /-- First to last. -/
  log : List Event

namespace Overlap

def start (g : Gateway) : Overlap :=
  ⟨g, [], []⟩

variable (t : Overlap)

def openCount : Nat :=
  t.gateway.openCount

def gauge : Nat :=
  t.gateway.metrics.openTransactions

def quiet : Bool :=
  t.jobs.all Phase.isEnded

def pending : Nat :=
  t.jobs.countP Phase.isCounted

def arrive (job : Job) : Overlap :=
  { t with jobs := t.jobs ++ [.arrived job] }

def turn (g : Gateway) (i : Nat) (phase : Phase) (e : Event) : Overlap :=
  ⟨g, t.jobs.set i phase, t.log ++ [e]⟩

def setGauge (g : Gateway) (n : Nat) : Gateway :=
  { g with metrics := g.metrics.setOpenTransactions n }

def step (t : Overlap) : Move → Overlap
  | .arrive job => t.arrive job
  | .advance i =>
    match t.jobs[i]? with
    | some (.arrived job) => t.turn (job.work t.gateway) i .worked (.worked i)
    | some .worked => t.turn t.gateway i (.counted t.openCount) (.counted i t.openCount)
    | some (.counted n) => t.turn (setGauge t.gateway n) i .ended (.gauged i n)
    | _ => t

def run (t : Overlap) (moves : List Move) : Overlap :=
  moves.foldl step t

/-- What the job of number `i` can do from a phase: the gateway after it, its new phase, and what is logged. -/
inductive Turn (i : Nat) : Phase → Gateway → Phase → Event → Prop
  | work (job : Job) : Turn i (.arrived job) (job.work t.gateway) .worked (.worked i)
  | count : Turn i .worked t.gateway (.counted t.openCount) (.counted i t.openCount)
  | gauge (n : Nat) : Turn i (.counted n) (setGauge t.gateway n) .ended (.gauged i n)

inductive Step : Overlap → Prop
  | still : Step t
  | arrive (job : Job) : Step (t.arrive job)
  | turn (hi : t.jobs[i]? = some p₀) (h : t.Turn i p₀ g p e) : Step (t.turn g i p e)

theorem step_spec (m : Move) : t.Step (t.step m) := by
  cases m with
  | arrive job => exact .arrive job
  | advance i =>
    rw [step]
    cases hi : t.jobs[i]? with
    | none => exact .still
    | some phase =>
      cases phase with
      | arrived job => exact .turn hi (.work job)
      | worked => exact .turn hi .count
      | counted n => exact .turn hi (.gauge n)
      | ended => exact .still

theorem run_concat (moves : List Move) (m : Move) : t.run (moves ++ [m]) = (t.run moves).step m := by
  rw [run, List.foldl_append]
  rfl

theorem advance_eq (hi : t.jobs[i]? = some p₀) (h : t.Turn i p₀ g p e) : t.step (.advance i) = t.turn g i p e := by
  rw [step, hi]
  cases h <;> rfl

theorem run_alone (h : t.jobs[i]? = some (.arrived job)) :
    (t.run (List.replicate 3 (.advance i))).gateway = job.whole t.gateway := by
  have hi : i < t.jobs.length := (List.getElem?_eq_some_iff.mp h).1
  let worked := t.turn (job.work t.gateway) i .worked (.worked i)
  let counted := worked.turn worked.gateway i (.counted worked.openCount) (.counted i worked.openCount)
  have hworked : worked.jobs[i]? = some .worked := List.getElem?_set_self hi
  have hcounted : counted.jobs[i]? = some (.counted worked.openCount) :=
    List.getElem?_set_self (List.length_set.symm ▸ hi)
  change (((t.step (.advance i)).step (.advance i)).step (.advance i)).gateway = _
  rw [advance_eq t h (.work job), advance_eq worked hworked .count, advance_eq counted hcounted (.gauge _),
    Job.whole_eq]
  rfl

def Before (a b : Event) : Prop :=
  [a, b].Sublist t.log

variable {t}

theorem before_turn : (t.turn g i p e).Before a b ↔ t.Before a b ∨ a ∈ t.log ∧ b = e := by
  change [a, b].Sublist (t.log ++ [e]) ↔ _
  constructor
  · intro h
    obtain ⟨l, l', heq, hl, hl'⟩ := List.sublist_append_iff.mp h
    obtain rfl | rfl := List.sublist_singleton.mp hl'
    · rw [List.append_nil] at heq
      rw [← heq] at hl
      exact .inl hl
    · have heq' : [a] ++ [b] = l ++ [e] := heq
      obtain ⟨rfl, hb⟩ := List.append_inj' heq' rfl
      exact .inr ⟨List.singleton_sublist.mp hl, List.singleton_inj.mp hb⟩
  · rintro (h | ⟨ha, rfl⟩)
    · exact h.trans (List.sublist_append_left _ _)
    · exact (List.singleton_sublist.mpr ha).append (.refl [b])

theorem Before.mem_left (h : t.Before a b) : a ∈ t.log :=
  h.subset List.mem_cons_self

theorem getElem?_turn (h : (t.turn g i p e).jobs[j]? = some q) : j = i ∧ q = p ∨ j ≠ i ∧ t.jobs[j]? = some q := by
  by_cases hj : j = i
  · subst hj
    have hq := List.getElem?_set_self (List.length_set ▸ (List.getElem?_eq_some_iff.mp h).1) (a := p)
    exact .inl ⟨rfl, (Option.some.inj (hq.symm.trans h)).symm⟩
  · exact .inr ⟨hj, (List.getElem?_set_ne (Ne.symm hj)).symm.trans h⟩

theorem getElem?_arrive {j : Nat} (h : (t.arrive job).jobs[j]? = some q) :
    t.jobs[j]? = some q ∨ q = .arrived job := by
  obtain hj | hj := Nat.lt_or_ge j t.jobs.length
  · exact .inl ((List.getElem?_append_left hj).symm.trans h)
  · have hq := List.mem_of_getElem? ((List.getElem?_append_right hj).symm.trans h)
    exact .inr (List.mem_singleton.mp hq)

theorem getElem?_arrive_of_some {j : Nat} (job : Job) (h : t.jobs[j]? = some q) :
    (t.arrive job).jobs[j]? = some q :=
  (List.getElem?_append_left (List.getElem?_eq_some_iff.mp h).1).trans h

theorem ended_of_quiet (hquiet : t.quiet = true) (hp : p ∈ t.jobs) : p = .ended := by
  have hp' := List.all_eq_true.mp hquiet p hp
  cases p with
  | ended => rfl
  | arrived job => exact nomatch hp'
  | worked => exact nomatch hp'
  | counted n => exact nomatch hp'

/-- What an event leaves until the next one. -/
def Stands (t : Overlap) : Event → Prop
  | .worked i => t.jobs[i]? = some .worked
  | .counted i n => t.jobs[i]? = some (.counted n)
  | .gauged i n => t.gauge = n ∧ .counted i n ∈ t.log

theorem Stands.arrive (h : t.Stands e) (job : Job) : (t.arrive job).Stands e := by
  cases e with
  | worked i => exact getElem?_arrive_of_some job h
  | counted i n => exact getElem?_arrive_of_some job h
  | gauged i n => exact h

/-- A job counts once, and sets the gauge after that. -/
def HasCounted (t : Overlap) (i : Nat) : Prop :=
  (∃ n, t.jobs[i]? = some (.counted n)) ∨ t.jobs[i]? = some .ended

structure Sound (t : Overlap) : Prop where
  last : t.log.getLast? = some e → t.Stands e
  counted : t.jobs[i]? = some (.counted n) → .counted i n ∈ t.log
  once : .counted i n ∈ t.log → t.HasCounted i
  /-- What is counted stays right until more work is done. -/
  right : .counted i n ∈ t.log → (∀ k, ¬ t.Before (.counted i n) (.worked k)) → t.openCount = n
  /-- Whoever works counts after that. -/
  follows : t.Before e (.worked k) → t.jobs[k]? = some .worked ∨ ∃ n, t.Before e (.counted k n)
  begun : t.log = [] → .ended ∉ t.jobs

theorem sound_start (g : Gateway) : (start g).Sound where
  last h := nomatch h
  counted h := nomatch h
  once h := nomatch h
  right h := nomatch h
  follows h := nomatch h.mem_left
  begun _ := List.not_mem_nil

theorem Turn.stands (hs : t.Sound) (hi : t.jobs[i]? = some p₀) (h : t.Turn i p₀ g p e) : (t.turn g i p e).Stands e := by
  have hlength : i < t.jobs.length := (List.getElem?_eq_some_iff.mp hi).1
  cases h with
  | work job => exact List.getElem?_set_self hlength
  | count => exact List.getElem?_set_self hlength
  | gauge n => exact ⟨rfl, List.mem_append_left _ (hs.counted hi)⟩

theorem Turn.hasCounted (hi : t.jobs[i]? = some p₀) (h : t.Turn i p₀ g p e) (hc : t.HasCounted i) :
    (t.turn g i p e).HasCounted i := by
  have hlength : i < t.jobs.length := (List.getElem?_eq_some_iff.mp hi).1
  rw [HasCounted, hi] at hc
  cases h with
  | work job => simp at hc
  | count => simp at hc
  | gauge n => exact .inr (List.getElem?_set_self hlength)

namespace Sound

theorem arrive (h : t.Sound) (job : Job) : (t.arrive job).Sound where
  last hlast := (h.last hlast).arrive job
  counted hi := by
    obtain hi | hi := getElem?_arrive hi
    · exact h.counted hi
    · exact nomatch hi
  once hmem := by
    obtain ⟨n, hn⟩ | hended := h.once hmem
    · exact .inl ⟨n, getElem?_arrive_of_some job hn⟩
    · exact .inr (getElem?_arrive_of_some job hended)
  right := h.right
  follows hk := (h.follows hk).imp_left (getElem?_arrive_of_some job)
  begun hlog hmem := by
    obtain hmem | hmem := List.mem_append.mp hmem
    · exact h.begun hlog hmem
    · exact nomatch List.mem_singleton.mp hmem

theorem turn (h : t.Sound) (hi : t.jobs[i]? = some p₀) (hturn : t.Turn i p₀ g p e) : (t.turn g i p e).Sound where
  last hlast := by
    have he := (List.getLast?_concat ..).symm.trans hlast
    exact Option.some.inj he ▸ hturn.stands h hi
  counted hj := by
    obtain ⟨rfl, rfl⟩ | ⟨-, hj⟩ := getElem?_turn hj
    · cases hturn
      exact List.mem_concat_self
    · exact List.mem_append_left _ (h.counted hj)
  once {j n} hmem := by
    obtain hold | hnew := List.mem_append.mp hmem
    · by_cases hj : j = i
      · subst hj
        exact hturn.hasCounted hi (h.once hold)
      · have hkeep : (t.turn g i p e).jobs[j]? = t.jobs[j]? := List.getElem?_set_ne (Ne.symm hj)
        rw [HasCounted, hkeep]
        exact h.once hold
    · have hstands := hturn.stands h hi
      rw [← List.mem_singleton.mp hnew] at hstands
      exact .inl ⟨n, hstands⟩
  right {j n} hmem hno := by
    have hno' : ∀ k, ¬ t.Before (.counted j n) (.worked k) := fun k hk => hno k (before_turn.mpr (.inl hk))
    obtain hold | hnew := List.mem_append.mp hmem
    · cases hturn with
      | work job => exact absurd (before_turn.mpr (.inr ⟨hold, rfl⟩)) (hno i)
      | count => exact h.right hold hno'
      | gauge m => exact h.right hold hno'
    · rw [List.mem_singleton] at hnew
      cases hturn with
      | work job => exact nomatch hnew
      | count =>
        cases hnew
        rfl
      | gauge m => exact nomatch hnew
  follows {e' k} hbefore := by
    obtain hold | ⟨-, rfl⟩ := before_turn.mp hbefore
    · obtain hk | ⟨n, hn⟩ := h.follows hold
      · by_cases hki : k = i
        · subst hki
          cases Option.some.inj (hi.symm.trans hk)
          cases hturn
          exact .inr ⟨_, before_turn.mpr (.inr ⟨hold.mem_left, rfl⟩)⟩
        · exact .inl ((List.getElem?_set_ne (Ne.symm hki)).trans hk)
      · exact .inr ⟨n, before_turn.mpr (.inl hn)⟩
    · exact .inl (hturn.stands h hi)
  begun hlog := absurd hlog (List.concat_ne_nil _ _)

theorem step (h : t.Sound) (hs : t.Step t') : t'.Sound := by
  cases hs with
  | still => exact h
  | arrive job => exact h.arrive job
  | turn hi hturn => exact h.turn hi hturn

theorem run (h : t.Sound) (moves : List Move) : (t.run moves).Sound := by
  induction moves generalizing t with
  | nil => exact h
  | cons m moves ih => exact ih (h.step (t.step_spec m))

/-- When nothing is in progress any more, the last thing that has happened is that the gauge was set. -/
theorem of_quiet (h : t.Sound) (hquiet : t.quiet = true) (hsome : t.jobs ≠ []) :
    ∃ i, t.log.getLast? = some (.gauged i t.gauge) ∧ .counted i t.gauge ∈ t.log := by
  obtain ⟨p, hp⟩ := List.exists_mem_of_ne_nil _ hsome
  have hended := ended_of_quiet hquiet hp
  cases hlast : t.log.getLast? with
  | none => exact absurd (hended ▸ hp) (h.begun (List.getLast?_eq_none_iff.mp hlast))
  | some e =>
    have hstands := h.last hlast
    cases e with
    | worked i => exact nomatch ended_of_quiet hquiet (List.mem_of_getElem? hstands)
    | counted i n => exact nomatch ended_of_quiet hquiet (List.mem_of_getElem? hstands)
    | gauged i n =>
      obtain ⟨rfl, hcounted⟩ := hstands
      exact ⟨i, rfl, hcounted⟩

end Sound

theorem self_mem_inits (moves : List Move) : moves ∈ moves.inits :=
  (List.mem_inits ..).mpr (List.prefix_refl moves)

theorem mem_inits_concat (m : Move) (h : before ∈ moves.inits) : before ∈ (moves ++ [m]).inits :=
  (List.mem_inits ..).mpr (((List.mem_inits ..).mp h).trans (List.prefix_append moves [m]))

/-- What a job has counted is how many transactions were open at that moment. -/
theorem count_of_mem (h : .counted i n ∈ ((start g).run moves).log) :
    ∃ before ∈ moves.inits, ((start g).run before).jobs[i]? = some .worked ∧
      ((start g).run before).openCount = n := by
  induction moves using List.reverseRecOn with
  | nil => exact nomatch h
  | append_singleton moves m ih =>
    have hold : .counted i n ∈ ((start g).run moves).log → _ := fun hmem =>
      (ih hmem).imp fun before hb => hb.imp_left (mem_inits_concat m)
    have hs := step_spec ((start g).run moves) m
    rw [run_concat] at h
    generalize ((start g).run moves).step m = t' at h hs
    cases hs with
    | still => exact hold h
    | arrive job => exact hold h
    | turn hi hturn =>
      obtain hmem | hnew := List.mem_append.mp h
      · exact hold hmem
      · rw [List.mem_singleton] at hnew
        cases hturn with
        | work job => exact nomatch hnew
        | count =>
          cases hnew
          exact ⟨moves, mem_inits_concat m (self_mem_inits moves), hi, rfl⟩
        | gauge m => exact nomatch hnew

/-- No job counts between another one's count and its setting of the gauge. -/
def InTurn (g : Gateway) (moves : List Move) : Prop :=
  ∀ before ∈ moves.inits, ((start g).run before).pending ≤ 1

theorem pending_counted (hi : t.jobs[i]? = some .worked) :
    (t.turn g i (.counted n) e).pending = t.pending + 1 := by
  obtain ⟨hlength, hphase⟩ := List.getElem?_eq_some_iff.mp hi
  rw [pending, turn, List.countP_set hlength, hphase]
  rfl

/-- Nobody has counted since. -/
def Newest (t : Overlap) (i n : Nat) : Prop :=
  ∀ j m, ¬ t.Before (.counted i n) (.counted j m)

theorem Newest.turn (h : t.Newest i n) (he : ∀ j m, e ≠ .counted j m) : (t.turn g k p e).Newest i n := by
  intro j m hbefore
  obtain hold | ⟨-, heq⟩ := before_turn.mp hbefore
  · exact h j m hold
  · exact he j m heq.symm

structure Serial (t : Overlap) : Prop where
  counted : t.jobs[i]? = some (.counted n) → t.Newest i n
  gauged : t.log.getLast? = some (.gauged i n) → t.Newest i n

namespace Serial

theorem arrive (h : t.Serial) (job : Job) : (t.arrive job).Serial where
  counted hi := by
    obtain hi | hi := getElem?_arrive hi
    · exact h.counted hi
    · exact nomatch hi
  gauged := h.gauged

theorem turn (h : t.Serial) (hsound : t.Sound) (hi : t.jobs[i]? = some p₀) (hturn : t.Turn i p₀ g p e)
    (hpending : (t.turn g i p e).pending ≤ 1) : (t.turn g i p e).Serial where
  counted {j n} hj := by
    obtain ⟨rfl, rfl⟩ | ⟨-, hold⟩ := getElem?_turn hj
    · cases hturn with
      | count =>
        -- A job counts once, so nothing can have come after what it counts now.
        have hnew : .counted j t.openCount ∉ t.log := by
          intro hmem
          have hcounted := hsound.once hmem
          rw [HasCounted, hi] at hcounted
          simp at hcounted
        intro k m hbefore
        obtain hold | ⟨hmem, -⟩ := before_turn.mp hbefore
        · exact hnew hold.mem_left
        · exact hnew hmem
    · cases hturn with
      | work job => exact (h.counted hold).turn fun _ _ he => nomatch he
      | count =>
        -- Another job that has counted would make two of them.
        rw [pending_counted hi] at hpending
        have hnone : t.pending = 0 := Nat.le_zero.mp (Nat.le_of_succ_le_succ hpending)
        exact absurd rfl (List.countP_eq_zero.mp hnone _ (List.mem_of_getElem? hold))
      | gauge m => exact (h.counted hold).turn fun _ _ he => nomatch he
  gauged hlast := by
    have he := Option.some.inj ((List.getLast?_concat ..).symm.trans hlast)
    cases hturn with
    | work job => exact nomatch he
    | count => exact nomatch he
    | gauge m =>
      cases he
      exact (h.counted hi).turn fun _ _ he => nomatch he

theorem step (h : t.Serial) (hsound : t.Sound) (hs : t.Step t') (hpending : t'.pending ≤ 1) : t'.Serial := by
  cases hs with
  | still => exact h
  | arrive job => exact h.arrive job
  | turn hi hturn => exact h.turn hsound hi hturn hpending

theorem run (h : InTurn g moves) : ((start g).run moves).Serial := by
  induction moves using List.reverseRecOn with
  | nil =>
    constructor
    · exact fun hi => nomatch hi
    · exact fun hlast => nomatch hlast
  | append_singleton moves m ih =>
    have hwhole : ((start g).run (moves ++ [m])).pending ≤ 1 := h _ (self_mem_inits _)
    rw [run_concat] at hwhole ⊢
    exact (ih fun before hb => h before (mem_inits_concat m hb)).step ((sound_start g).run moves) (step_spec _ m) hwhole

end Serial

/-- When nothing is in progress, the gauge tells how many transactions were open at the moment at which the job that
set it last had counted them. That is how many there are if no work was done after that moment, and in particular if
no two jobs count before either has set the gauge. -/
theorem gauge_when_quiet (g : Gateway) (moves : List Move) (hquiet : ((start g).run moves).quiet = true)
    (hsome : ((start g).run moves).jobs ≠ []) :
    let t := (start g).run moves
    ∃ i, t.log.getLast? = some (.gauged i t.gauge) ∧
      (∃ before ∈ moves.inits, ((start g).run before).jobs[i]? = some .worked ∧
        ((start g).run before).openCount = t.gauge) ∧
      ((∀ k, ¬ t.Before (.counted i t.gauge) (.worked k)) → t.gauge = t.openCount) ∧
      (InTurn g moves → t.gauge = t.openCount) := by
  intro t
  have hsound : t.Sound := (sound_start g).run moves
  obtain ⟨i, hlast, hcounted⟩ := hsound.of_quiet hquiet hsome
  refine ⟨i, hlast, count_of_mem hcounted, fun hno => (hsound.right hcounted hno).symm, fun hturn => ?_⟩
  apply (hsound.right hcounted _).symm
  intro k hk
  obtain hworked | ⟨m, hm⟩ := hsound.follows hk
  · exact nomatch ended_of_quiet hquiet (List.mem_of_getElem? hworked)
  · exact (Serial.run hturn).gauged hlast k m hm

def idle : Gateway :=
  .new (.ofTables none "main" []) ⟨.builtIn, false, 100⟩ none

def beginning : Job :=
  .call ⟨0, "now", 0⟩ Rpc.Method.beginTransaction.name none

theorem gauge_in_turn :
    let t := (start idle).run [.arrive beginning, .arrive (.sweep 0 0), .advance 0, .arrive beginning, .advance 2,
      .advance 1, .advance 0, .advance 0, .advance 2, .advance 2, .advance 1, .advance 1]
    t.quiet = true ∧ t.jobs.length = 3 ∧ t.openCount = 2 ∧ t.gauge = t.openCount := by
  intro t
  have hquiet : t.quiet = true := by decide +kernel
  have hlength : t.jobs.length = 3 := by decide +kernel
  obtain ⟨i, -, -, -, hturn⟩ := gauge_when_quiet idle _ hquiet (List.ne_nil_of_length_pos (hlength ▸ Nat.succ_pos _))
  exact ⟨hquiet, hlength, by decide +kernel, hturn (by unfold InTurn; decide +kernel)⟩

/-- Two transactions are begun; the first call counts one and the second counts two, but the first sets the gauge after
the second has, and nothing is in progress any more. -/
theorem gauge_crossed :
    let t := (start idle).run [.arrive beginning, .arrive beginning, .advance 0, .advance 0, .advance 1, .advance 1,
      .advance 1, .advance 0]
    t.quiet = true ∧ t.jobs.length = 2 ∧ t.openCount = 2 ∧ t.gauge = 1 := by
  decide +kernel

end Overlap

end QueryGateway
