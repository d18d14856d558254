import QueryGateway.Proofs.Store.Connections

namespace QueryGateway.Store
set_option autoImplicit true

/-- Where a unit of work is done. -/
inductive Place where
  /-- On the shared connection, each statement for itself. -/
  | shared
  /-- On the shared connection, as a whole or not at all. -/
  | atomic
  | inside (k : Nat)

inductive Use (ε α : Type) where
  | work (place : Place) (w : Work ε α)
  | begin
  | commit (k : Nat)
  | rollback (k : Nat)

inductive Reply (ε α : Type) where
  | ended (outcome : Outcome ε α)
  | begun (k : Except Fault Nat)
  | finished (result : Except Fault Unit)

/-- Asks for the end of the transaction. -/
def Use.Closes (k : Nat) (u : Use ε α) : Prop :=
  u = .commit k ∨ u = .rollback k

/-- A unit of work in the transaction that ended with a failure. -/
def FailsIn (k : Nat) (x : Use ε α × Reply ε α) : Prop :=
  ∃ w e, x = (.work (.inside k) w, .ended (.failed e))

/-- The command that ends a transaction, if this is one on its connection. -/
def ending? (k : Nat) : Nat × Event → Option Command
  | (c, .command .commit) => if c = Database.connectionOf k then some .commit else none
  | (c, .command .rollback) => if c = Database.connectionOf k then some .rollback else none
  | _ => none

namespace Database

def workAt (d : Database) (ofFault : Fault → ε) (w : Work ε α) : Place → Outcome ε α × Database
  | .shared => d.run w
  | .atomic => d.runAtomic ofFault w
  | .inside k => d.runIn k ofFault w

def serve (ofFault : Fault → ε) (d : Database) : Use ε α → Reply ε α × Database
  | .work place w => (.ended (d.workAt ofFault w place).1, (d.workAt ofFault w place).2)
  | .begin => (.begun d.begin.1, d.begin.2)
  | .commit k => (.finished (d.commit k).1, (d.commit k).2)
  | .rollback k => (.finished (d.rollback k).1, (d.rollback k).2)

def after (ofFault : Fault → ε) (d : Database) (us : List (Use ε α)) : Database :=
  us.foldl (fun d u => (d.serve ofFault u).2) d

def transcript (ofFault : Fault → ε) : Database → List (Use ε α) → List (Use ε α × Reply ε α)
  | _, [] => []
  | d, u :: us => (u, (d.serve ofFault u).1) :: transcript ofFault (d.serve ofFault u).2 us

/-- How a unit of work ends that is done as a whole. -/
inductive Whole {ε α : Type} (ofFault : Fault → ε) (d : Database) (w : Work ε α) : Outcome ε α → Database → Prop where
  | refused {d₁ : Database} (hb : d.command shared .begin = (.error f, d₁)) :
      Whole ofFault d w (.failed (ofFault f)) d₁
  | committed {d₁ d₂ d₃ : Database} (hb : d.command shared .begin = (.ok (), d₁))
      (hw : d₁.work shared w = (.done a, d₂)) (hc : d₂.command shared .commit = (.ok (), d₃)) :
      Whole ofFault d w (.done a) d₃
  | uncommitted {d₁ d₂ d₃ : Database} (hb : d.command shared .begin = (.ok (), d₁))
      (hw : d₁.work shared w = (.done a, d₂)) (hc : d₂.command shared .commit = (.error f, d₃)) :
      Whole ofFault d w (.failed (ofFault f)) d₃
  | undone {d₁ d₂ : Database} (hb : d.command shared .begin = (.ok (), d₁))
      (hw : d₁.work shared w = (.failed e, d₂)) : Whole ofFault d w (.failed e) (d₂.command shared .rollback).2
  | left {d₁ d₂ : Database} (hb : d.command shared .begin = (.ok (), d₁)) (hw : d₁.work shared w = (.broken, d₂)) :
      Whole ofFault d w .broken d₂

/-- How a unit of work ends in a transaction. -/
inductive Inside {ε α : Type} (ofFault : Fault → ε) (d : Database) (k : Nat) (w : Work ε α) :
    Outcome ε α → Database → Prop where
  | closed (hp : d.phase k = .closed) : Inside ofFault d k w (.failed (ofFault .closed)) d
  | spoiled (hp : d.phase k = .spoiled) : Inside ofFault d k w (.failed (ofFault .aborted)) d
  | failed {d₁ : Database} (hp : d.phase k = .active) (hw : d.work (connectionOf k) w = (.failed e, d₁)) :
      Inside ofFault d k w (.failed e) (d₁.setPhase k .spoiled)
  | kept {d₁ : Database} (hp : d.phase k = .active) (hw : d.work (connectionOf k) w = (outcome, d₁))
      (ho : ∀ e, outcome ≠ .failed e) : Inside ofFault d k w outcome d₁

section

variable {ofFault : Fault → ε} {d d' d₁ d₂ d₃ : Database} {w : Work ε α} {u : Use ε α} {us : List (Use ε α)}
  {outcome : Outcome ε α}

theorem whole_runAtomic (ofFault : Fault → ε) (d : Database) (w : Work ε α) :
    Whole ofFault d w (d.runAtomic ofFault w).1 (d.runAtomic ofFault w).2 := by
  unfold runAtomic
  split
  · next hb => exact .refused hb
  · next hb =>
    split
    · next hw =>
      split
      · next hc => exact .committed hb hw hc
      · next hc => exact .uncommitted hb hw hc
    · next hw => exact .undone hb hw
    · next hw => exact .left hb hw

/-- What commands and work on the shared connection preserve is preserved by work that is done as a whole. -/
theorem Whole.preserves {P : Database → Prop} (h : Whole ofFault d w outcome d')
    (hcommand : ∀ {d : Database} κ, P d → P (d.command shared κ).2)
    (hwork : ∀ {d : Database}, P d → P (d.work shared w).2) (hd : P d) : P d' := by
  have commanded : ∀ {d₂ d₃ : Database} {κ result}, d₂.command shared κ = (result, d₃) → P d₂ → P d₃ := by
    intro d₂ d₃ κ result hc hp
    have hp' := hcommand κ hp
    rwa [hc] at hp'
  have worked : ∀ {d₂ d₃ : Database} {outcome : Outcome ε α}, d₂.work shared w = (outcome, d₃) → P d₂ → P d₃ := by
    intro d₂ d₃ outcome hw hp
    have hp' := hwork hp
    rwa [hw] at hp'
  cases h with
  | refused hb => exact commanded hb hd
  | committed hb hw hc => exact commanded hc (worked hw (commanded hb hd))
  | uncommitted hb hw hc => exact commanded hc (worked hw (commanded hb hd))
  | undone hb hw => exact hcommand .rollback (worked hw (commanded hb hd))
  | left hb hw => exact worked hw (commanded hb hd)

theorem inside_runIn (ofFault : Fault → ε) (d : Database) (k : Nat) (w : Work ε α) :
    Inside ofFault d k w (d.runIn k ofFault w).1 (d.runIn k ofFault w).2 := by
  unfold runIn
  split
  · next hp => exact .closed hp
  · next hp => exact .spoiled hp
  · next hp =>
    split
    · next hw => exact .failed hp hw
    · next outcome d₁ hno hw => exact .kept hp hw hno

theorem runIn_closed (hp : d.phase k = .closed) (w : Work ε α) :
    d.runIn k ofFault w = (.failed (ofFault .closed), d) := by
  rw [runIn, hp]

theorem runIn_spoiled (hp : d.phase k = .spoiled) (w : Work ε α) :
    d.runIn k ofFault w = (.failed (ofFault .aborted), d) := by
  rw [runIn, hp]

theorem runIn_active (ofFault : Fault → ε) (hp : d.phase k = .active) (w : Work ε α) :
    (d.runIn k ofFault w).1 = (d.work (connectionOf k) w).1 ∧
      (d.runIn k ofFault w).2.engine = (d.work (connectionOf k) w).2.engine ∧
      (d.runIn k ofFault w).2.log = (d.work (connectionOf k) w).2.log := by
  rw [runIn, hp]
  simp only
  split
  · next hw => exact ⟨by rw [hw], by rw [hw]; rfl, by rw [hw]; rfl⟩
  · next hw => exact ⟨by rw [hw], by rw [hw], by rw [hw]⟩

theorem engine_runIn (ofFault : Fault → ε) (d : Database) (k : Nat) (w : Work ε α) :
    (d.runIn k ofFault w).2.engine = d.engine ∨
      (d.runIn k ofFault w).2.engine = (d.work (connectionOf k) w).2.engine := by
  cases hp : d.phase k with
  | closed => exact .inl (by rw [runIn_closed hp])
  | spoiled => exact .inl (by rw [runIn_spoiled hp])
  | active => exact .inr (runIn_active ofFault hp w).2.1

theorem serve_closed (hu : u.Closes k) (hp : d.phase k = .closed) :
    d.serve ofFault u = (.finished (.error .closed), d) := by
  rcases hu with rfl | rfl
  · rw [serve, commit_closed hp]
  · rw [serve, rollback_closed hp]

theorem serve_closing (ofFault : Fault → ε) (hu : u.Closes k) (hp : d.phase k ≠ .closed) :
    ∃ κ, (d.serve ofFault u).2 = ((d.setPhase k .closed).command (connectionOf k) κ).2 ∧
      (κ = .commit ∧ u = .commit k ∧ d.phase k = .active ∨
        κ = .rollback ∧ (u = .rollback k ∨ d.phase k = .spoiled)) := by
  rcases hu with rfl | rfl
  · cases hphase : d.phase k with
    | closed => exact absurd hphase hp
    | active =>
      refine ⟨.commit, ?_, .inl ⟨rfl, rfl, rfl⟩⟩
      rw [serve, commit_active hphase]
    | spoiled =>
      refine ⟨.rollback, ?_, .inr ⟨rfl, .inr rfl⟩⟩
      simp only [serve, commit, hphase]
      split
      · next heq => rw [heq]
      · next heq => rw [heq]
  · refine ⟨.rollback, ?_, .inr ⟨rfl, .inl rfl⟩⟩
    cases hphase : d.phase k with
    | closed => exact absurd hphase hp
    | active => simp only [serve, rollback, hphase]
    | spoiled => simp only [serve, rollback, hphase]

theorem serve_closes (ofFault : Fault → ε) (d : Database) (hu : u.Closes k) : (d.serve ofFault u).2 = d ∨
    ∃ κ, (d.serve ofFault u).2 = ((d.setPhase k .closed).command (connectionOf k) κ).2 := by
  by_cases hp : d.phase k = .closed
  · exact .inl (congrArg Prod.snd (serve_closed hu hp))
  · obtain ⟨κ, hd, -⟩ := serve_closing ofFault hu hp
    exact .inr ⟨κ, hd⟩

@[simp] theorem phases_work (d : Database) (c : Nat) (w : Work ε α) : (d.work c w).2.phases = d.phases := by
  induction w generalizing d with
  | finish outcome => rfl
  | perform op next ih => exact ih (d.perform c op).1 (d.perform c op).2

theorem phases_of_work (h : d.work c w = (outcome, d')) : d'.phases = d.phases :=
  (congrArg (·.2.phases) h).symm.trans (phases_work d c w)

theorem phases_of_command (h : d.command c κ = (result, d')) : d'.phases = d.phases :=
  (congrArg (·.2.phases) h).symm

theorem Whole.phases (h : Whole ofFault d w outcome d') : d'.phases = d.phases :=
  h.preserves (P := (·.phases = d.phases)) (fun _ hp => hp) (fun hp => (phases_work _ _ _).trans hp) rfl

theorem phase_congr (h : d'.phases = d.phases) (k : Nat) : d'.phase k = d.phase k := by
  rw [phase, h, phase]

theorem phase_setPhase (hk : k < d.phases.length) (j : Nat) (p : Phase) :
    (d.setPhase j p).phase k = if j = k then p else d.phase k := by
  simp only [phase, setPhase, List.getElem?_set]
  split
  · next heq => rw [if_pos (heq ▸ hk), Option.getD_some]
  · rfl

theorem phases_serve (ofFault : Fault → ε) (d : Database) (u : Use ε α) :
    (d.serve ofFault u).2.phases = d.phases ∨
    u = .begin ∧ (d.serve ofFault u).2.phases = d.phases ++ [.active] ∨
    (∃ k, u.Closes k ∧ (d.serve ofFault u).2.phases = d.phases.set k .closed) ∨
    ∃ k, FailsIn k (u, (d.serve ofFault u).1) ∧ d.phase k = .active ∧
      (d.serve ofFault u).2.phases = d.phases.set k .spoiled := by
  cases u with
  | begin => exact .inr (.inl ⟨rfl, d.begin_ok.2.1⟩)
  | commit k =>
    rcases serve_closes ofFault d (u := .commit k) (.inl rfl) with h | ⟨κ, h⟩
    · exact .inl (by rw [h])
    · exact .inr (.inr (.inl ⟨k, .inl rfl, congrArg (·.phases) h⟩))
  | rollback k =>
    rcases serve_closes ofFault d (u := .rollback k) (.inr rfl) with h | ⟨κ, h⟩
    · exact .inl (by rw [h])
    · exact .inr (.inr (.inl ⟨k, .inr rfl, congrArg (·.phases) h⟩))
  | work place w =>
    cases place with
    | shared => exact .inl (phases_work d shared w)
    | atomic => exact .inl (whole_runAtomic ofFault d w).phases
    | inside k =>
      have hin := inside_runIn ofFault d k w
      simp only [serve, workAt]
      generalize (d.runIn k ofFault w).1 = outcome at hin
      generalize (d.runIn k ofFault w).2 = d' at hin
      cases hin with
      | closed hp => exact .inl rfl
      | spoiled hp => exact .inl rfl
      | failed hp hw =>
        refine .inr (.inr (.inr ⟨k, ⟨w, _, rfl⟩, hp, ?_⟩))
        exact congrArg (·.set k .spoiled) (phases_of_work hw)
      | kept hp hw ho => exact .inl (phases_of_work hw)

theorem length_phases_serve (ofFault : Fault → ε) (d : Database) (u : Use ε α) :
    d.phases.length ≤ (d.serve ofFault u).2.phases.length := by
  rcases phases_serve ofFault d u with h | ⟨-, h⟩ | ⟨k, -, h⟩ | ⟨k, -, -, h⟩
  · exact Nat.le_of_eq (by rw [h])
  · rw [h, List.length_append]
    exact Nat.le_add_right _ _
  · exact Nat.le_of_eq (by rw [h, List.length_set])
  · exact Nat.le_of_eq (by rw [h, List.length_set])

/-- A transaction stays as it is by a use, or is finished by it, or is spoiled. -/
theorem phase_serve (ofFault : Fault → ε) (hk : k < d.phases.length) (u : Use ε α) :
    (d.serve ofFault u).2.phase k = d.phase k ∨
    u.Closes k ∧ (d.serve ofFault u).2.phase k = .closed ∨
    FailsIn k (u, (d.serve ofFault u).1) ∧ d.phase k = .active ∧ (d.serve ofFault u).2.phase k = .spoiled := by
  rcases phases_serve ofFault d u with h | ⟨-, h⟩ | ⟨j, hu, h⟩ | ⟨j, hf, hp, h⟩
  · exact .inl (phase_congr h k)
  · exact .inl (by rw [phase, h, List.getElem?_append_left hk, phase])
  · have hset : (d.serve ofFault u).2.phase k = if j = k then .closed else d.phase k :=
      (phase_congr h k).trans (phase_setPhase hk j .closed)
    by_cases hj : j = k
    · subst hj
      exact .inr (.inl ⟨hu, hset.trans (if_pos rfl)⟩)
    · exact .inl (hset.trans (if_neg hj))
  · have hset : (d.serve ofFault u).2.phase k = if j = k then .spoiled else d.phase k :=
      (phase_congr h k).trans (phase_setPhase hk j .spoiled)
    by_cases hj : j = k
    · subst hj
      exact .inr (.inr ⟨hf, hp, hset.trans (if_pos rfl)⟩)
    · exact .inl (hset.trans (if_neg hj))

theorem closed_serve_iff (hk : k < d.phases.length) :
    (d.serve ofFault u).2.phase k = .closed ↔ d.phase k = .closed ∨ u.Closes k := by
  constructor
  · intro h
    rcases phase_serve ofFault hk u with hsame | ⟨hu, -⟩ | ⟨-, -, hspoiled⟩
    · exact .inl (hsame.symm.trans h)
    · exact .inr hu
    · exact nomatch hspoiled.symm.trans h
  · intro h
    by_cases hu : u.Closes k
    · by_cases hp : d.phase k = .closed
      · rw [serve_closed hu hp]
        exact hp
      · obtain ⟨κ, hd, -⟩ := serve_closing ofFault hu hp
        rw [hd, phase_congr (phases_of_command (Prod.eta _).symm), phase_setPhase hk, if_pos rfl]
    · have hp := h.resolve_right hu
      rcases phase_serve ofFault hk u with hsame | ⟨-, hclosed⟩ | ⟨-, hactive, -⟩
      · exact hsame.trans hp
      · exact hclosed
      · exact nomatch hactive.symm.trans hp

theorem active_serve_iff (hk : k < d.phases.length) :
    (d.serve ofFault u).2.phase k = .active ↔
      d.phase k = .active ∧ ¬ u.Closes k ∧ ¬ FailsIn k (u, (d.serve ofFault u).1) := by
  constructor
  · intro h
    have hopen : ¬ u.Closes k := fun hu => nomatch ((closed_serve_iff hk).mpr (.inr hu)).symm.trans h
    rcases phase_serve ofFault hk u with hsame | ⟨hu, -⟩ | ⟨-, -, hspoiled⟩
    · have hp := hsame.symm.trans h
      refine ⟨hp, hopen, ?_⟩
      rintro ⟨w, e, heq⟩
      obtain ⟨rfl, hreply⟩ := Prod.mk.inj heq
      have hin := inside_runIn ofFault d k w
      rw [show (d.runIn k ofFault w).1 = .failed e from (Reply.ended.inj hreply)] at hin
      generalize hd : (d.runIn k ofFault w).2 = d' at hin
      cases hin with
      | closed hc => exact nomatch hc.symm.trans hp
      | spoiled hc => exact nomatch hc.symm.trans hp
      | kept _ _ ho => exact ho e rfl
      | @failed _ d₁ _ hw =>
        have hspoiled : (d.runIn k ofFault w).2.phase k = .spoiled := by
          rw [hd, phase_setPhase ((phases_of_work hw).symm ▸ hk), if_pos rfl]
        exact nomatch hspoiled.symm.trans h
    · exact absurd hu hopen
    · exact nomatch hspoiled.symm.trans h
  · rintro ⟨hp, hopen, hkept⟩
    rcases phase_serve ofFault hk u with hsame | ⟨hu, -⟩ | ⟨hf, -, -⟩
    · exact hsame.trans hp
    · exact absurd hu hopen
    · exact absurd hf hkept

theorem closed_after_iff (hk : k < d.phases.length) :
    (d.after ofFault us).phase k = .closed ↔ d.phase k = .closed ∨ ∃ u ∈ us, u.Closes k := by
  induction us generalizing d with
  | nil => exact ⟨.inl, fun h => h.resolve_right nofun⟩
  | cons u us ih =>
    change ((d.serve ofFault u).2.after ofFault us).phase k = .closed ↔ _
    rw [ih (Nat.lt_of_lt_of_le hk (length_phases_serve ofFault d u)), closed_serve_iff hk, or_assoc]
    simp only [List.mem_cons, exists_eq_or_imp]

theorem active_after_iff (hk : k < d.phases.length) :
    (d.after ofFault us).phase k = .active ↔
      d.phase k = .active ∧ (∀ u ∈ us, ¬ u.Closes k) ∧ ∀ x ∈ d.transcript ofFault us, ¬ FailsIn k x := by
  induction us generalizing d with
  | nil => exact ⟨fun h => ⟨h, nofun, nofun⟩, fun h => h.1⟩
  | cons u us ih =>
    change ((d.serve ofFault u).2.after ofFault us).phase k = .active ↔ _
    rw [ih (Nat.lt_of_lt_of_le hk (length_phases_serve ofFault d u)), active_serve_iff hk, transcript,
      List.forall_mem_cons, List.forall_mem_cons]
    constructor
    · rintro ⟨⟨hp, hu, hf⟩, hus, hfs⟩
      exact ⟨hp, ⟨hu, hus⟩, hf, hfs⟩
    · rintro ⟨hp, ⟨hu, hus⟩, hf, hfs⟩
      exact ⟨⟨hp, hu, hf⟩, hus, hfs⟩

theorem log_command (d : Database) (c : Nat) (κ : Command) : (d.command c κ).2.log = d.log ++ [(c, .command κ)] := rfl

theorem log_of_command (h : d.command c κ = (result, d')) : d'.log = d.log ++ [(c, .command κ)] :=
  (congrArg (·.2.log) h).symm

theorem log_work (d : Database) (c : Nat) (w : Work ε α) :
    ∃ ops : List Operation, (d.work c w).2.log = d.log ++ ops.map fun op => (c, .operation op) := by
  induction w generalizing d with
  | finish outcome => exact ⟨[], (List.append_nil _).symm⟩
  | perform op next ih =>
    obtain ⟨ops, hops⟩ := ih (d.perform c op).1 (d.perform c op).2
    exact ⟨op :: ops, hops.trans (List.append_assoc ..)⟩

theorem endings_operations (k c : Nat) (ops : List Operation) :
    (ops.map fun op => (c, Event.operation op)).filterMap (ending? k) = [] := by
  rw [List.filterMap_map]
  exact List.filterMap_eq_nil_iff.mpr fun _ _ => rfl

theorem endings_shared (k : Nat) {log : List (Nat × Event)} (h : ∀ x ∈ log, x.1 = shared) :
    log.filterMap (ending? k) = [] := by
  refine List.filterMap_eq_nil_iff.mpr fun x hx => ?_
  obtain ⟨c, e⟩ := x
  obtain rfl : c = shared := h _ hx
  have hne : shared ≠ connectionOf k := nofun
  cases e with
  | operation op => rfl
  | command κ =>
    cases κ with
    | begin => rfl
    | commit => rw [ending?, if_neg hne]
    | rollback => rw [ending?, if_neg hne]

theorem Whole.log (h : Whole ofFault d w outcome d') :
    ∃ new, d'.log = d.log ++ new ∧ ∀ x ∈ new, x.1 = shared := by
  have worked : ∀ {d₁ d₂ : Database} {outcome : Outcome ε α}, d.command shared .begin = (.ok (), d₁) →
      d₁.work shared w = (outcome, d₂) → ∃ new, d₂.log = d.log ++ new ∧ ∀ x ∈ new, x.1 = shared := by
    intro d₁ d₂ outcome hb hw
    obtain ⟨ops, hops⟩ := d₁.log_work shared w
    refine ⟨(shared, .command .begin) :: ops.map fun op => (shared, .operation op), ?_, ?_⟩
    · rw [hw] at hops
      rw [hops, log_of_command hb, List.append_assoc, List.singleton_append]
    · simp only [List.forall_mem_cons, List.forall_mem_map, implies_true, and_self]
  have ended : ∀ {d₂ : Database} (κ : Command), (∃ new, d₂.log = d.log ++ new ∧ ∀ x ∈ new, x.1 = shared) →
      ∃ new, (d₂.command shared κ).2.log = d.log ++ new ∧ ∀ x ∈ new, x.1 = shared := by
    rintro d₂ κ ⟨new, hnew, hall⟩
    refine ⟨new ++ [(shared, .command κ)], by rw [log_command, hnew, List.append_assoc], fun x hx => ?_⟩
    rcases List.mem_append.mp hx with hx | hx
    · exact hall x hx
    · rw [List.mem_singleton.mp hx]
  cases h with
  | refused hb => exact ⟨_, log_of_command hb, fun x hx => by rw [List.mem_singleton.mp hx]⟩
  | committed hb hw hc =>
    have := ended .commit (worked hb hw)
    rwa [hc] at this
  | uncommitted hb hw hc =>
    have := ended .commit (worked hb hw)
    rwa [hc] at this
  | undone hb hw => exact ended .rollback (worked hb hw)
  | left hb hw => exact worked hb hw

theorem log_begin (d : Database) : ∃ c, d.begin.2.log = d.log ++ [(c, .command .begin)] := by
  refine ⟨d.engine.connections.length, ?_⟩
  have hb := log_command { d with engine := d.engine.connect.2 } d.engine.connect.1 .begin
  simp only [begin]
  split
  · next h =>
    rw [h] at hb
    exact hb
  · next h =>
    rw [h] at hb
    exact hb

theorem log_serve_open (ofFault : Fault → ε) (d : Database) (h : d.phase k = .closed ∨ ¬ u.Closes k) :
    ∃ new, (d.serve ofFault u).2.log = d.log ++ new ∧ new.filterMap (ending? k) = [] := by
  have nothing : (d.serve ofFault u).2 = d →
      ∃ new, (d.serve ofFault u).2.log = d.log ++ new ∧ new.filterMap (ending? k) = [] := fun heq =>
    ⟨[], by rw [heq, List.append_nil], rfl⟩
  have closing : ∀ j, u.Closes j →
      ∃ new, (d.serve ofFault u).2.log = d.log ++ new ∧ new.filterMap (ending? k) = [] := by
    intro j hu
    by_cases hp : d.phase j = .closed
    · exact nothing (congrArg Prod.snd (serve_closed hu hp))
    · obtain ⟨κ, hd, hκ⟩ := serve_closing ofFault hu hp
      have hne : connectionOf j ≠ connectionOf k := by
        rintro heq
        cases Nat.succ.inj heq
        exact h.elim hp fun hu' => hu' hu
      refine ⟨[(connectionOf j, .command κ)], by rw [hd]; rfl, ?_⟩
      rcases hκ with ⟨rfl, -⟩ | ⟨rfl, -⟩
      · simp only [List.filterMap_cons, ending?, if_neg hne, List.filterMap_nil]
      · simp only [List.filterMap_cons, ending?, if_neg hne, List.filterMap_nil]
  cases hu : u with
  | commit j => exact hu ▸ closing j (.inl hu)
  | rollback j => exact hu ▸ closing j (.inr hu)
  | begin =>
    obtain ⟨c, hc⟩ := d.log_begin
    exact ⟨_, hc, rfl⟩
  | work place w =>
    cases place with
    | shared =>
      obtain ⟨ops, hops⟩ := d.log_work shared w
      exact ⟨_, hops, endings_operations k shared ops⟩
    | atomic =>
      obtain ⟨new, hnew, hall⟩ := (whole_runAtomic ofFault d w).log
      exact ⟨new, hnew, endings_shared k hall⟩
    | inside j =>
      obtain ⟨ops, hops⟩ := d.log_work (connectionOf j) w
      have hin := inside_runIn ofFault d j w
      simp only [serve, workAt]
      generalize (d.runIn j ofFault w).1 = outcome at hin
      generalize (d.runIn j ofFault w).2 = d' at hin
      cases hin with
      | closed hp => exact ⟨[], (List.append_nil _).symm, rfl⟩
      | spoiled hp => exact ⟨[], (List.append_nil _).symm, rfl⟩
      | failed hp hw =>
        rw [hw] at hops
        exact ⟨_, hops, endings_operations k _ ops⟩
      | kept hp hw ho =>
        rw [hw] at hops
        exact ⟨_, hops, endings_operations k _ ops⟩

/-- The first thing asked for that ends the transaction is a commit, and no work in it has failed before. -/
def CommitComes (ofFault : Fault → ε) (k : Nat) (d : Database) (us : List (Use ε α)) : Prop :=
  ∃ before later, us = before ++ .commit k :: later ∧ (∀ u ∈ before, ¬ u.Closes k) ∧
    ∀ x ∈ d.transcript ofFault before, ¬ FailsIn k x

theorem not_commitComes_nil (d : Database) (k : Nat) : ¬ d.CommitComes ofFault k ([] : List (Use ε α)) := by
  rintro ⟨before, later, h, -⟩
  exact List.append_ne_nil_of_right_ne_nil before (List.cons_ne_nil _ _) h.symm

theorem commitComes_closing (hu : u.Closes k) : d.CommitComes ofFault k (u :: us) ↔ u = .commit k := by
  constructor
  · rintro ⟨before, later, h, hopen, -⟩
    cases before with
    | nil => exact (List.cons.inj h).1
    | cons v before =>
      obtain ⟨rfl, -⟩ := List.cons.inj h
      exact absurd hu (hopen u List.mem_cons_self)
  · rintro rfl
    exact ⟨[], us, rfl, nofun, nofun⟩

theorem commitComes_open (hu : ¬ u.Closes k) : d.CommitComes ofFault k (u :: us) ↔
    ¬ FailsIn k (u, (d.serve ofFault u).1) ∧ (d.serve ofFault u).2.CommitComes ofFault k us := by
  constructor
  · rintro ⟨before, later, h, hopen, hkept⟩
    cases before with
    | nil => exact absurd (.inl (List.cons.inj h).1) hu
    | cons v before =>
      obtain ⟨rfl, rfl⟩ := List.cons.inj h
      obtain ⟨hfirst, hkept⟩ := List.forall_mem_cons.mp hkept
      exact ⟨hfirst, before, later, rfl, (List.forall_mem_cons.mp hopen).2, hkept⟩
  · rintro ⟨hfirst, before, later, rfl, hopen, hkept⟩
    exact ⟨u :: before, later, rfl, List.forall_mem_cons.mpr ⟨hu, hopen⟩, List.forall_mem_cons.mpr ⟨hfirst, hkept⟩⟩

/-- In the course of any uses a transaction is ended by one command at most, and by a commit exactly if that is what
comes first. -/
theorem endings_after (ofFault : Fault → ε) (hk : k < d.phases.length) (us : List (Use ε α)) :
    ∃ new last, (d.after ofFault us).log = d.log ++ new ∧ new.filterMap (ending? k) = Option.toList last ∧
      (last = none ↔ d.phase k = .closed ∨ ∀ u ∈ us, ¬ u.Closes k) ∧
      (last = some .commit ↔ d.phase k = .active ∧ d.CommitComes ofFault k us) := by
  induction us generalizing d with
  | nil =>
    exact ⟨[], none, (List.append_nil _).symm, rfl, iff_of_true rfl (.inr nofun),
      iff_of_false nofun fun h => not_commitComes_nil d k h.2⟩
  | cons u us ih =>
    obtain ⟨new', last', hlog', hnew', hnone', hcommit'⟩ :=
      ih (Nat.lt_of_lt_of_le hk (length_phases_serve ofFault d u))
    rw [closed_serve_iff hk] at hnone'
    rw [active_serve_iff hk] at hcommit'
    rw [List.forall_mem_cons]
    by_cases hu : u.Closes k
    · -- Nothing later ends the transaction once more.
      have hlast : last' = none := hnone'.mpr (.inl (.inr hu))
      rw [commitComes_closing hu]
      by_cases hp : d.phase k = .closed
      · -- The transaction was finished before: the use is refused.
        refine ⟨new', none, ?_, hlast ▸ hnew', iff_of_true rfl (.inl hp), iff_of_false nofun fun h => ?_⟩
        · exact hlog'.trans (by rw [serve_closed hu hp])
        · exact nomatch hp.symm.trans h.1
      · obtain ⟨κ, hd, hκ⟩ := serve_closing ofFault hu hp
        refine ⟨(connectionOf k, .command κ) :: new', some κ, ?_, ?_, iff_of_false nofun ?_, ?_⟩
        · exact hlog'.trans (by rw [hd, log_command]; exact List.append_assoc ..)
        · rw [hlast] at hnew'
          rcases hκ with ⟨rfl, -⟩ | ⟨rfl, -⟩
          · simp only [List.filterMap_cons, ending?, if_true, hnew']
            rfl
          · simp only [List.filterMap_cons, ending?, if_true, hnew']
            rfl
        · exact fun h => h.elim hp fun h => h.1 hu
        · rcases hκ with ⟨rfl, hcommit, hactive⟩ | ⟨rfl, hrollback | hspoiled⟩
          · exact iff_of_true rfl ⟨hactive, hcommit⟩
          · exact iff_of_false nofun fun h => nomatch hrollback.symm.trans h.2
          · exact iff_of_false nofun fun h => nomatch hspoiled.symm.trans h.1
    · -- The use leaves the transaction alone: what ends it comes later.
      obtain ⟨new, hlog, hnew⟩ := log_serve_open ofFault (k := k) d (.inr hu)
      refine ⟨new ++ new', last', ?_, ?_, ?_, ?_⟩
      · exact hlog'.trans (by rw [hlog, List.append_assoc])
      · rw [List.filterMap_append, hnew, List.nil_append, hnew']
      · rw [hnone', or_iff_left hu, and_iff_right hu]
      · rw [hcommit', commitComes_open hu, and_iff_right hu, and_assoc]

/-- A transaction, from its beginning on: over its whole life one command at most ends it, a commit exactly if that is
asked for before anything else that ends it and no work in it has failed so far; work in it is done exactly while it has
not been finished and no work in it has failed, and is refused for the one reason or the other; once it is finished,
what is asked of it is refused, and after a failure it is not committed. Work that breaks down counts as no failure. -/
theorem one_shot (ofFault : Fault → ε) (d₀ : Database) (us : List (Use ε α)) :
    let k := d₀.phases.length
    let d := d₀.begin.2
    d₀.begin.1 = .ok k ∧
    (∃ new, (d.after ofFault us).log = d.log ++ new ∧ (new.filterMap (ending? k)).length ≤ 1 ∧
      (new.filterMap (ending? k) = [] ↔ ∀ u ∈ us, ¬ u.Closes k) ∧
      (.commit ∈ new.filterMap (ending? k) ↔ d.CommitComes ofFault k us)) ∧
    ∀ before u later, us = before ++ u :: later →
      let now := d.after ofFault before
      let finished := ∃ v ∈ before, v.Closes k
      let failed := ∃ x ∈ d.transcript ofFault before, FailsIn k x
      (∀ w, u = .work (.inside k) w →
        (finished → now.serve ofFault u = (.ended (.failed (ofFault .closed)), now)) ∧
        (¬ finished → failed → now.serve ofFault u = (.ended (.failed (ofFault .aborted)), now)) ∧
        (¬ finished → ¬ failed →
          (now.serve ofFault u).1 = .ended (now.work (connectionOf k) w).1 ∧
          (now.serve ofFault u).2.engine = (now.work (connectionOf k) w).2.engine ∧
          (now.serve ofFault u).2.log = (now.work (connectionOf k) w).2.log)) ∧
      (u.Closes k → finished → now.serve ofFault u = (.finished (.error .closed), now)) ∧
      (u = .commit k → failed → ∃ f, (now.serve ofFault u).1 = .finished (.error f)) := by
  intro k d
  obtain ⟨hbegun, hphases, -, -⟩ := d₀.begin_ok
  have hk : k < d.phases.length := by
    rw [hphases, List.length_append]
    exact Nat.lt_succ_self k
  have hactive : d.phase k = .active := by
    rw [phase, hphases, List.getElem?_concat_length, Option.getD_some]
  refine ⟨hbegun, ?_, fun before u later _ => ?_⟩
  · obtain ⟨new, last, hlog, hnew, hnone, hcommit⟩ := endings_after ofFault hk us
    refine ⟨new, hlog, ?_, ?_, ?_⟩
    · rw [hnew, Option.length_toList]
      split <;> decide
    · rw [hnew, Option.toList_eq_nil_iff, hnone, or_iff_right (hactive ▸ nofun)]
    · rw [hnew, Option.mem_toList, hcommit, and_iff_right hactive]
  · intro now finished failed
    have hclosed : now.phase k = .closed ↔ finished :=
      (closed_after_iff hk).trans (or_iff_right (hactive ▸ nofun))
    have hopen : now.phase k = .active ↔ ¬ finished ∧ ¬ failed := by
      rw [active_after_iff hk, and_iff_right hactive]
      simp only [finished, failed, not_exists, not_and]
    refine ⟨?_, fun hu hfinished => serve_closed hu (hclosed.mpr hfinished), ?_⟩
    · rintro w rfl
      refine ⟨fun hfinished => ?_, fun hunfinished hfailed => ?_, fun hunfinished hkept => ?_⟩
      · rw [serve, workAt, runIn_closed (hclosed.mpr hfinished)]
      · have hspoiled : now.phase k = .spoiled := by
          cases hp : now.phase k with
          | active => exact absurd hfailed (hopen.mp hp).2
          | closed => exact absurd (hclosed.mp hp) hunfinished
          | spoiled => rfl
        rw [serve, workAt, runIn_spoiled hspoiled]
      · obtain ⟨houtcome, hengine, hlog⟩ :=
          runIn_active ofFault (hopen.mpr ⟨hunfinished, hkept⟩) w
        exact ⟨congrArg Reply.ended houtcome, hengine, hlog⟩
    · rintro rfl hfailed
      cases hp : now.phase k with
      | active => exact absurd hfailed (hopen.mp hp).2
      | closed => exact ⟨.closed, by rw [serve, commit_closed hp]⟩
      | spoiled =>
        obtain ⟨⟨f, hf⟩, -⟩ := commit_spoiled hp
        exact ⟨f, congrArg Reply.finished hf⟩

end

def names : Table :=
  ⟨⟨"main", "t", [⟨"name", .text, false, false⟩]⟩, []⟩

/-- Appends those rows of a batch of one name. -/
def nameRows (name : String) (indices : List Nat) : Work Fault Nat :=
  .insertRows names.info ⟨[("name", [.string name])], 1, by simp⟩ indices

/-- A unit of work that breaks down is not done, and its transaction is committed with what it did. -/
theorem committed_after_breakdown :
    let d := (ofTables none "main" [names]).begin.2
    let d' := (d.runIn 0 id (nameRows "a" [0, 1])).2
    (d.runIn 0 id (nameRows "a" [0, 1])).1 = .broken ∧ (d'.commit 0).1 = .ok () ∧
      ((d'.commit 0).2.engine.committed.tables.map fun t => t.records.map (·.cells)) = [[[.text "a"]]] :=
  ⟨rfl, rfl, rfl⟩

end Database

end QueryGateway.Store
