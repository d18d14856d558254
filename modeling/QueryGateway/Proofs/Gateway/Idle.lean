import QueryGateway.Proofs.Gateway.Alone
import QueryGateway.Proofs.Transactions.Sweeps

namespace QueryGateway.Traffic
set_option autoImplicit true

open Store Rpc

/-- What a move does to the use of a transaction. -/
inductive Mark where
  | began (handle : String) (time : Nat)
  /-- The request of number `i` has found its transaction, and its unit of work goes on from here. -/
  | lookedUp (i : Nat) (handle : String) (time : Nat)
  /-- The unit of work of the request of number `i` has come to its end. -/
  | left (i : Nat) (handle : String) (time : Nat)

def Mark.use? (h : String) : Mark → Option Nat
  | began handle time => if handle = h then some time else none
  | lookedUp _ handle time => if handle = h then some time else none
  | left .. => none

def Mark.time : Mark → Nat
  | began _ time => time
  | lookedUp _ _ time => time
  | left _ _ time => time

/-- The handle of the transaction that a request has a unit of work for, from when it has found it until the end. -/
def Stage.unit? : Stage → Option String
  | entering _ handle _ => some handle
  | inside _ handle _ _ _ => some handle
  | _ => none

def Move.time? : Move → Option Nat
  | arrive clock _ => some clock.now
  | advance _ now => some now
  | sweep now _ => some now
  | close => none

/-- Time does not go back. -/
def Chronological (moves : List Move) : Prop :=
  (moves.filterMap Move.time?).Pairwise (· ≤ ·)

def unitAt (requests : List Stage) (i : Nat) : Option String :=
  requests[i]?.bind Stage.unit?

def markOfArrival (t : Traffic) (clock : Clock) : Call → Option Mark
  | .act _ (some handle) =>
    if t.registry.find? handle = none then none else some (.lookedUp t.requests.length handle clock.now)
  | _ => none

def markOfStage (t : Traffic) (i now : Nat) : Stage → Option Mark
  | .registering _ => some (.began (Transactions.handle t.registry.next) now)
  | .inside _ handle _ _ (.finish _) => some (.left i handle now)
  | _ => none

def mark? (t : Traffic) : Move → Option Mark
  | .arrive clock call => t.markOfArrival clock call
  | .advance i now => t.requests[i]?.bind (t.markOfStage i now)
  | _ => none

/-- What has been done in a run, first to last. -/
def diary (t : Traffic) : List Move → List Mark
  | [] => []
  | m :: moves => (t.mark? m).toList ++ (t.step m).diary moves

/-- The times at which a handle was used. -/
def uses (d : List Mark) (h : String) : List Nat :=
  d.filterMap (Mark.use? h)

section

variable {t t' : Traffic} {d : List Mark}

theorem unitAt_launch (h : unitAt (rs ++ [stage]) i = some x) :
    unitAt rs i = some x ∨ i = rs.length ∧ stage.unit? = some x := by
  unfold unitAt at h ⊢
  rcases Nat.lt_trichotomy i rs.length with hlt | heq | hgt
  · rw [List.getElem?_append_left hlt] at h
    exact .inl h
  · rw [heq, List.getElem?_concat_length] at h
    exact .inr ⟨heq, h⟩
  · rw [List.getElem?_eq_none (by rw [List.length_append]; exact hgt)] at h
    cases h

theorem unitAt_turn (h : unitAt (rs.set i stage) j = some x) :
    unitAt rs j = some x ∨ j = i ∧ stage.unit? = some x := by
  unfold unitAt at h ⊢
  rw [List.getElem?_set] at h
  split at h
  · next heq =>
    split at h
    · exact .inr ⟨heq.symm, h⟩
    · cases h
  · exact .inl h

/-- No transaction is used from the one to the other, and no unit of work comes up. -/
structure Still (t t' : Traffic) : Prop where
  entries : ∀ e ∈ t'.registry.entries, e ∈ t.registry.entries
  units : ∀ i x, unitAt t'.requests i = some x → unitAt t.requests i = some x

namespace Still

theorem same (hr : ∀ e ∈ t'.registry.entries, e ∈ t.registry.entries) (hq : t'.requests = t.requests) : Still t t' :=
  ⟨hr, fun _ _ hu => hq ▸ hu⟩

theorem refl (t : Traffic) : Still t t :=
  same (fun _ he => he) rfl

theorem launched (hr : ∀ e ∈ t'.registry.entries, e ∈ t.registry.entries) (hq : t'.requests = t.requests ++ [stage])
    (hs : stage.unit? = none) : Still t t' := by
  refine ⟨hr, fun i x hu => ?_⟩
  rw [hq] at hu
  rcases unitAt_launch hu with hold | ⟨-, hnew⟩
  · exact hold
  · rw [hs] at hnew
    cases hnew

theorem turned (hi : t.requests[i]? = some stage) (hr : ∀ e ∈ t'.registry.entries, e ∈ t.registry.entries)
    (hq : t'.requests = t.requests.set i stage') (hs : ∀ x, stage'.unit? = some x → stage.unit? = some x) :
    Still t t' := by
  refine ⟨hr, fun j x hu => ?_⟩
  rw [hq] at hu
  rcases unitAt_turn hu with hold | ⟨rfl, hnew⟩
  · exact hold
  · rw [unitAt, hi]
    exact hs x hnew

theorem take (t : Traffic) (call : Call) (handle : String) (commit : Bool) : Still t (t.take call handle commit) := by
  unfold Traffic.take
  split
  · exact same (fun _ he => he) rfl
  · next ht => exact launched (Transactions.Registry.mem_take? ht) rfl rfl

theorem arrive (t : Traffic) (clock : Clock) {call : Call} (hc : ∀ a handle, call ≠ .act a (some handle)) :
    Still t (t.arrive clock call) := by
  cases call with
  | ping => exact same (fun _ he => he) rfl
  | health =>
    simp only [Traffic.arrive]
    split
    · exact refl t
    · refine same (fun e he => ?_) rfl
      have hsame : (t.gateway.health clock.timestamp).2.session.registry = t.registry := by
        unfold Gateway.health
        split
        · rfl
        · rfl
      exact hsame ▸ he
  | begin =>
    simp only [Traffic.arrive]
    split
    · exact same (fun _ he => he) rfl
    · exact launched (fun _ he => he) rfl rfl
  | commit handle => exact take t _ handle true
  | rollback handle => exact take t _ handle false
  | act a handle =>
    cases handle with
    | some handle => exact absurd rfl (hc a handle)
    | none =>
      simp only [Traffic.arrive]
      split
      · exact refl t
      · split
        · split
          · exact same (fun _ he => he) rfl
          · exact launched (fun _ he => he) rfl rfl
        · exact launched (fun _ he => he) rfl rfl

theorem leave (hi : t.requests[i]? = some (.inside a handle k before rest)) (outcome : Outcome Failure Json) :
    Still t (t.leave i a handle k before outcome) := by
  cases outcome with
  | done => exact turned hi (fun _ he => he) rfl nofun
  | failed => exact turned hi (fun _ he => he) rfl nofun
  | broken => exact turned hi (fun _ he => he) rfl nofun

theorem conclude (hi : t.requests[i]? = some stage) (a : Action) (outcome : Outcome Failure Json) :
    Still t (t.conclude i a outcome) := by
  cases outcome with
  | done v =>
    rw [conclude_done]
    exact turned hi (fun _ he => he) rfl nofun
  | failed => exact turned hi (fun _ he => he) rfl nofun
  | broken => exact turned hi (fun _ he => he) rfl nofun

theorem advance (t : Traffic) (i now : Nat) (hr : ∀ k, t.requests[i]? ≠ some (.registering k)) :
    Still t (t.advance i now) := by
  unfold Traffic.advance
  split
  · exact refl t
  · exact refl t
  · next hi =>
    unfold enter
    split
    · exact refl t
    · split
      · exact turned hi (fun _ he => he) rfl nofun
      · exact turned hi (fun _ he => he) rfl nofun
      · exact turned hi (fun _ he => he) rfl fun _ => id
  · next hi => exact turned hi (fun _ he => he) rfl fun _ => id
  · next hi => exact leave hi _
  · next hi => exact turned hi (fun _ he => he) rfl nofun
  · next hi => exact turned hi (fun _ he => he) rfl nofun
  · next hi => exact turned hi (fun _ he => he) rfl nofun
  · next hi => exact conclude hi _ _
  · next hi =>
    unfold finish
    split
    · exact refl t
    · exact turned hi (fun _ he => he) rfl nofun
  · next hi => exact absurd hi (hr _)
  · next hi => exact turned hi (fun _ he => he) rfl nofun
  · next hi =>
    split
    · exact refl t
    · exact turned hi (fun _ he => he) rfl nofun

end Still

/-- What the diary of a run tells about where it is: when each transaction was used last, and that every unit of work
began when its transaction was looked up. -/
structure Tells (d : List Mark) (t : Traffic) : Prop where
  entries : ∀ e ∈ t.registry.entries, (uses d (Transactions.handle e.number)).getLast? = some e.lastUsed
  units : ∀ i x, unitAt t.requests i = some x → ∃ u, .lookedUp i x u ∈ d
  ends : ∀ i x v, .left i x v ∈ d → ∃ u, .lookedUp i x u ∈ d

theorem uses_append (d d' : List Mark) (x : String) : uses (d ++ d') x = uses d x ++ uses d' x :=
  List.filterMap_append

namespace Tells

theorem opened (file : Option String) (schema : String) (tables : List Table) (x : Execution)
    (healthTable : Option String) : Tells [] (opened file schema tables x healthTable) :=
  ⟨nofun, nofun, nofun⟩

theorem still (h : Tells d t) (hs : Still t t') : Tells d t' :=
  ⟨fun e he => h.entries e (hs.entries e he), fun i x hu => h.units i x (hs.units i x hu), h.ends⟩

theorem marked (h : Tells d t) (m : Mark)
    (hentries : ∀ e ∈ t'.registry.entries, m.use? (Transactions.handle e.number) = some e.lastUsed ∨
      m.use? (Transactions.handle e.number) = none ∧ e ∈ t.registry.entries)
    (hunits : ∀ i x, unitAt t'.requests i = some x → unitAt t.requests i = some x ∨ ∃ u, m = .lookedUp i x u)
    (hends : ∀ i x v, m = .left i x v → unitAt t.requests i = some x) : Tells (d ++ [m]) t' := by
  refine ⟨fun e he => ?_, fun i x hu => ?_, fun i x v hm => ?_⟩
  · rw [uses_append, uses, uses]
    rcases hentries e he with hm | ⟨hm, hold⟩
    · rw [List.filterMap_cons_some hm]
      exact List.getLast?_concat
    · rw [List.filterMap_cons_none hm, List.filterMap_nil, List.append_nil]
      exact h.entries e hold
  · rcases hunits i x hu with hold | ⟨u, rfl⟩
    · obtain ⟨u, hm⟩ := h.units i x hold
      exact ⟨u, List.mem_append_left _ hm⟩
    · exact ⟨u, List.mem_append_right _ (List.mem_singleton_self _)⟩
  · rcases List.mem_append.mp hm with hm | hm
    · obtain ⟨u, hu⟩ := h.ends i x v hm
      exact ⟨u, List.mem_append_left _ hu⟩
    · obtain ⟨u, hu⟩ := h.units i x (hends i x v (List.mem_singleton.mp hm).symm)
      exact ⟨u, List.mem_append_left _ hu⟩

theorem quiet (h : Tells d t) (hs : Still t t') (hm : m = none) : Tells (d ++ m.toList) t' := by
  rw [hm, Option.toList_none, List.append_nil]
  exact h.still hs

theorem looks (h : Tells d t) (clock : Clock) (a : Action) (hf : t.registry.find? x = some e) :
    Tells (d ++ [.lookedUp t.requests.length x clock.now]) (t.arrive clock (.act a (some x))) := by
  obtain ⟨r, hu⟩ := Transactions.Registry.use?_of_some hf clock.now
  have harrive : t.arrive clock (.act a (some x)) = (t.withRegistry r).launch (.entering a x e.transaction) := by
    simp only [arrive, hu]
  rw [harrive]
  refine h.marked _ (fun e' he => ?_) (fun i y hy => ?_) fun i y u hm => ?_
  · obtain ⟨f, hm, rfl⟩ := Transactions.Registry.mem_entries_use? hu e' he
    by_cases hx : Transactions.handle f.number = x
    · rw [Transactions.Registry.touched_self hx]
      exact .inl (if_pos hx.symm)
    · rw [Transactions.Registry.touched_other hx]
      exact .inr ⟨if_neg (Ne.symm hx), hm⟩
  · rcases unitAt_launch hy with hold | ⟨rfl, hnew⟩
    · exact .inl hold
    · cases hnew
      exact .inr ⟨clock.now, rfl⟩
  · cases hm

theorem arrives (h : Tells d t) (clock : Clock) (call : Call) :
    Tells (d ++ (t.markOfArrival clock call).toList) (t.arrive clock call) := by
  by_cases hc : ∃ a handle, call = .act a (some handle)
  · obtain ⟨a, x, rfl⟩ := hc
    cases hf : t.registry.find? x with
    | none =>
      rw [arrive_unknown t clock rfl hf]
      exact h.quiet (.same (fun _ he => he) rfl) (if_pos hf)
    | some e =>
      have hmark : t.markOfArrival clock (.act a (some x)) = some (.lookedUp t.requests.length x clock.now) :=
        if_neg (hf ▸ Option.some_ne_none e)
      rw [hmark]
      exact h.looks clock a hf
  · have hne : ∀ a handle, call ≠ .act a (some handle) := fun a handle heq => hc ⟨a, handle, heq⟩
    refine h.quiet (.arrive t clock hne) ?_
    unfold markOfArrival
    split
    · exact absurd rfl (hne _ _)
    · rfl

theorem begins (h : Tells d t) (hi : t.requests[i]? = some (.registering k)) (now : Nat) :
    Tells (d ++ [.began (Transactions.handle t.registry.next) now]) (t.advance i now) := by
  have hadvance : t.advance i now = ((t.withRegistry (t.registry.add k now).2).turn i .ended).note
      (.answered .begin (.ok (.string (t.registry.add k now).1))) := by
    simp only [advance, hi]
  rw [hadvance]
  refine h.marked _ (fun e he => ?_) (fun j x hu => ?_) fun j x u hm => ?_
  · rcases List.mem_append.mp he with hold | hnew
    · refine .inr ⟨if_neg fun heq => ?_, hold⟩
      exact Nat.ne_of_gt (t.registry.number_lt e hold) (Transactions.handle_injective heq)
    · rw [List.mem_singleton.mp hnew]
      exact .inl (if_pos rfl)
  · rcases unitAt_turn hu with hold | ⟨-, hnew⟩
    · exact .inl hold
    · cases hnew
  · cases hm

theorem advances (h : Tells d t) (i now : Nat) :
    Tells (d ++ (t.requests[i]?.bind (t.markOfStage i now)).toList) (t.advance i now) := by
  cases hi : t.requests[i]? with
  | none => exact h.quiet (.advance t i now fun k hk => nomatch hi.symm.trans hk) rfl
  | some stage =>
    rw [Option.bind_some]
    by_cases hr : ∃ k, stage = .registering k
    · obtain ⟨k, rfl⟩ := hr
      exact h.begins hi now
    · have hs : Still t (t.advance i now) :=
        .advance t i now fun k hk => hr ⟨k, Option.some.inj (hi.symm.trans hk)⟩
      unfold markOfStage
      split
      · exact absurd ⟨_, rfl⟩ hr
      · refine h.marked _ (fun e he => .inr ⟨rfl, hs.entries e he⟩) (fun j x hx => .inl (hs.units j x hx)) ?_
        intro j x v heq
        cases heq
        rw [unitAt, hi]
        rfl
      · exact h.quiet hs rfl

theorem step (h : Tells d t) (m : Move) : Tells (d ++ (t.mark? m).toList) (t.step m) := by
  cases m with
  | arrive clock call => exact h.arrives clock call
  | advance i now => exact h.advances i now
  | sweep now maxIdle => exact h.quiet (.launched (fun _ he => (List.mem_filter.mp he).1) rfl rfl) rfl
  | close => exact h.quiet (.launched (fun _ he => (List.mem_filter.mp he).1) rfl rfl) rfl

theorem run (moves : List Move) :
    ∀ {d : List Mark} {t : Traffic}, Tells d t → Tells (d ++ t.diary moves) (t.run moves) := by
  induction moves with
  | nil =>
    intro d t h
    rw [diary, List.append_nil]
    exact h
  | cons m moves ih =>
    intro d t h
    rw [diary, ← List.append_assoc]
    exact ih (h.step m)

end Tells

theorem time_mark? (t : Traffic) {m : Move} (h : t.mark? m = some k) : m.time? = some k.time := by
  cases m with
  | arrive clock call =>
    have hk : t.markOfArrival clock call = some k := h
    unfold markOfArrival at hk
    split at hk
    · split at hk
      · cases hk
      · cases hk
        rfl
    · cases hk
  | advance i now =>
    obtain ⟨stage, -, hk⟩ := Option.bind_eq_some_iff.mp h
    unfold markOfStage at hk
    split at hk
    · cases hk
      rfl
    · cases hk
      rfl
    · cases hk
  | sweep now maxIdle => cases h
  | close => cases h

/-- The marks of a run come at the times of its moves. -/
theorem times_diary (moves : List Move) :
    ∀ t : Traffic, ((t.diary moves).map Mark.time).Sublist (moves.filterMap Move.time?) := by
  induction moves with
  | nil => exact fun _ => .slnil
  | cons m moves ih =>
    intro t
    rw [diary, List.map_append]
    cases hk : t.mark? m with
    | none =>
      have hmore : (moves.filterMap Move.time?).Sublist ((m :: moves).filterMap Move.time?) :=
        (List.sublist_cons_self m moves).filterMap _
      exact (ih (t.step m)).trans hmore
    | some k =>
      rw [List.filterMap_cons_some (t.time_mark? hk)]
      exact (ih (t.step m)).cons_cons k.time

theorem uses_sublist (d : List Mark) (x : String) : (uses d x).Sublist (d.map Mark.time) := by
  have htime : ∀ m : Mark, m.use? x = none ∨ m.use? x = some m.time := by
    intro m
    cases m with
    | began y u => exact (ite_eq_or_eq ..).symm
    | lookedUp i y u => exact (ite_eq_or_eq ..).symm
    | left => exact .inl rfl
  induction d with
  | nil => exact .slnil
  | cons m d ih =>
    rw [uses, List.map_cons]
    rcases htime m with hm | hm
    · rw [List.filterMap_cons_none hm]
      exact ih.cons _
    · rw [List.filterMap_cons_some hm]
      exact ih.cons_cons _

theorem uses_le (hd : (d.map Mark.time).Pairwise (· ≤ ·)) (hl : (uses d x).getLast? = some u) :
    ∀ v ∈ uses d x, v ≤ u := by
  have hp := hd.sublist (uses_sublist d x)
  obtain ⟨earlier, heq⟩ := List.getLast?_eq_some_iff.mp hl
  rw [heq] at hp ⊢
  intro v hv
  rcases List.mem_append.mp hv with hm | hm
  · exact (List.pairwise_append.mp hp).2.2 v hm u (List.mem_singleton_self u)
  · exact Nat.le_of_eq (List.mem_singleton.mp hm)

theorem mem_uses (h : .lookedUp i x u ∈ d) : u ∈ uses d x :=
  List.mem_filterMap.mpr ⟨_, h, if_pos rfl⟩

end

/-- Over every run: a transaction was used last when it was begun or looked up last, and a sweep takes exactly those for
which that is longer ago than `maxIdle`, to roll them back as soon as nobody works in them. Every unit of work began with
a lookup, so that while time does not go back, what a sweep takes was looked up for none of its units within the last
`maxIdle`; if the units took no longer than `span`, the last of them ended no later than `maxIdle` less that ago. -/
theorem idle_run (file : Option String) (schema : String) (tables : List Table) (x : Execution)
    (healthTable : Option String) (moves : List Move) :
    let start := opened file schema tables x healthTable
    let t := start.run moves
    let d := start.diary moves
    let Takes (now maxIdle : Nat) (h : String) : Prop :=
      t.registry.find? h ≠ none ∧ (t.step (.sweep now maxIdle)).registry.find? h = none
    (∀ h e, t.registry.find? h = some e → (uses d h).getLast? = some e.lastUsed) ∧
    (∀ now maxIdle h, Takes now maxIdle h ↔ ∃ u, t.registry.find? h ≠ none ∧ (uses d h).getLast? = some u ∧
      u + maxIdle < now) ∧
    (∀ now maxIdle, (t.step (.sweep now maxIdle)).requests = t.requests ++ [.abandoning
      ((t.registry.entries.filter fun e => decide (e.lastUsed + maxIdle < now)).map (·.transaction))]) ∧
    (∀ i now k ks, t.requests[i]? = some (.abandoning (k :: ks)) → .transaction k ∈ t.holds →
      t.step (.advance i now) = t) ∧
    (∀ i h, unitAt t.requests i = some h → ∃ u, .lookedUp i h u ∈ d) ∧
    (∀ i h v, .left i h v ∈ d → ∃ u, .lookedUp i h u ∈ d) ∧
    (Chronological moves → ∀ now maxIdle h, Takes now maxIdle h →
      (∀ u ∈ uses d h, u + maxIdle < now) ∧
      (∀ i u, .lookedUp i h u ∈ d → u + maxIdle < now) ∧
      (∀ span, (∀ i u v, .lookedUp i h u ∈ d → .left i h v ∈ d → v ≤ u + span) →
        ∀ i v, .left i h v ∈ d → v + maxIdle < now + span)) := by
  intro start t d Takes
  have htells : Tells d t := (Tells.opened file schema tables x healthTable).run moves
  have hlast : ∀ h e, t.registry.find? h = some e → (uses d h).getLast? = some e.lastUsed := by
    intro h e hf
    obtain ⟨hm, rfl⟩ := Transactions.Registry.find?_some hf
    exact htells.entries e hm
  have hTakes : ∀ now maxIdle h, Takes now maxIdle h ↔
      ∃ u, t.registry.find? h ≠ none ∧ (uses d h).getLast? = some u ∧ u + maxIdle < now := by
    intro now maxIdle h
    have hswept : (t.step (.sweep now maxIdle)).registry.find? h = none ↔
        ∀ e, t.registry.find? h = some e → ¬ decide (now ≤ e.lastUsed + maxIdle) = true := by
      rw [← Option.filter_eq_none_iff, ← Transactions.Registry.find?_sweep]
      rfl
    constructor
    · intro ⟨hne, hgone⟩
      obtain ⟨e, hf⟩ := Option.ne_none_iff_exists'.mp hne
      have hstale := hswept.mp hgone e hf
      rw [decide_eq_true_eq, Nat.not_le] at hstale
      exact ⟨e.lastUsed, hne, hlast h e hf, hstale⟩
    · intro ⟨u, hne, hl, hlt⟩
      refine ⟨hne, hswept.mpr fun e hf => ?_⟩
      have heq : e.lastUsed = u := Option.some.inj ((hlast h e hf).symm.trans hl)
      rw [decide_eq_true_eq, Nat.not_le, heq]
      exact hlt
  refine ⟨hlast, hTakes, fun now maxIdle => ?_, fun i now k ks hi hk => ?_, htells.units, htells.ends, ?_⟩
  · rw [← Transactions.Registry.taken_sweep]
    rfl
  · simp only [step, advance, hi, hk, if_true]
  · intro hc now maxIdle h ht
    obtain ⟨u, hu, hl, hlt⟩ := (hTakes now maxIdle h).mp ht
    have hd : (d.map Mark.time).Pairwise (· ≤ ·) := hc.sublist (times_diary moves start)
    have huses : ∀ v ∈ uses d h, v + maxIdle < now := fun v hv =>
      Nat.lt_of_le_of_lt (Nat.add_le_add_right (uses_le hd hl v hv) _) hlt
    refine ⟨huses, fun i v hv => huses v (mem_uses hv), fun span hspan i v hv => ?_⟩
    obtain ⟨w, hw⟩ := htells.ends i h v hv
    have hlong := hspan i w v hw hv
    have hidle := huses w (mem_uses hw)
    omega

/-- A unit of work is no protection: there is a run after which a sweep, however patient, takes a transaction with a unit
of work in progress, and the handle is gone for good. -/
theorem swept_while_served : ∃ moves : Action → List Move, ∀ (file : Option String) (schema : String)
    (tables : List Table) (x : Execution) (healthTable : Option String) (a : Action) (maxIdle : Nat),
      let t := (opened file schema tables x healthTable).run (moves a)
      let h := Transactions.handle 1
      Chronological (moves a ++ [.sweep (maxIdle + 1) maxIdle]) ∧ t.registry.find? h ≠ none ∧
        (∃ k before rest, .inside a h k before rest ∈ t.requests) ∧
        ∀ later, (t.run (.sweep (maxIdle + 1) maxIdle :: later)).registry.find? h = none := by
  let h := Transactions.handle 1
  refine ⟨fun a => [.arrive ⟨0, "", 0⟩ .begin, .advance 0 0, .arrive ⟨0, "", 0⟩ (.act a (some h)), .advance 1 0],
    fun file schema tables x healthTable a maxIdle => ?_⟩
  let begun := (opened file schema tables x healthTable).run [.arrive ⟨0, "", 0⟩ .begin, .advance 0 0]
  have hbegun : begun.registry.find? h = some ⟨1, 0, 0⟩ := Transactions.Registry.empty.find?_add 0 0
  obtain ⟨r, hu⟩ := Transactions.Registry.use?_of_some hbegun 0
  have hfound : r.find? h = some ⟨1, 0, 0⟩ :=
    (Transactions.Registry.find?_use? hu h).trans
      ((congrArg _ hbegun).trans (congrArg some (Transactions.Registry.touched_self (e := ⟨1, 0, 0⟩) rfl 0)))
  -- the request is in the transaction and has done nothing yet
  let s : Stage := .inside a h 0 ((begun.withRegistry r).noted (Store.Database.connectionOf 0)).length (begun.work a)
  let t := (begun.withRegistry r).launch s
  have hserved : s ∈ t.requests := List.mem_of_getElem? (requests_launch _ _)
  have hreached : (opened file schema tables x healthTable).run
      [.arrive ⟨0, "", 0⟩ .begin, .advance 0 0, .arrive ⟨0, "", 0⟩ (.act a (some h)), .advance 1 0] = t := by
    have harrived : begun.step (.arrive ⟨0, "", 0⟩ (.act a (some h))) =
        (begun.withRegistry r).launch (.entering a h 0) := by
      rw [step, arrive, hu]
    have hentered : ((begun.withRegistry r).launch (.entering a h 0)).advance 1 0 = t :=
      advance_entering (t := begun.withRegistry r) (k := 0) rfl rfl a h 0
    exact (congrArg (step · (.advance 1 0)) harrived).trans hentered
  have hgone : (t.step (.sweep (maxIdle + 1) maxIdle)).registry.find? h = none := by
    refine (r.find?_sweep _ _ _).trans ?_
    rw [hfound]
    exact Option.filter_some_neg (by simp)
  have htimes : [0, 0, 0, 0, maxIdle + 1].Pairwise (· ≤ ·) := by simp
  have hissued : 1 < (t.step (.sweep (maxIdle + 1) maxIdle)).registry.next :=
    Nat.lt_of_lt_of_le (Nat.lt_succ_self 1) (Transactions.Registry.Precedes.use? hu).next_le
  have hswept : (t.step (.sweep (maxIdle + 1) maxIdle)).Gone h := ⟨⟨1, hissued, rfl⟩, hgone⟩
  simp only [hreached]
  exact ⟨htimes, hfound ▸ Option.some_ne_none _, ⟨0, _, _, hserved⟩, fun later => (hswept.run later).2⟩

end QueryGateway.Traffic
