import QueryGateway.Proofs.Transactions.Custody

namespace QueryGateway.Transactions
set_option autoImplicit true

open Store

namespace Callers

/-- The handles that a transaction is under. -/
def handlesOf (s : Callers σ) (k : Nat) : List String :=
  (s.registry.entries.filter (·.transaction == k)).map (handle ·.number)

/-- The calls that took a transaction out, and what for. -/
def takersOf (s : Callers σ) (k : Nat) : List (Nat × Ending) :=
  (s.taken.filter (·.2.2 == k)).map fun t => (t.1, t.2.1)

/-- The calls that finished a transaction, and how. -/
def finishersOf (s : Callers σ) (k : Nat) : List (Nat × Ending) :=
  (s.finished.filter (·.2.2 == k)).map fun t => (t.1, t.2.1)

/-- Who has the transaction `k`, whose handle is `h`. -/
inductive Custody (s : Callers σ) (h : String) (k : Nat) : Prop where
  /-- The registry, under that handle only. -/
  | kept (handles : s.handlesOf k = [h]) (takers : s.takersOf k = []) (finishers : s.finishersOf k = [])
  /-- One call, which still has to finish it. -/
  | taken (i : Nat) (how : Ending) (handles : s.handlesOf k = []) (takers : s.takersOf k = [(i, how)])
      (finishers : s.finishersOf k = []) (owes : (how, k) ∈ s.owes i)
  /-- Nobody any more: the call that took it out has finished it, once. -/
  | finished (i : Nat) (how : Ending) (handles : s.handlesOf k = []) (takers : s.takersOf k = [(i, how)])
      (finishers : s.finishersOf k = [(i, how)])

def Stage.left : Stage → Nat
  | starting _ => 2
  | numbered _ _ => 1
  | finishing _ _ _ => 1
  | abandoning _ ks => ks.length + 1
  | ended => 0

def Move.advances (i : Nat) : Move σ → Bool
  | advance j _ _ => j == i
  | _ => false

variable {s s' : Callers σ}

theorem length_handlesOf (s : Callers σ) (k : Nat) : (s.handlesOf k).length = s.registry.countOf k := by
  rw [handlesOf, List.length_map, Registry.countOf, List.count_eq_countP, List.countP_map, List.countP_eq_length_filter]
  rfl

theorem length_takersOf (s : Callers σ) (k : Nat) : (s.takersOf k).length = (s.taken.map (·.2.2)).count k := by
  rw [takersOf, List.length_map, List.count_eq_countP, List.countP_map, List.countP_eq_length_filter]
  rfl

theorem mem_takersOf : (i, how) ∈ s.takersOf k ↔ (i, how, k) ∈ s.taken := by
  constructor
  · intro h
    obtain ⟨⟨i', how', k'⟩, hm, heq⟩ := List.mem_map.mp h
    obtain ⟨hm, hk⟩ := List.mem_filter.mp hm
    cases heq
    rw [← beq_iff_eq.mp hk]
    exact hm
  · intro h
    exact List.mem_map.mpr ⟨_, List.mem_filter.mpr ⟨h, beq_self_eq_true _⟩, rfl⟩

theorem count_pairs (ts : List (Nat × Ending × Nat)) (i : Nat) (how : Ending) (k : Nat) :
    ((ts.filter (·.2.2 == k)).map fun t => (t.1, t.2.1)).count (i, how) = ts.count (i, how, k) := by
  rw [List.count_eq_countP, List.countP_map, List.countP_filter, List.count_eq_countP]
  apply List.countP_congr
  intro t _
  simp only [Function.comp_apply, Bool.and_eq_true, beq_iff_eq, Prod.ext_iff]
  exact and_assoc

theorem find?_of_kept (hh : s.handlesOf k = [x]) : s.registry.find? x ≠ none := by
  intro hnone
  have hx : x ∈ s.handlesOf k := by
    rw [hh]
    exact List.mem_cons_self
  obtain ⟨e, he, rfl⟩ := List.mem_map.mp hx
  exact List.find?_eq_none.mp hnone e (List.mem_filter.mp he).1 (beq_self_eq_true _)

namespace Sound

theorem begun_count (h : s.Sound) (hm : (x, k) ∈ s.begun) : (s.begun.map Prod.snd).count k = 1 := by
  have hpos : 0 < (s.begun.map Prod.snd).count k := List.count_pos_iff.mpr (List.mem_map_of_mem hm)
  have hk := h.started k
  split at hk <;> omega

theorem handle_unique (h : s.Sound) (hm : (x, k) ∈ s.begun) (hm' : (x, k') ∈ s.begun) : k = k' :=
  (Prod.ext_iff.mp (List.inj_on_of_nodup_map (List.nodup_append.mp h.handles).1 hm hm' rfl)).2

theorem transaction_unique (h : s.Sound) (hm : (x, k) ∈ s.begun) (hm' : (x', k) ∈ s.begun) : x = x' := by
  have hnodup : (s.begun.map Prod.snd).Nodup := by
    apply List.nodup_iff_count_le_one.mpr
    intro k'
    have hk := h.started k'
    split at hk <;> omega
  exact (Prod.ext_iff.mp (List.inj_on_of_nodup_map hnodup hm hm' rfl)).1

theorem handles_mem (h : s.Sound) (hx : x ∈ s.handlesOf k) : (x, k) ∈ s.begun := by
  obtain ⟨e, he, rfl⟩ := List.mem_map.mp hx
  obtain ⟨he, hk⟩ := List.mem_filter.mp he
  rw [← beq_iff_eq.mp hk]
  exact h.entries e he

theorem taken_of_finished (h : s.Sound) (hm : (i, how, k) ∈ s.finished) : (i, how, k) ∈ s.taken := by
  have ho := h.owed i how k
  have hpos := List.count_pos_iff.mpr hm
  exact List.count_pos_iff.mp (by omega)

theorem begun_of_taken (h : s.Sound) (hm : (i, how, k) ∈ s.taken) : ∃ x, (x, k) ∈ s.begun := by
  have hpos : 0 < (s.taken.map (·.2.2)).count k := List.count_pos_iff.mpr (List.mem_map_of_mem hm)
  have hk := h.kept k
  obtain ⟨⟨x, k'⟩, hx, rfl⟩ :=
    List.mem_map.mp (List.count_pos_iff.mp (show 0 < (s.begun.map Prod.snd).count k by omega))
  exact ⟨x, hx⟩

/-- Whoever has it, each transaction that was begun is in one place. -/
theorem custody (h : s.Sound) (hm : (x, k) ∈ s.begun) : s.Custody x k := by
  have hsum := h.kept k
  rw [h.begun_count hm, ← length_handlesOf, ← length_takersOf] at hsum
  have hfinishers (i : Nat) (how : Ending) (hf : (i, how) ∈ s.finishersOf k) : (i, how) ∈ s.takersOf k := by
    apply mem_takersOf.mpr
    apply h.taken_of_finished
    have hpos := List.count_pos_iff.mpr hf
    rw [finishersOf, count_pairs] at hpos
    exact List.count_pos_iff.mp hpos
  cases hh : s.handlesOf k with
  | cons y ys =>
    have hlengths : ys.length = 0 ∧ (s.takersOf k).length = 0 := by
      rw [hh, List.length_cons] at hsum
      omega
    have htakers := List.eq_nil_of_length_eq_zero hlengths.2
    have hy : y = x := by
      apply h.transaction_unique (h.handles_mem _) hm
      rw [hh]
      exact List.mem_cons_self
    apply Custody.kept
    · rw [hh, hy, List.eq_nil_of_length_eq_zero hlengths.1]
    · exact htakers
    · apply List.eq_nil_iff_forall_not_mem.mpr
      intro t ht
      have hno := hfinishers t.1 t.2 ht
      rw [htakers] at hno
      cases hno
  | nil =>
    rw [hh, List.length_nil, Nat.zero_add] at hsum
    obtain ⟨⟨i, how⟩, htakers⟩ := List.length_eq_one_iff.mp hsum
    have hcount : s.taken.count (i, how, k) = 1 := by
      rw [← count_pairs]
      exact (congrArg (List.count (i, how)) htakers).trans List.count_singleton_self
    have ho := h.owed i how k
    rw [hcount, ← count_pairs] at ho
    change 1 = _ + (s.finishersOf k).count (i, how) at ho
    have hall : ∀ t ∈ s.finishersOf k, t = (i, how) := by
      intro t ht
      have hmem := hfinishers t.1 t.2 ht
      rw [htakers] at hmem
      exact List.mem_singleton.mp hmem
    have hreplicate := List.eq_replicate_of_mem hall
    have hlength := (List.count_eq_length.mpr fun t ht => (hall t ht).symm : (s.finishersOf k).count (i, how) = _)
    cases hl : (s.finishersOf k).length with
    | zero =>
      refine Custody.taken i how hh htakers (List.eq_nil_of_length_eq_zero hl) (List.count_pos_iff.mp ?_)
      omega
    | succ n =>
      have hn : n = 0 := by omega
      rw [hl, hn] at hreplicate
      exact Custody.finished i how hh htakers hreplicate

/-- A handle that is gone stays gone: its transaction has been taken out, and that is not undone. -/
theorem stays_gone (h : s.Sound) (h' : s'.Sound) (hgrown : s.history <+: s'.history) (hx : x ∈ s.begun.map Prod.fst)
    (hgone : s.registry.find? x = none) : s'.registry.find? x = none := by
  obtain ⟨⟨y, k⟩, hm, hy⟩ := List.mem_map.mp hx
  have hy : y = x := hy
  rw [hy] at hm
  have hm' : (x, k) ∈ s'.begun := (hgrown.filterMap Event.begun?).subset hm
  have htaken : ∃ i how, (i, how) ∈ s.takersOf k := by
    cases h.custody hm with
    | kept handles => exact absurd hgone (find?_of_kept handles)
    | taken i how _ takers =>
      refine ⟨i, how, ?_⟩
      rw [takers]
      exact List.mem_cons_self
    | finished i how _ takers =>
      refine ⟨i, how, ?_⟩
      rw [takers]
      exact List.mem_cons_self
  obtain ⟨i, how, ht⟩ := htaken
  have ht' : (i, how) ∈ s'.takersOf k := mem_takersOf.mpr ((hgrown.filterMap Event.taken?).subset (mem_takersOf.mp ht))
  have hnone : s'.handlesOf k = [] := by
    cases h'.custody hm' with
    | kept _ takers =>
      rw [takers] at ht'
      cases ht'
    | taken _ _ handles => exact handles
    | finished _ _ handles => exact handles
  cases hf : s'.registry.find? x with
  | none => rfl
  | some e =>
    obtain ⟨he, hx'⟩ := Registry.find?_some hf
    have hk : e.transaction = k := by
      have hm'' := h'.entries e he
      rw [hx'] at hm''
      exact h'.handle_unique hm'' hm'
    have hmem : handle e.number ∈ s'.handlesOf k :=
      List.mem_map_of_mem (List.mem_filter.mpr ⟨he, beq_iff_eq.mpr hk⟩)
    rw [hnone] at hmem
    cases hmem

end Sound

theorem step_history (f : Finisher σ Nat) (s : Callers σ) (m : Move σ) : s.history <+: (step f s m).history := by
  cases m with
  | begin start =>
    change s.history <+: (s.begin start).history
    unfold Callers.begin
    split
    · exact List.prefix_append _ _
    · exact List.prefix_rfl
  | get handle now =>
    change s.history <+: (s.get handle now).history
    unfold Callers.get
    split <;> exact List.prefix_append _ _
  | finish how handle =>
    change s.history <+: (s.take how handle).history
    unfold Callers.take
    split <;> exact List.prefix_append _ _
  | rollbackAll => exact List.prefix_append _ _
  | expire now maxIdle => exact List.prefix_append _ _
  | advance i now pick =>
    change s.history <+: (s.advance f i now pick).history
    unfold Callers.advance
    split
    · exact List.prefix_rfl
    · exact List.prefix_append _ _
    · exact List.prefix_append _ _
    · split <;> exact List.prefix_append _ _
    · exact List.prefix_rfl
    · exact List.prefix_rfl

theorem run_history (f : Finisher σ Nat) (moves : List (Move σ)) :
    ∀ s : Callers σ, s.history <+: (run f s moves).history := by
  induction moves with
  | nil =>
    intro s
    exact List.prefix_rfl
  | cons m moves ih =>
    intro s
    exact (step_history f s m).trans (ih _)

theorem step_other (f : Finisher σ Nat) (hi : s.calls[i]? = some stage) (m : Move σ)
    (hm : Move.advances i m = false) : (step f s m).calls[i]? = some stage := by
  have hlaunch (s' : Callers σ) (hs : s'.calls = s.calls) (new : Stage) : (s'.launch new).calls[i]? = some stage := by
    rw [launch, hs]
    exact List.getElem?_append_left (List.getElem?_eq_some_iff.mp hi).1 ▸ hi
  cases m with
  | begin start =>
    change (s.begin start).calls[i]? = _
    unfold Callers.begin
    split
    · exact hi
    · exact hlaunch _ rfl _
  | get handle now =>
    change (s.get handle now).calls[i]? = _
    unfold Callers.get
    split <;> exact hi
  | finish how handle =>
    change (s.take how handle).calls[i]? = _
    unfold Callers.take
    split
    · exact hi
    · exact hlaunch _ rfl _
  | rollbackAll => exact hlaunch _ rfl _
  | expire now maxIdle => exact hlaunch _ rfl _
  | advance j now pick =>
    have hturn (s' : Callers σ) (hs : s'.calls = s.calls) (new : Stage) : (s'.turn j new).calls[i]? = some stage := by
      rw [turn, hs]
      exact (List.getElem?_set_ne (beq_eq_false_iff_ne.mp hm)).trans hi
    change (s.advance f j now pick).calls[i]? = _
    unfold Callers.advance
    split
    · exact hturn _ rfl _
    · exact hturn _ rfl _
    · exact hturn _ rfl _
    · split <;> exact hturn _ rfl _
    · exact hi
    · exact hi

theorem advance_left (f : Finisher σ Nat) (hi : s.calls[i]? = some stage) (now pick : Nat) :
    ∃ stage', (s.advance f i now pick).calls[i]? = some stage' ∧ stage'.left = stage.left - 1 := by
  cases stage with
  | starting k =>
    rw [advance_starting f now pick hi]
    exact ⟨_, calls_turn hi _, rfl⟩
  | numbered k number =>
    rw [advance_numbered f now pick hi]
    exact ⟨_, calls_turn hi _, rfl⟩
  | finishing handle how k =>
    rw [advance_finishing f now pick hi]
    exact ⟨_, calls_turn hi _, rfl⟩
  | abandoning count ks =>
    have hlength := List.length_rotate ks pick
    unfold Callers.advance
    simp only [hi]
    split
    · next k rest heq =>
      rw [heq] at hlength
      exact ⟨.abandoning count rest, calls_turn hi _, hlength⟩
    · next heq =>
      rw [heq] at hlength
      exact ⟨.ended, calls_turn hi _, hlength⟩
  | ended =>
    refine ⟨.ended, ?_, rfl⟩
    unfold Callers.advance
    simp only [hi]

theorem step_left (f : Finisher σ Nat) (hi : s.calls[i]? = some stage) (m : Move σ) :
    ∃ stage', (step f s m).calls[i]? = some stage' ∧ stage'.left = stage.left - [m].countP (Move.advances i) := by
  rw [List.countP_singleton]
  cases hm : Move.advances i m with
  | false => exact ⟨stage, step_other f hi m hm, rfl⟩
  | true =>
    cases m with
    | advance j now pick =>
      obtain rfl : j = i := beq_iff_eq.mp hm
      exact advance_left f hi now pick
    | _ => cases hm

theorem run_left (f : Finisher σ Nat) (moves : List (Move σ)) :
    ∀ {s : Callers σ} {stage : Stage}, s.calls[i]? = some stage →
      ∃ stage', (run f s moves).calls[i]? = some stage' ∧
        stage'.left = stage.left - moves.countP (Move.advances i) := by
  induction moves with
  | nil =>
    intro s stage hi
    exact ⟨stage, hi, rfl⟩
  | cons m moves ih =>
    intro s stage hi
    obtain ⟨stage', hi', hleft⟩ := step_left f hi m
    obtain ⟨stage'', hi'', hleft'⟩ := ih hi'
    have hsplit :
        (m :: moves).countP (Move.advances i) = [m].countP (Move.advances i) + moves.countP (Move.advances i) := by
      rw [← List.countP_append, List.singleton_append]
    refine ⟨stage'', hi'', ?_⟩
    omega

/-- A call that has been given the steps it had left has ended, whatever others did in between. -/
theorem run_ended (f : Finisher σ Nat) {moves : List (Move σ)} (hi : s.calls[i]? = some stage)
    (hleft : stage.left ≤ moves.countP (Move.advances i)) : (run f s moves).calls[i]? = some .ended := by
  obtain ⟨stage', hi', hleft'⟩ := run_left f moves hi
  have hzero : stage'.left = 0 := by omega
  rw [hi']
  cases stage' <;> first | rfl | cases hzero

theorem step_gone (f : Finisher σ Nat) (hgone : s.registry.find? x = none) :
    (∀ now, step f s (.get x now) = s.note [.failed (.notFound x)]) ∧
      ∀ how, step f s (.finish how x) = s.note [.failed (.notFound x)] := by
  constructor
  · intro now
    have huse : s.registry.use? x now = none := by
      rw [Registry.use?, hgone]
      rfl
    change s.get x now = _
    rw [Callers.get, huse]
  · intro how
    have htake : s.registry.take? x = none := by
      rw [Registry.take?, hgone]
      rfl
    exact take_none htake how

/-- The same move where the world tells besides what was committed and rolled back. -/
def Move.recorded : Move σ → Move (σ × List (Ending × Nat))
  | begin start => begin fun w => ((start w.1).1, (start w.1).2, w.2)
  | get handle now => get handle now
  | finish how handle => finish how handle
  | rollbackAll => rollbackAll
  | expire now maxIdle => expire now maxIdle
  | advance call now pick => advance call now pick

/-- The same callers, where the world tells that what they say they finished was committed and rolled back, and that
nothing else was. -/
def recorded (s : Callers σ) : Callers (σ × List (Ending × Nat)) :=
  ⟨⟨s.registry, s.session.world, s.finished.map Prod.snd⟩, s.started, s.calls, s.history⟩

theorem recorded_note (s : Callers σ) (es : List Event) (hes : es.filterMap Event.finished? = []) :
    (s.note es).recorded = s.recorded.note es := by
  have hfinished : (s.note es).finished = s.finished := by rw [finished_note, hes, List.append_nil]
  rw [recorded, hfinished]
  rfl

theorem recorded_finish (f : Finisher σ Nat) (s : Callers σ) (i : Nat) (how : Ending) (k : Nat) (stage : Stage) :
    (s.finish f i how k stage).recorded = s.recorded.finish f.recorded i how k stage := by
  have hfinished : (s.finish f i how k stage).finished = s.finished ++ [(i, how, k)] := finished_note _ _
  rw [recorded, hfinished, List.map_append, Callers.finish, Callers.finish, Finisher.recorded_act]
  rfl

theorem recorded_begin (s : Callers σ) (start : σ → Except Fault Unit × σ) :
    (s.begin start).recorded = s.recorded.begin fun w => ((start w.1).1, (start w.1).2, w.2) := by
  have hstart : (fun w : σ × List (Ending × Nat) => ((start w.1).1, (start w.1).2, w.2)) s.recorded.session.world =
      ((start s.session.world).1, (start s.session.world).2, s.finished.map Prod.snd) := rfl
  rcases hs : start s.session.world with ⟨fault | _, world⟩
  · rw [begin_refused hs, begin_refused (hstart.trans (by rw [hs]))]
    exact recorded_note _ _ rfl
  · rw [begin_started hs, begin_started (hstart.trans (by rw [hs]))]
    rfl

theorem recorded_advance (f : Finisher σ Nat) (s : Callers σ) (i now pick : Nat) :
    (s.advance f i now pick).recorded = s.recorded.advance f.recorded i now pick := by
  have hcalls : s.recorded.calls[i]? = s.calls[i]? := rfl
  unfold Callers.advance
  rw [hcalls]
  split
  · rfl
  · exact recorded_note _ _ rfl
  · exact recorded_finish ..
  · split
    · exact recorded_finish ..
    · exact recorded_note _ _ rfl
  · rfl
  · rfl

theorem recorded_abandon (s : Callers σ) (taken : List Nat × Registry Nat) :
    (s.abandon taken).recorded = s.recorded.abandon taken := by
  refine recorded_note _ _ ?_
  rw [List.filterMap_map]
  exact List.filterMap_eq_nil_iff.mpr fun _ _ => rfl

theorem recorded_step (f : Finisher σ Nat) (s : Callers σ) (m : Move σ) :
    (step f s m).recorded = step f.recorded s.recorded m.recorded := by
  have hregistry : s.recorded.registry = s.registry := rfl
  cases m with
  | begin start => exact s.recorded_begin start
  | get handle now =>
    change (s.get handle now).recorded = s.recorded.get handle now
    unfold Callers.get
    rw [hregistry]
    split <;> exact recorded_note _ _ rfl
  | finish how handle =>
    change (s.take how handle).recorded = s.recorded.take how handle
    unfold Callers.take
    rw [hregistry]
    split <;> exact recorded_note _ _ rfl
  | rollbackAll => exact recorded_abandon _ _
  | expire now maxIdle => exact recorded_abandon _ _
  | advance i now pick => exact recorded_advance f s i now pick

theorem recorded_run (f : Finisher σ Nat) (moves : List (Move σ)) :
    ∀ s : Callers σ, (run f s moves).recorded = run f.recorded s.recorded (moves.map Move.recorded) := by
  induction moves with
  | nil => exact fun s => rfl
  | cons m moves ih =>
    intro s
    rw [List.map_cons]
    change (run f (step f s m) moves).recorded = run f.recorded (step f.recorded s.recorded m.recorded) _
    rw [ih, recorded_step]

theorem taken_take (f : Finisher σ Nat) (hx : s.registry.find? x = some e) (how : Ending) :
    (step f s (.finish how x)).taken = s.taken ++ [(s.calls.length, how, e.transaction)] := by
  have htake : s.registry.take? x = some (e.transaction, s.registry.keep (handle ·.number != x)) := by
    rw [Registry.take?, hx]
    rfl
  change (s.take how x).taken = _
  rw [take_some htake]
  exact taken_note _ _

theorem taken_abandon (s : Callers σ) (taken : List Nat × Registry Nat) :
    (s.abandon taken).taken = s.taken ++ taken.1.map (s.calls.length, Ending.rollback, ·) := by
  have hnoted : (taken.1.map (Event.taken s.calls.length .rollback)).filterMap Event.taken? =
      taken.1.map (s.calls.length, Ending.rollback, ·) := by
    rw [List.filterMap_map]
    exact congrFun List.filterMap_eq_map' _
  rw [← hnoted]
  exact taken_note _ _

/-- Handles are answered once and never again; a transaction that was begun is in the registry under its own handle or
was taken out by one call, which finishes it once and for which it has all the steps it needs; who comes later finds
nothing, and touches nothing; and where no transaction could be started, nothing is registered and no handle is used
up. A call takes out what it was asked to, and what calls say they finished is, one for one and in that order, what was
committed and rolled back. This holds at any time of any run in which less than a word of transactions is begun. -/
theorem custody_run (f : Finisher σ Nat) (world : σ) (earlier later : List (Move σ))
    (hw : (earlier ++ later).countP Move.isBegin < Registry.wordSize) :
    let s₀ := run f (opened world) earlier
    let s := run f s₀ later
    let told := run f.recorded (opened (world, [])) ((earlier ++ later).map Move.recorded)
    (s.begun.map Prod.fst).Nodup ∧
      (∀ x k, (x, k) ∈ s.begun → s.Custody x k) ∧
      (∀ e ∈ s.registry.entries, (handle e.number, e.transaction) ∈ s.begun) ∧
      (∀ i how k, (i, how, k) ∈ s.finished → (i, how, k) ∈ s.taken) ∧
      (∀ i how k, (i, how, k) ∈ s.taken → ∃ x, (x, k) ∈ s.begun) ∧
      (∀ i stage, s₀.calls[i]? = some stage → stage.left ≤ later.countP (Move.advances i) →
        s.calls[i]? = some .ended) ∧
      (∀ x ∈ s₀.begun.map Prod.fst, s₀.registry.find? x = none →
        (∀ now, step f s (.get x now) = s.note [.failed (.notFound x)]) ∧
          ∀ how, step f s (.finish how x) = s.note [.failed (.notFound x)]) ∧
      (∀ start fault world', start s.session.world = (.error fault, world') →
        step f s (.begin start) = (s.withWorld world').note [.refused fault]) ∧
      (∀ how x e, s.registry.find? x = some e →
        (step f s (.finish how x)).taken = s.taken ++ [(s.calls.length, how, e.transaction)]) ∧
      (∀ now maxIdle, (step f s (.expire now maxIdle)).taken =
        s.taken ++ (s.registry.sweep now maxIdle).1.map (s.calls.length, .rollback, ·)) ∧
      ((step f s .rollbackAll).taken =
        s.taken ++ s.registry.entries.map fun e => (s.calls.length, .rollback, e.transaction)) ∧
      (told.history = s.history ∧ told.session = ⟨s.registry, s.session.world, s.finished.map Prod.snd⟩) ∧
      ∀ k, (told.session.world.2.filter (·.2 == k)).map Prod.fst = (s.finishersOf k).map Prod.snd := by
  have hsplit : (earlier ++ later).countP Move.isBegin = earlier.countP Move.isBegin + later.countP Move.isBegin :=
    List.countP_append
  have hfold : run f (run f (opened world) earlier) later = run f (opened world) (earlier ++ later) :=
    List.foldl_append.symm
  have hearlier : (run f (opened world) earlier).Sound := by
    apply run_sound f earlier (opened_sound world)
    change 0 + _ < _
    omega
  have hall : (run f (run f (opened world) earlier) later).Sound := by
    rw [hfold]
    apply run_sound f _ (opened_sound world)
    change 0 + _ < _
    omega
  intro s₀ s told
  have htold : told = s.recorded := by
    change _ = (run f (run f (opened world) earlier) later).recorded
    rw [hfold]
    exact (recorded_run f (earlier ++ later) (opened world)).symm
  refine ⟨(List.nodup_append.mp hall.handles).1, fun x k hm => hall.custody hm, hall.entries,
    fun i how k hm => hall.taken_of_finished hm, fun i how k hm => hall.begun_of_taken hm,
    fun i stage hi hleft => run_ended f hi hleft, ?_, fun start fault world' hs => begin_refused hs,
    fun how x e hx => taken_take f hx how, fun now maxIdle => taken_abandon _ _, ?_, ?_, fun k => ?_⟩
  · intro x hx hgone
    exact step_gone f (hearlier.stays_gone hall (run_history f later _) hx hgone)
  · refine (taken_abandon _ _).trans ?_
    rw [Registry.drain, List.map_map]
    rfl
  · rw [htold]
    exact ⟨rfl, rfl⟩
  · rw [htold]
    change ((s.finished.map Prod.snd).filter _).map _ = ((s.finished.filter _).map _).map _
    rw [List.filter_map, List.map_map, List.map_map]
    rfl

/-- A transaction expires while its caller is about to commit it. -/
theorem custody_run_race :
    let f : Finisher (List (Ending × Nat)) Nat :=
      ⟨fun k done => (.ok (), done ++ [(.commit, k)]), fun k done => (.ok (), done ++ [(.rollback, k)])⟩
    let earlier : List (Move (List (Ending × Nat))) :=
      [.begin fun done => (.ok (), done), .advance 0 5 0, .advance 0 5 0, .expire 100 30, .finish .commit "tx_1"]
    let later : List (Move (List (Ending × Nat))) := [.advance 1 101 0]
    let s := run f (run f (opened []) earlier) later
    (earlier ++ later).countP Move.isBegin < Registry.wordSize ∧
      s.Custody "tx_1" 0 ∧
      step f s (.finish .commit "tx_1") = s.note [.failed (.notFound "tx_1")] ∧
      s.session.world = [(.rollback, 0)] := by
  intro f earlier later s
  have hw : (earlier ++ later).countP Move.isBegin < Registry.wordSize := by decide
  have hearlier : (run f (opened []) earlier).begun = [("tx_1", 0)] := by decide
  have hlater : s.begun = [("tx_1", 0)] := by decide
  have hgone : (run f (opened []) earlier).registry.find? "tx_1" = none := rfl
  obtain ⟨-, custody, -, -, -, -, gone, -, -⟩ := custody_run f [] earlier later hw
  refine ⟨hw, custody "tx_1" 0 ?_, (gone "tx_1" ?_ hgone).2 .commit, rfl⟩
  · rw [hlater]
    exact List.mem_cons_self
  · rw [hearlier]
    exact List.mem_cons_self

end Callers

end QueryGateway.Transactions
