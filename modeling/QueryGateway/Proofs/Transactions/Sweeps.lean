import QueryGateway.Proofs.Transactions.Custody

namespace QueryGateway.Transactions
set_option autoImplicit true

open Store

namespace Registry

variable {r r' : Registry τ}

theorem nodup_numbers (r : Registry τ) : (r.entries.map (·.number)).Nodup :=
  List.pairwise_map.mpr r.distinct

theorem find?_eq_some_iff : r.find? h = some e ↔ e ∈ r.entries ∧ handle e.number = h := by
  constructor
  · exact find?_some
  · rintro ⟨hm, rfl⟩
    cases hf : r.find? (handle e.number) with
    | none => exact absurd (beq_self_eq_true _) (List.find?_eq_none.mp hf e hm)
    | some e' =>
      obtain ⟨hm', hh⟩ := find?_some hf
      rw [List.inj_on_of_nodup_map r.nodup_numbers hm' hm (handle_injective hh)]

/-- A handle stands for what it stood for, if that is kept. -/
theorem find?_keep (r : Registry τ) (p : Entry τ → Bool) (h : String) : (r.keep p).find? h = (r.find? h).filter p := by
  apply Option.ext
  intro e
  rw [Option.filter_eq_some_iff, find?_eq_some_iff, find?_eq_some_iff]
  exact (and_congr_left fun _ => List.mem_filter).trans and_right_comm

theorem find?_keep_others (r : Registry τ) (x y : String) :
    (r.keep (handle ·.number != x)).find? y = if y = x then none else r.find? y := by
  rw [find?_keep]
  cases hf : r.find? y with
  | none => exact (ite_self _).symm
  | some e =>
    obtain ⟨-, rfl⟩ := find?_some hf
    split
    · next heq => exact Option.filter_some_neg (bne_eq_false_iff_eq.mpr heq)
    · next hne => exact Option.filter_some_pos (bne_iff_ne.mpr hne)

theorem find?_keep_none (r : Registry τ) (x : String) : (r.keep fun _ => false).find? x = none := by
  rw [find?_keep]
  cases r.find? x <;> rfl

theorem keep_keep (r : Registry τ) (p : Entry τ → Bool) : (r.keep p).keep p = r.keep p := by
  simp only [keep, List.filter_filter, Bool.and_self]

theorem filter_keep_not (r : Registry τ) (p : Entry τ → Bool) : (r.keep (!p ·)).entries.filter p = [] := by
  refine List.filter_eq_nil_iff.mpr fun e he hp => ?_
  have hnot := (List.mem_filter.mp he).2
  rw [hp] at hnot
  cases hnot

theorem openCount_keep (r : Registry τ) (p : Entry τ → Bool) :
    (r.entries.filter p).length + (r.keep (!p ·)).openCount = r.openCount := by
  have hlength := List.length_eq_length_filter_add p (l := r.entries)
  exact hlength.symm

theorem find?_add (r : Registry τ) (k : τ) (now : Nat) :
    (r.add k now).2.find? (r.add k now).1 = some ⟨r.next, k, now⟩ :=
  find?_eq_some_iff.mpr ⟨List.mem_append_right _ (List.mem_singleton_self _), rfl⟩

theorem find?_add_of_some (h : r.find? x = some e) (k : τ) (now : Nat) : (r.add k now).2.find? x = some e := by
  obtain ⟨hm, hh⟩ := find?_some h
  exact find?_eq_some_iff.mpr ⟨List.mem_append_left _ hm, hh⟩

theorem find?_use? (h : r.use? x now = some (k, r')) (y : String) : r'.find? y = (r.find? y).map (touched x now) := by
  obtain ⟨e, -, heq⟩ := Option.map_eq_some_iff.mp h
  cases heq
  have hnumber : (fun e => Transactions.handle e.number == y) ∘ touched x now =
      fun e : Entry τ => Transactions.handle e.number == y := by
    funext e
    exact congrArg (Transactions.handle · == y) (touched_number x now e)
  change (r.entries.map (touched x now)).find? _ = _
  rw [List.find?_map, hnumber]
  rfl

theorem touched_self (h : handle e.number = x) (now : Nat) : touched x now e = { e with lastUsed := now } :=
  if_pos (beq_iff_eq.mpr h)

theorem touched_other (h : handle e.number ≠ x) (now : Nat) : touched x now e = e :=
  if_neg fun heq => h (beq_iff_eq.mp heq)

theorem use?_of_some (h : r.find? x = some e) (now : Nat) : ∃ r', r.use? x now = some (e.transaction, r') := by
  unfold use?
  rw [h]
  exact ⟨_, rfl⟩

theorem isStale_iff : isStale now maxIdle e = true ↔ e.lastUsed + maxIdle < now := by
  rw [isStale, decide_eq_true_eq]
  exact Nat.lt_sub_iff_add_lt'

theorem not_isStale_iff : (!isStale now maxIdle e) = true ↔ now ≤ e.lastUsed + maxIdle := by
  rw [Bool.not_eq_true', ← Bool.not_eq_true, isStale_iff, Nat.not_lt]

theorem taken_sweep (r : Registry τ) (now maxIdle : Nat) :
    (r.sweep now maxIdle).1 =
      (r.entries.filter fun e => decide (e.lastUsed + maxIdle < now)).map (·.transaction) := by
  have hp : isStale now maxIdle = fun e : Entry τ => decide (e.lastUsed + maxIdle < now) := by
    funext e
    rw [Bool.eq_iff_iff, isStale_iff, decide_eq_true_eq]
  rw [← hp]
  rfl

theorem find?_sweep (r : Registry τ) (now maxIdle : Nat) (h : String) :
    (r.sweep now maxIdle).2.find? h = (r.find? h).filter fun e => decide (now ≤ e.lastUsed + maxIdle) := by
  have hp : (!isStale now maxIdle ·) = fun e : Entry τ => decide (now ≤ e.lastUsed + maxIdle) := by
    funext e
    rw [Bool.eq_iff_iff, not_isStale_iff, decide_eq_true_eq]
  rw [← hp]
  exact r.find?_keep _ h

end Registry

namespace Session

def begin (s : Session σ τ) (start : σ → Except Fault τ × σ) (now : Nat) : Except Fault String × Session σ τ :=
  match start s.world with
  | (.error fault, world) => (.error fault, ⟨s.registry, world⟩)
  | (.ok k, world) => (.ok (s.registry.add k now).1, ⟨(s.registry.add k now).2, world⟩)

/-- What a handle stands for. To look it up is to use it. -/
def get (s : Session σ τ) (h : String) (now : Nat) : Except TransactionError τ × Session σ τ :=
  match s.registry.use? h now with
  | none => (.error (.notFound h), s)
  | some (k, registry) => (.ok k, ⟨registry, s.world⟩)

/-- What can be done with the open transactions, with the time at which it is done where that counts. -/
inductive Move (σ τ : Type) where
  | begin (start : σ → Except Fault τ × σ) (now : Nat)
  | get (handle : String) (now : Nat)
  | commit (handle : String)
  | rollback (handle : String)
  | expire (now maxIdle : Nat)
  | rollbackAll

def step (f : Finisher σ τ) (s : Session σ τ) : Move σ τ → Session σ τ
  | .begin start now => (s.begin start now).2
  | .get handle now => (s.get handle now).2
  | .commit handle => (s.commit f handle).2
  | .rollback handle => (s.rollback f handle).2
  | .expire now maxIdle => (s.expire f now maxIdle).2
  | .rollbackAll => (s.rollbackAll f).2

def run (f : Finisher σ τ) (s : Session σ τ) (moves : List (Move σ τ)) : Session σ τ :=
  moves.foldl (step f) s

/-- A move that a transaction under the handle survives, if it was used no earlier than at time `t`: it is not finished,
is looked up no earlier, and a sweep lets it stand idle from then on. -/
def Move.Spares (h : String) (t : Nat) : Move σ τ → Prop
  | begin .. => True
  | get handle now => handle = h → t ≤ now
  | commit handle => handle ≠ h
  | rollback handle => handle ≠ h
  | expire now maxIdle => now ≤ t + maxIdle
  | rollbackAll => False

section

variable {s : Session σ τ} (f : Finisher σ τ)

theorem finish_none (act : τ → σ → Except Fault Unit × σ) (h : s.registry.find? x = none) :
    s.finish act x = (.error (.notFound x), s) := by
  unfold finish Registry.take?
  rw [h]
  rfl

theorem get_none (h : s.registry.find? x = none) (now : Nat) : s.get x now = (.error (.notFound x), s) := by
  unfold get Registry.use?
  rw [h]
  rfl

theorem find?_get (h : (s.get x now).1 = .ok k) :
    ∃ e, (s.get x now).2.registry.find? x = some e ∧ e.transaction = k ∧ now ≤ e.lastUsed := by
  cases hf : s.registry.find? x with
  | none =>
    rw [get_none hf] at h
    cases h
  | some e =>
    obtain ⟨registry, hu⟩ := Registry.use?_of_some hf now
    have hget : s.get x now = (.ok e.transaction, ⟨registry, s.world⟩) := by rw [get, hu]
    rw [hget] at h ⊢
    refine ⟨_, (Registry.find?_use? hu x).trans (congrArg _ hf), ?_, ?_⟩
    · rw [Registry.touched_transaction]
      exact Except.ok.inj h
    · rw [Registry.touched_self (Registry.find?_some hf).2]

theorem find?_finish (act : τ → σ → Except Fault Unit × σ) (hne : x ≠ y) :
    (s.finish act x).2.registry.find? y = s.registry.find? y := by
  cases hf : s.registry.find? x with
  | none => rw [finish_none act hf]
  | some e =>
    have heq : (s.finish act x).2.registry = s.registry.keep (handle ·.number != x) := by
      unfold finish Registry.take?
      rw [hf]
      rfl
    rw [heq, Registry.find?_keep_others]
    exact if_neg hne.symm

theorem find?_expire (s : Session σ τ) (now maxIdle : Nat) (x : String) :
    (s.expire f now maxIdle).2.registry.find? x =
      (s.registry.find? x).filter fun e => decide (now ≤ e.lastUsed + maxIdle) :=
  s.registry.find?_sweep now maxIdle x

theorem step_spared {m : Move σ τ} (hf : s.registry.find? x = some e) (ht : t ≤ e.lastUsed) (hm : m.Spares x t) :
    ∃ e', (step f s m).registry.find? x = some e' ∧ e'.transaction = e.transaction ∧ t ≤ e'.lastUsed := by
  cases m with
  | begin start now =>
    refine ⟨e, ?_, rfl, ht⟩
    rw [step, begin]
    split
    · exact hf
    · exact Registry.find?_add_of_some hf _ now
  | get handle now =>
    rw [step, get]
    split
    · exact ⟨e, hf, rfl, ht⟩
    · next k r hu =>
      refine ⟨_, (Registry.find?_use? hu x).trans (congrArg _ hf), Registry.touched_transaction _ _ _, ?_⟩
      obtain ⟨-, rfl⟩ := Registry.find?_some hf
      by_cases heq : Transactions.handle e.number = handle
      · rw [Registry.touched_self heq]
        exact hm heq.symm
      · rw [Registry.touched_other heq]
        exact ht
  | commit handle => exact ⟨e, (find?_finish f.commit hm).trans hf, rfl, ht⟩
  | rollback handle => exact ⟨e, (find?_finish f.rollback hm).trans hf, rfl, ht⟩
  | expire now maxIdle =>
    refine ⟨e, ?_, rfl, ht⟩
    have hkept : now ≤ e.lastUsed + maxIdle := Nat.le_trans hm (Nat.add_le_add_right ht maxIdle)
    rw [step, find?_expire, hf]
    exact Option.filter_some_pos (decide_eq_true hkept)
  | rollbackAll => exact hm.elim

/-- A transaction that was used is there as long as every move spares it. -/
theorem run_spared (moves : List (Move σ τ)) :
    ∀ {s : Session σ τ} {e : Entry τ}, s.registry.find? x = some e → t ≤ e.lastUsed → (∀ m ∈ moves, m.Spares x t) →
      ∃ e', (run f s moves).registry.find? x = some e' ∧ e'.transaction = e.transaction ∧ t ≤ e'.lastUsed := by
  induction moves with
  | nil =>
    intro s e hf ht _
    exact ⟨e, hf, rfl, ht⟩
  | cons m moves ih =>
    intro s e hf ht hm
    obtain ⟨hfirst, hmore⟩ := List.forall_mem_cons.mp hm
    obtain ⟨e', hf', hk, ht'⟩ := step_spared f hf ht hfirst
    obtain ⟨e'', hf'', hk', ht''⟩ := ih hf' ht' hmore
    exact ⟨e'', hf'', hk'.trans hk, ht''⟩

theorem precedes_finish (s : Session σ τ) (act : τ → σ → Except Fault Unit × σ) (x : String) :
    s.registry.Precedes (s.finish act x).2.registry := by
  unfold finish
  split
  · exact .refl _
  · next ht => exact .take? ht

theorem precedes_step (s : Session σ τ) (m : Move σ τ) : s.registry.Precedes (step f s m).registry := by
  cases m with
  | begin start now =>
    rw [step, begin]
    split
    · exact .refl _
    · exact .add _ _ now
  | get handle now =>
    rw [step, get]
    split
    · exact .refl _
    · next hu => exact .use? hu
  | commit handle => exact s.precedes_finish f.commit handle
  | rollback handle => exact s.precedes_finish f.rollback handle
  | expire now maxIdle => exact .keep _ _
  | rollbackAll => exact .keep _ _

theorem precedes_run (moves : List (Move σ τ)) :
    ∀ s : Session σ τ, s.registry.Precedes (run f s moves).registry := by
  induction moves with
  | nil => exact fun s => .refl _
  | cons m moves ih => exact fun s => (s.precedes_step f m).trans (ih _)

/-- Every transaction that was taken out is rolled back once, and no other one is finished. -/
theorem rollbacks_recorded (ks : List τ) :
    ∀ (world : σ) (calls : List (Ending × τ)),
      ks.foldl (fun w k => (f.recorded.rollback k w).2) (world, calls) =
        (ks.foldl (fun w k => (f.rollback k w).2) world, calls ++ ks.map (.rollback, ·)) := by
  induction ks with
  | nil =>
    intro world calls
    rw [List.map_nil, List.append_nil]
    rfl
  | cons k ks ih =>
    intro world calls
    rw [List.foldl_cons, List.foldl_cons, List.map_cons, List.append_cons]
    exact ih (f.rollback k world).2 _

theorem expire_again (s : Session σ τ) (now maxIdle : Nat) :
    (s.expire f now maxIdle).2.expire f now maxIdle = (0, (s.expire f now maxIdle).2) := by
  have htaken : ((s.expire f now maxIdle).2.registry.entries.filter (Registry.isStale now maxIdle)) = [] :=
    s.registry.filter_keep_not _
  have hkept : (s.expire f now maxIdle).2.registry.keep (!Registry.isStale now maxIdle ·) =
      (s.expire f now maxIdle).2.registry :=
    s.registry.keep_keep _
  rw [expire, Registry.sweep, htaken, hkept]
  rfl

theorem gone_run (hx : s.registry.find? x = some e) {s' : Session σ τ} (hs : s.registry.Precedes s'.registry)
    (hf : s'.registry.find? x = none) (moves : List (Move σ τ)) :
    (run f s' moves).registry.find? x = none := by
  obtain ⟨hm, rfl⟩ := Registry.find?_some hx
  have hn : e.number < s'.registry.next := Nat.lt_of_lt_of_le (s.registry.number_lt e hm) hs.next_le
  exact (precedes_run f moves s').find?_none hn hf

end

/-- A sweep takes out exactly what has not been used for longer than `maxIdle`, tells how many that is, and rolls each of
them back once, whatever comes of it and in whatever order; every other handle stands for the same transaction with the
same time. So the same sweep again does nothing, a more patient one takes nothing else, what was begun or looked up is
spared by every sweep that comes soon enough, and the handles of what was taken are not known from then on. -/
theorem expire_exact (f : Finisher σ τ) (s : Session σ τ) (now maxIdle : Nat) :
    let stale := s.registry.entries.filter fun e => decide (e.lastUsed + maxIdle < now)
    let count := (s.expire f now maxIdle).1
    let swept := (s.expire f now maxIdle).2
    (∀ x, swept.registry.find? x = (s.registry.find? x).filter fun e => decide (now ≤ e.lastUsed + maxIdle)) ∧
    (count = stale.length ∧ count + swept.registry.openCount = s.registry.openCount) ∧
    (expire f.recorded ⟨s.registry, s.world, []⟩ now maxIdle =
      (count, ⟨swept.registry, swept.world, stale.map fun e => (.rollback, e.transaction)⟩)) ∧
    (∀ order : List τ, order.Perm (stale.map (·.transaction)) →
      let told := abandon f.recorded (order, swept.registry) (s.world, [])
      told.1 = count ∧ told.2.registry = swept.registry ∧ told.2.world.2 = order.map (.rollback, ·)) ∧
    swept.expire f now maxIdle = (0, swept) ∧
    (∀ longer, maxIdle ≤ longer → ∀ x, s.registry.find? x ≠ none →
      (s.expire f now longer).2.registry.find? x = none → swept.registry.find? x = none) ∧
    (∀ start t k world, start s.world = (.ok k, world) →
      ∃ x, (s.begin start t).1 = .ok x ∧ ∀ moves, (∀ m ∈ moves, m.Spares x t) →
        ∃ e, (run f (s.begin start t).2 moves).registry.find? x = some e ∧ e.transaction = k) ∧
    (∀ x t k, (s.get x t).1 = .ok k → ∀ moves, (∀ m ∈ moves, m.Spares x t) →
      ∃ e, (run f (s.get x t).2 moves).registry.find? x = some e ∧ e.transaction = k) ∧
    (∀ x, s.registry.find? x ≠ none → swept.registry.find? x = none → ∀ moves,
      let later := run f swept moves
      later.commit f x = (.error (.notFound x), later) ∧ later.rollback f x = (.error (.notFound x), later) ∧
        ∀ t, later.get x t = (.error (.notFound x), later)) := by
  intro stale count swept
  have hstale : stale.map (·.transaction) = (s.registry.sweep now maxIdle).1 := (s.registry.taken_sweep now maxIdle).symm
  have hcount : count = (stale.map (·.transaction)).length := congrArg List.length hstale.symm
  refine ⟨find?_expire f s now maxIdle, ⟨hcount.trans (List.length_map _), ?_⟩, ?_, ?_, expire_again f s now maxIdle,
    ?_, ?_, ?_, ?_⟩
  · have hsplit := s.registry.openCount_keep (Registry.isStale now maxIdle)
    rwa [← List.length_map (·.transaction)] at hsplit
  · have hcalls := rollbacks_recorded f (s.registry.sweep now maxIdle).1 s.world []
    have hends : (s.registry.sweep now maxIdle).1.map (Ending.rollback, ·) =
        stale.map fun e => (.rollback, e.transaction) := by
      rw [← hstale, List.map_map]
      rfl
    rw [expire, abandon, hcalls, List.nil_append, hends]
    rfl
  · intro order hperm told
    have hcalls := rollbacks_recorded f order s.world []
    exact ⟨hperm.length_eq.trans hcount.symm, rfl, congrArg Prod.snd hcalls⟩
  · intro longer hle x hx hgone
    rw [find?_expire, Option.filter_eq_none_iff] at hgone ⊢
    intro e he hkept
    exact hgone e he (decide_eq_true (Nat.le_trans (of_decide_eq_true hkept) (Nat.add_le_add_left hle _)))
  · intro start t k world hstart
    have hbegun : s.begin start t = (.ok (s.registry.add k t).1, ⟨(s.registry.add k t).2, world⟩) := by
      rw [begin, hstart]
    have hadded : (s.begin start t).2.registry.find? (s.registry.add k t).1 = some ⟨s.registry.next, k, t⟩ := by
      rw [hbegun]
      exact s.registry.find?_add k t
    refine ⟨(s.registry.add k t).1, congrArg Prod.fst hbegun, fun moves hspared => ?_⟩
    obtain ⟨e, hf, hk, -⟩ := run_spared f moves hadded (Nat.le_refl t) hspared
    exact ⟨e, hf, hk⟩
  · intro x t k hget moves hspared
    obtain ⟨e, hx, hk, ht⟩ := find?_get hget
    obtain ⟨e', hf, hk', -⟩ := run_spared f moves hx ht hspared
    exact ⟨e', hf, hk'.trans hk⟩
  · intro x hx hgone moves later
    obtain ⟨e, he⟩ := Option.ne_none_iff_exists'.mp hx
    have hlater : later.registry.find? x = none :=
      gone_run f he (.keep _ _) hgone moves
    exact ⟨finish_none f.commit hlater, finish_none f.rollback hlater, get_none hlater⟩

end Session

end QueryGateway.Transactions
