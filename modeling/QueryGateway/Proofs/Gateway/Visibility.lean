import QueryGateway.Proofs.Gateway.Handles

namespace QueryGateway.Store.Committed

/-- The tables as a transaction sees them that has read them first at that time and holds changes of its own. -/
def viewWith (s : Committed) (changes : List Change) : List Table :=
  Change.applyAll s.stamp s.tables changes

end QueryGateway.Store.Committed

namespace QueryGateway.Traffic
set_option autoImplicit true

open Store Rpc

def opened (file : Option String) (schema : String) (tables : List Table) (x : Execution)
    (healthTable : Option String) : Traffic :=
  ⟨.new (.ofTables file schema tables) x healthTable, [], []⟩

def committed (t : Traffic) : Committed :=
  t.database.engine.committed

/-- The tables as requests without a handle read them. -/
def sharedView (t : Traffic) : List Table :=
  t.database.engine.view Database.shared

/-- The tables as requests in the transaction `k` read them. -/
def viewIn (t : Traffic) (k : Nat) : List Table :=
  t.database.engine.view (Database.connectionOf k)

/-- The transaction `k` is in use under a handle: it is open, or a unit of work in it is in progress. -/
def InUse (t : Traffic) (handle : String) (k : Nat) : Prop :=
  (∃ e ∈ t.registry.entries, Transactions.handle e.number = handle ∧ e.transaction = k) ∨
    ∃ a before rest, .inside a handle k before rest ∈ t.requests

/-- Nobody has the shared connection, or a request that only reads. -/
def SharedReads (t : Traffic) : Prop :=
  .shared ∉ t.holds ∨ ∃ a rest, .reading a rest ∈ t.requests

theorem opened_sound (file : Option String) (schema : String) (tables : List Table) (x : Execution)
    (healthTable : Option String) : (opened file schema tables x healthTable).SoundFrom ⟨tables, 0⟩ := by
  refine ⟨[], ?_⟩
  have idle : ∀ c, connectionAt [.idle] c = .idle := by
    intro c
    cases c with
    | zero => rfl
    | succ c => rfl
  exact
    { visible := rfl
      orderly := .nil
      size := rfl
      bases := fun c => (idle c).symm ▸ .idle
      shared := fun _ => rfl
      next := rfl
      issued_nodup := .nil
      issued_lt := nofun
      entries := nofun
      stages := nofun
      exclusive := .nil
      transactions := fun handle k hi => nomatch hi.mem
      fresh := fun k hk => absurd hk (Nat.not_lt_zero k)
      known := fun e he => nomatch he }

theorem opened_oneWay (file : Option String) (schema : String) (tables : List Table) (x : Execution)
    (healthTable : Option String) : (opened file schema tables x healthTable).OneWay := by
  rintro handle commit (⟨s, hs, -⟩ | ⟨e, he, -⟩)
  · cases hs
  · cases he

section

variable {start : Committed} {t : Traffic}

theorem SoundFrom.sharedView_eq (h : t.SoundFrom start) (hr : t.SharedReads) :
    t.sharedView = t.committed.tables := by
  obtain ⟨issued, h⟩ := h
  have hidle : t.database.engine.connection Database.shared = .idle := by
    rcases hr with hs | ⟨a, rest, hm⟩
    · exact h.shared_idle hs
    · obtain ⟨i, hi⟩ := List.getElem?_of_mem hm
      obtain ⟨others, hp, -⟩ := singled_out hi
      exact (h.perm hp).reading_idle
  simp only [sharedView, Engine.view, hidle]
  rfl

/-- A transaction sees what was committed at some time, with the changes that were made under its handle. -/
theorem SoundFrom.viewIn_eq (h : t.SoundFrom start) (hu : t.InUse handle k) (ha : t.database.phase k = .active) :
    ∃ earlier own, earlier <+: t.history ∧ (.transaction k ∉ t.holds → own = []) ∧
      t.viewIn k = (start.replay (effects earlier)).viewWith (notedIn handle t.history ++ own) := by
  obtain ⟨issued, h⟩ := h
  have hi : Issued issued handle k := by
    rcases hu with ⟨e, he, rfl, rfl⟩ | ⟨a, before, rest, hm⟩
    · exact h.entries e he
    · exact (h.stages _ hm).1
  have consistent := h.transactions handle k hi
  obtain ⟨own, ho, hown⟩ := consistent.noted ha
  have hin : (t.database.engine.connection (Database.connectionOf k)).inTransaction = true := consistent.begun ha
  change (t.database.engine.connection (Database.connectionOf k)).noted = _ at ho
  cases hc : t.database.engine.connection (Database.connectionOf k) with
  | idle =>
    rw [hc] at hin
    cases hin
  | begun =>
    refine ⟨t.history, own, List.prefix_refl _, hown, ?_⟩
    rw [hc] at ho
    rw [← ho, ← h.visible]
    simp only [viewIn, Engine.view, hc]
    rfl
  | reading p =>
    obtain ⟨earlier, he, hb⟩ := h.bases (Database.connectionOf k) p hc
    refine ⟨earlier, own, he, hown, ?_⟩
    rw [hc] at ho
    rw [← ho, ← hb]
    simp only [viewIn, Engine.view, hc]
    rfl

end

theorem advance_finished (t : Traffic) (now : Nat) (hs : t.requests[i]? = some (.entering a handle k))
    (hp : t.database.phase k ≠ .active) : (t.advance i now).gateway = t.gateway := by
  simp only [advance, hs, enter]
  split
  · rfl
  · split
    · rfl
    · rfl
    · next ha => exact absurd ha hp

/-- Whoever has taken a transaction out ends it as it was asked to and answers that, once nobody works in it. -/
theorem advance_finishing (t : Traffic) (now : Nat) (hs : t.requests[i]? = some (.finishing handle k commit))
    (hfree : .transaction k ∉ t.holds) :
    ∃ result, (t.advance i now).history = t.history ++ [.answered (ending commit handle) result] ∧
      (t.advance i now).requests = t.requests.set i .ended ∧
      ∀ v, result = .ok v → v = Gateway.status (if commit then "committed" else "rolled_back") [] := by
  simp only [advance, hs, finish, if_neg hfree]
  refine ⟨_, rfl, rfl, fun v hv => ?_⟩
  generalize (if commit then t.database.commit k else t.database.rollback k).1 = result at hv
  cases result with
  | error f => cases hv
  | ok _ => exact (Except.ok.inj hv).symm

/-- Nothing that was done under the handle is part of what is committed. -/
structure Unseen (start : Committed) (t : Traffic) (handle : String) : Prop where
  uncommitted : ∀ e ∈ t.history, ¬ e.Commits handle
  committed : t.committed = start.replay (effects (t.history.filter fun e => !e.isUnder handle))

section

variable {start : Committed} {t : Traffic}

theorem SoundFrom.unseen (h : t.SoundFrom start) (hc : ∀ e ∈ t.history, ¬ e.Commits handle) :
    t.Unseen start handle := by
  obtain ⟨issued, h⟩ := h
  exact ⟨hc, by rw [effects_others hc]; exact h.visible⟩

/-- A transaction with a unit of work that failed is not committed, before that or after it. -/
theorem SoundFrom.unseen_failed (h : t.SoundFrom start) (hf : ∃ e ∈ t.history, e.FailsIn handle) :
    t.Unseen start handle := by
  obtain ⟨issued, hs⟩ := h
  obtain ⟨e, he, hfails⟩ := hf
  refine SoundFrom.unseen ⟨issued, hs⟩ fun e' he' hcommits => ?_
  have hnever : ∀ e ∈ t.history, ∀ e' ∈ t.history, e.FailsIn handle → ¬ e'.Commits handle := by
    refine List.Pairwise.forall_of_forall_of_flip (fun e _ hf hc => ?_) (hs.orderly.imp fun hmay => (hmay handle).1)
      (hs.orderly.imp fun hmay hf hc => ((hmay handle).2 hc).1 hf.worksIn)
    cases e with
    | worked => exact hc
    | answered => exact hf
  exact hnever e he e' he' hfails hcommits

theorem not_commits (hc : ¬ t.EndsAs handle true) : ∀ e ∈ t.history, ¬ e.Commits handle :=
  fun e he hcommits => hc (.inr ⟨e, he, hcommits.ends⟩)

/-- A transaction that is taken out by anything but a commit is not committed later. -/
theorem SoundFrom.unseen_taken {m : Move} {back : List Move} (h : ((t.step m).run back).SoundFrom start) (hone : t.OneWay)
    (hknown : t.registry.find? handle ≠ none) (hnone : (t.step m).registry.find? handle = none)
    (hm : ∀ clock, m ≠ .arrive clock (.commit handle)) : ((t.step m).run back).Unseen start handle := by
  have hnot : ¬ (t.step m).EndsAs handle true := by
    intro hends
    rcases hends.of_step with hends | ⟨⟨clock, heq⟩, -⟩
    · exact hknown (hone handle true hends).1.2
    · exact hm clock heq
  obtain ⟨n, hn, hhandle⟩ := issued_of_known hknown
  have hgone : (t.step m).Gone handle :=
    ⟨⟨n, Nat.lt_of_lt_of_le hn (Onward.step t m).registry.next_le, hhandle⟩, hnone⟩
  exact h.unseen (not_commits (hgone.never_ends hnot back))

end

/-- Over every run: what is committed is what the history says, write by write and commit by commit, where what returned
an error counts for nothing; requests without a handle read just that. Nothing shows of a transaction that is still
open, in which a unit of work failed, that was rolled back, whose commit did not succeed, or that was taken out by
anything but a commit: a rollback, a sweep or the close; and once committed it takes no more work and no second commit.
A transaction sees an earlier state of what is committed and changes of its own, and a handle that is not known or no
more changes nothing. -/
theorem visible_run (file : Option String) (schema : String) (tables : List Table) (x : Execution)
    (healthTable : Option String) (moves : List Move) :
    let start : Committed := ⟨tables, 0⟩
    let t := (opened file schema tables x healthTable).run moves
    t.committed = start.replay (effects t.history) ∧
    t.committed = start.replay (effects (t.history.filter fun e => e.result.isOk)) ∧
    (t.SharedReads → t.sharedView = (start.replay (effects t.history)).tables) ∧
    t.history.Pairwise Event.MayPrecede ∧
    (∀ handle, (t.registry.find? handle ≠ none ∨ (∃ e ∈ t.history, e.FailsIn handle) ∨
      (∃ e ∈ t.history, e.Ends handle false) ∨ ∀ e ∈ t.history, ¬ e.Commits handle) → t.Unseen start handle) ∧
    (∀ front m back, moves = front ++ m :: back → ∀ handle,
      let before := (opened file schema tables x healthTable).run front
      before.registry.find? handle ≠ none → (before.step m).registry.find? handle = none →
      (∀ clock, m ≠ .arrive clock (.commit handle)) → t.Unseen start handle) ∧
    (∀ clock commit handle e, t.registry.find? handle = some e →
      let taken := t.step (.arrive clock (ending commit handle))
      (∀ other, taken.registry.find? other = if other = handle then none else t.registry.find? other) ∧
        taken.requests = t.requests ++ [.finishing handle e.transaction commit] ∧ taken.history = t.history) ∧
    (∀ i now handle k commit, t.requests[i]? = some (.finishing handle k commit) → .transaction k ∉ t.holds →
      ∃ result, (t.step (.advance i now)).history = t.history ++ [.answered (ending commit handle) result] ∧
        (t.step (.advance i now)).requests = t.requests.set i .ended ∧
        ∀ v, result = .ok v → v = Gateway.status (if commit then "committed" else "rolled_back") []) ∧
    (∀ now maxIdle handle, (t.step (.sweep now maxIdle)).registry.find? handle =
      (t.registry.find? handle).filter fun e => decide (now ≤ e.lastUsed + maxIdle)) ∧
    (∀ handle, (t.step .close).registry.find? handle = none) ∧
    (∀ handle k, t.InUse handle k → t.database.phase k = .active →
      ∃ earlier own, earlier <+: t.history ∧ (.transaction k ∉ t.holds → own = []) ∧
        t.viewIn k = (start.replay (effects earlier)).viewWith (notedIn handle t.history ++ own)) ∧
    (∀ clock call handle, call.handle? = some handle → t.registry.find? handle = none →
      t.step (.arrive clock call) = t.note (.answered call (unknown handle))) ∧
    (∀ i now a handle k, t.requests[i]? = some (.entering a handle k) → t.database.phase k ≠ .active →
      (t.step (.advance i now)).gateway = t.gateway) ∧
    (∀ e ∈ t.history, ∀ handle, e.Issues handle → t.registry.find? handle = none →
      ∀ later, (t.run later).registry.find? handle = none) := by
  intro start t
  have h₀ : (opened file schema tables x healthTable).SoundFrom start := opened_sound file schema tables x healthTable
  have h : t.SoundFrom start := run_sound h₀ moves
  have hone₀ := opened_oneWay file schema tables x healthTable
  have hone : t.OneWay := hone₀.run moves
  have hv : t.committed = start.replay (effects t.history) := by
    obtain ⟨issued, hs⟩ := h
    exact hs.visible
  refine ⟨hv, hv.trans (by rw [effects_results]), fun hr => ?_, ?_, ?_, ?_, fun clock commit handle e he => ?_,
    fun i now handle k commit hs hfree => advance_finishing t now hs hfree,
    fun now maxIdle handle => t.registry.find?_sweep now maxIdle handle, fun handle => ?_,
    fun handle k => h.viewIn_eq, fun clock call handle => arrive_unknown t clock,
    fun i now a handle k => advance_finished t now, fun e he handle hi hf later => ?_⟩
  · rw [← hv]
    exact h.sharedView_eq hr
  · obtain ⟨issued, hs⟩ := h
    exact hs.orderly
  · rintro handle (hopen | hfailed | ⟨e, he, hends⟩ | huncommitted)
    · exact h.unseen (not_commits fun hends => hopen (hone handle true hends).1.2)
    · exact h.unseen_failed hfailed
    · exact h.unseen (not_commits (hone handle false (.inr ⟨e, he, hends⟩)).2)
    · exact h.unseen huncommitted
  · intro front m back hmoves handle before hknown hgone hm
    have ht : t = (before.step m).run back := by
      change run _ moves = _
      rw [hmoves, run, List.foldl_append]
      rfl
    rw [ht] at h ⊢
    exact h.unseen_taken (hone₀.run front) hknown hgone hm
  · intro taken
    have htaken : taken = _ := arrive_ending t clock commit he
    rw [htaken]
    exact ⟨t.registry.find?_keep_others handle, rfl, rfl⟩
  · exact t.registry.find?_keep_none handle
  · have hissued := issued_run (opened file schema tables x healthTable) (fun _ h => nomatch h) moves e he handle hi
    exact (Gone.run ⟨hissued, hf⟩ later).2

end QueryGateway.Traffic
