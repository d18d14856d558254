import Mathlib
import QueryGateway.Proofs.Gateway.Effects
import QueryGateway.Proofs.Transactions.Registry

namespace QueryGateway.Traffic
set_option autoImplicit true

open Store Rpc

/-- The transaction of a handle, where `issued` are the transactions that got one, in order. -/
def Issued (issued : List Nat) (handle : String) (k : Nat) : Prop :=
  ∃ n, handle = Transactions.handle (n + 1) ∧ issued[n]? = some k

theorem Issued.mem (h : Issued issued handle k) : k ∈ issued := by
  obtain ⟨n, _, hn⟩ := h
  exact List.mem_of_getElem? hn

theorem Issued.transaction_unique (h : Issued issued handle k) (h' : Issued issued handle k') : k = k' := by
  obtain ⟨n, hh, hn⟩ := h
  obtain ⟨n', hh', hn'⟩ := h'
  have he : n + 1 = n' + 1 := Transactions.handle_injective (hh.symm.trans hh')
  rw [Nat.succ.inj he, hn'] at hn
  exact (Option.some.inj hn).symm

theorem Issued.handle_unique (hd : issued.Nodup) (h : Issued issued handle k) (h' : Issued issued handle' k) :
    handle = handle' := by
  obtain ⟨n, hh, hn⟩ := h
  obtain ⟨n', hh', hn'⟩ := h'
  have he : n = n' := (List.getElem?_inj (List.getElem?_eq_some_iff.mp hn).1 hd).mp (hn.trans hn'.symm)
  rw [hh, hh', he]

theorem Issued.concat (h : Issued issued handle k) (k' : Nat) : Issued (issued ++ [k']) handle k := by
  obtain ⟨n, hh, hn⟩ := h
  exact ⟨n, hh, by rw [List.getElem?_append_left (List.getElem?_eq_some_iff.mp hn).1, hn]⟩

theorem Issued.of_concat (h : Issued (issued ++ [k']) handle k) :
    Issued issued handle k ∨ handle = Transactions.handle (issued.length + 1) ∧ k = k' := by
  obtain ⟨n, hh, hn⟩ := h
  rcases Nat.lt_trichotomy n issued.length with hlt | heq | hgt
  · rw [List.getElem?_append_left hlt] at hn
    exact .inl ⟨n, hh, hn⟩
  · subst heq
    rw [List.getElem?_append_right (Nat.le_refl _), Nat.sub_self] at hn
    exact .inr ⟨hh, (Option.some.inj hn).symm⟩
  · rw [List.getElem?_eq_none (by simp only [List.length_append, List.length_singleton]; omega)] at hn
    cases hn

abbrev connectionAt (connections : List Connection) (c : Nat) : Connection :=
  connections[c]?.getD .idle

abbrev phaseAt (phases : List Phase) (k : Nat) : Phase :=
  phases[k]?.getD .closed

theorem getD_set_self {l : List α} (hi : i < l.length) : (l.set i a)[i]?.getD d = a := by
  rw [List.getElem?_set_self hi, Option.getD_some]

theorem getD_set_ne {l : List α} (h : i ≠ j) : (l.set i a)[j]?.getD d = l[j]?.getD d := by
  rw [List.getElem?_set_ne h]

namespace Stage

/-- What is known of a request from where it is. -/
def Valid (issued : List Nat) (connections : List Connection) (phases : List Phase) (history : List Event) :
    Stage → Prop
  | entering _ handle k => Issued issued handle k
  | inside _ handle k before rest =>
    Issued issued handle k ∧ phaseAt phases k = .active ∧ before = (notedIn handle history).length ∧ rest.Total
  | reading _ rest => rest.ReadOnly
  | writing _ rest => (connectionAt connections 0).inTransaction = true ∧ rest.Total
  | finishing handle k _ => Issued issued handle k
  | registering k => k < phases.length ∧ k ∉ issued
  | abandoning ks => ∀ k ∈ ks, ∃ handle, Issued issued handle k
  | ended => True

def Writes : Stage → Prop
  | writing .. => True
  | _ => False

theorem Writes.holds {s : Stage} (h : s.Writes) : s.holds = some .shared := by
  cases s with
  | writing => rfl
  | _ => exact h.elim

variable {s s' : Stage} {rest : List Stage}

theorem mem_holds_cons :
    x ∈ (s :: rest).filterMap Stage.holds ↔ s.holds = some x ∨ x ∈ rest.filterMap Stage.holds := by
  rw [List.mem_filterMap, List.mem_filterMap]
  exact List.exists_mem_cons_iff (·.holds = some x) s rest

theorem nodup_holds_cons : ((s :: rest).filterMap Stage.holds).Nodup ↔
    (rest.filterMap Stage.holds).Nodup ∧ ∀ x, s.holds = some x → x ∉ rest.filterMap Stage.holds := by
  cases hx : s.holds with
  | none =>
    rw [List.filterMap_cons_none hx]
    exact ⟨fun h => ⟨h, nofun⟩, And.left⟩
  | some x =>
    rw [List.filterMap_cons_some hx, List.nodup_cons, and_comm]
    exact and_congr_right' ⟨fun h y hy => Option.some.inj hy ▸ h, fun h => h x rfl⟩

theorem eq_of_holds (h : s.holds = none ∨ s.holds = some x) (hy : s.holds = some y) : y = x := by
  rcases h with h | h
  · exact nomatch h.symm.trans hy
  · exact Option.some.inj (hy.symm.trans h)

theorem free_cons (h : s.holds = none ∨ s.holds = some x) (hne : y ≠ x)
    (hy : y ∉ (s' :: rest).filterMap Stage.holds) : y ∉ (s :: rest).filterMap Stage.holds := by
  intro hm
  rcases mem_holds_cons.mp hm with hs | hm
  · exact hne (eq_of_holds h hs)
  · exact hy (mem_holds_cons.mpr (.inr hm))

end Stage

/-- What is known of the transaction `k` from its handle. `own` is what the unit of work in progress has noted. -/
structure Consistent (connections : List Connection) (phases : List Phase) (holds : List Hold) (history : List Event)
    (handle : String) (k : Nat) : Prop where
  begun : phaseAt phases k = .active → (connectionAt connections (k + 1)).inTransaction = true
  noted : phaseAt phases k = .active → ∃ own, (connectionAt connections (k + 1)).noted = notedIn handle history ++ own ∧
    (.transaction k ∉ holds → own = [])
  failed : ∀ e ∈ history, e.FailsIn handle → phaseAt phases k ≠ .active
  committed : ∀ e ∈ history, e.Commits handle → phaseAt phases k = .closed

/-- What a connection reads was committed at some time. -/
def Based (start : Committed) (history : List Event) (c : Connection) : Prop :=
  ∀ p, c = .reading p → ∃ earlier, earlier <+: history ∧ ⟨p.base, p.since⟩ = start.replay (effects earlier)

/-- What holds in every state; `issued` are the transactions that got a handle, in order. -/
structure Sound (start : Committed) (issued : List Nat) (registry : Transactions.Registry Nat) (now : Committed)
    (connections : List Connection) (phases : List Phase) (requests : List Stage) (history : List Event) : Prop where
  visible : now = start.replay (effects history)
  orderly : history.Pairwise Event.MayPrecede
  size : connections.length = phases.length + 1
  bases : ∀ c, Based start history (connectionAt connections c)
  shared : (∀ s ∈ requests, ¬ s.Writes) → connectionAt connections 0 = .idle
  next : registry.next = issued.length + 1
  issued_nodup : issued.Nodup
  issued_lt : ∀ k ∈ issued, k < phases.length
  entries : ∀ e ∈ registry.entries, Issued issued (Transactions.handle e.number) e.transaction
  stages : ∀ s ∈ requests, s.Valid issued connections phases history
  exclusive : (requests.filterMap Stage.holds).Nodup
  transactions : ∀ handle k, Issued issued handle k →
    Consistent connections phases (requests.filterMap Stage.holds) history handle k
  /-- Nothing has been done yet in a transaction without a handle. -/
  fresh : ∀ k, k < phases.length → k ∉ issued →
    (phaseAt phases k = .active → (connectionAt connections (k + 1)).inTransaction = true) ∧
      (connectionAt connections (k + 1)).noted = []
  known : ∀ e ∈ history, ∀ handle, e.WorksIn handle ∨ e.Commits handle → ∃ k, Issued issued handle k

section

variable {history : List Event}

theorem Based.append (h : Based start history c) (es : List Event) : Based start (history ++ es) c := by
  intro p hp
  obtain ⟨earlier, he, hb⟩ := h p hp
  exact ⟨earlier, he.trans (List.prefix_append _ _), hb⟩

theorem Based.goesOn {now : Committed} (h : Based start history c) (hv : now = start.replay (effects history))
    (hg : Connection.GoesOn now c c') : Based start history c' := by
  intro p' hp
  rw [hp] at hg
  rcases hg.base with ⟨p, hc, hb, hs⟩ | ⟨hb, hs⟩
  · rw [hb, hs]
    exact h p hc
  · rw [hb, hs]
    exact ⟨history, List.prefix_refl _, hv⟩

theorem orderly_concat {e : Event} (ho : history.Pairwise Event.MayPrecede) (h : ∀ e' ∈ history, e'.MayPrecede e) :
    (history ++ [e]).Pairwise Event.MayPrecede :=
  List.pairwise_append.mpr
    ⟨ho, List.pairwise_singleton _ _, fun e' he' _ hm => List.mem_singleton.mp hm ▸ h e' he'⟩

theorem Based.idle : Based start history .idle := nofun

theorem Based.begun : Based start history .begun := nofun

end

namespace Consistent

variable {connections : List Connection} {phases : List Phase} {held : List Hold} {history : List Event}

theorem of_holds (h : Consistent connections phases held history handle k)
    (hh : .transaction k ∉ held' → .transaction k ∉ held) : Consistent connections phases held' history handle k where
  begun := h.begun
  noted ha := by
    obtain ⟨own, ho, hf⟩ := h.noted ha
    exact ⟨own, ho, fun hk => hf (hh hk)⟩
  failed := h.failed
  committed := h.committed

theorem of_not_active (hp : phaseAt phases k ≠ .active)
    (hc : ∀ e ∈ history, e.Commits handle → phaseAt phases k = .closed) :
    Consistent connections phases held history handle k where
  begun ha := absurd ha hp
  noted ha := absurd ha hp
  failed _ _ _ := hp
  committed := hc

theorem not_committed (h : Consistent connections phases held history handle k) (ha : phaseAt phases k = .active) :
    ∀ e ∈ history, ¬ e.Commits handle :=
  fun e he hc => nomatch ha.symm.trans (h.committed e he hc)

/-- After a unit of work that succeeded nothing is left of it that the history does not tell. -/
theorem worked (h : Consistent connections phases held history handle k) (a : Action) (v : Json)
    (hn : (connectionAt connections (k + 1)).noted = notedIn handle history ++ own) :
    Consistent connections phases held' (history ++ [.worked a (some handle) (.ok v) own]) handle k where
  begun := h.begun
  noted _ := by
    refine ⟨[], ?_, fun _ => rfl⟩
    rw [hn, notedIn_concat, List.append_nil]
    exact congrArg _ (if_pos rfl).symm
  failed e he hf := by
    rcases List.mem_append.mp he with hm | hm
    · exact h.failed e hm hf
    · rw [List.mem_singleton.mp hm] at hf
      exact hf.elim
  committed e he hc := by
    rcases List.mem_append.mp he with hm | hm
    · exact h.committed e hm hc
    · rw [List.mem_singleton.mp hm] at hc
      exact hc.elim

theorem concat (h : Consistent connections phases held history handle k) {e : Event} (hw : ¬ e.WorksIn handle)
    (hc : ¬ e.Commits handle) : Consistent connections phases held (history ++ [e]) handle k where
  begun := h.begun
  noted ha := by
    rw [notedIn_concat, Event.notedIn_of_not_worksIn hw, List.append_nil]
    exact h.noted ha
  failed e' he' := by
    rcases List.mem_append.mp he' with hm | hm
    · exact h.failed e' hm
    · rw [List.mem_singleton.mp hm]
      exact fun hf => (hw hf.worksIn).elim
  committed e' he' := by
    rcases List.mem_append.mp he' with hm | hm
    · exact h.committed e' hm
    · rw [List.mem_singleton.mp hm]
      exact fun hf => (hc hf).elim

theorem append (h : Consistent connections phases held history handle k) {es : List Event}
    (he : ∀ e ∈ es, ¬ e.WorksIn handle ∧ ¬ e.Commits handle) :
    Consistent connections phases held (history ++ es) handle k := by
  induction es generalizing history with
  | nil => rw [List.append_nil]; exact h
  | cons e es ih =>
    rw [List.append_cons]
    have hh := he e List.mem_cons_self
    exact ih (h.concat hh.1 hh.2) fun e' hm => he e' (List.mem_cons_of_mem _ hm)

theorem congr (h : Consistent connections phases held history handle k)
    (hc : connectionAt connections' (k + 1) = connectionAt connections (k + 1))
    (hp : phaseAt phases' k = phaseAt phases k) : Consistent connections' phases' held history handle k where
  begun := by rw [hc, hp]; exact h.begun
  noted := by rw [hc, hp]; exact h.noted
  failed := by rw [hp]; exact h.failed
  committed := by rw [hp]; exact h.committed

end Consistent

namespace Stage.Valid

variable {issued : List Nat} {connections : List Connection} {phases : List Phase} {history : List Event} {s : Stage}

theorem concat (h : s.Valid issued connections phases history) {e : Event}
    (hw : ∀ a handle k before rest, s = .inside a handle k before rest → ¬ e.WorksIn handle) :
    s.Valid issued connections phases (history ++ [e]) := by
  cases s with
  | inside a handle k before rest =>
    obtain ⟨hi, hp, hb, ht⟩ := h
    refine ⟨hi, hp, ?_, ht⟩
    rw [notedIn_concat, Event.notedIn_of_not_worksIn (hw _ _ _ _ _ rfl), List.append_nil]
    exact hb
  | _ => exact h

theorem append (h : s.Valid issued connections phases history) {es : List Event}
    (he : ∀ a handle k before rest, s = .inside a handle k before rest → ∀ e ∈ es, ¬ e.WorksIn handle) :
    s.Valid issued connections phases (history ++ es) := by
  induction es generalizing history with
  | nil => rw [List.append_nil]; exact h
  | cons e es ih =>
    rw [List.append_cons]
    exact ih (h.concat fun a handle k before rest hs => he a handle k before rest hs e List.mem_cons_self)
      fun a handle k before rest hs e' hm => he a handle k before rest hs e' (List.mem_cons_of_mem _ hm)

theorem congr_connections (h : s.Valid issued connections phases history)
    (hc : s.Writes → (connectionAt connections' 0).inTransaction = true) :
    s.Valid issued connections' phases history := by
  cases s with
  | writing a rest => exact ⟨hc trivial, h.2⟩
  | _ => exact h

theorem congr_phases (h : s.Valid issued connections phases history) (hl : phases'.length = phases.length)
    (hp : ∀ k, s.holds = some (.transaction k) → phaseAt phases' k = phaseAt phases k) :
    s.Valid issued connections phases' history := by
  cases s with
  | inside a handle k before rest =>
    obtain ⟨hi, ha, hb, ht⟩ := h
    exact ⟨hi, (hp k rfl).trans ha, hb, ht⟩
  | registering k => exact ⟨by rw [hl]; exact h.1, h.2⟩
  | _ => exact h

end Stage.Valid

namespace Sound

variable {start now : Committed} {issued : List Nat} {registry : Transactions.Registry Nat}
  {connections : List Connection} {phases : List Phase} {requests rest : List Stage} {history : List Event}

theorem perm (h : Sound start issued registry now connections phases requests history)
    (hp : requests.Perm requests') : Sound start issued registry now connections phases requests' history :=
  { h with
    shared := fun hs => h.shared fun s hm => hs s (hp.mem_iff.mp hm)
    stages := fun s hm => h.stages s (hp.mem_iff.mpr hm)
    exclusive := (hp.filterMap _).nodup_iff.mp h.exclusive
    transactions := fun handle k hi =>
      (h.transactions handle k hi).of_holds fun hk hm => hk ((hp.filterMap _).mem_iff.mp hm) }

theorem note (h : Sound start issued registry now connections phases requests history) {e : Event}
    (hw : ∀ handle, ¬ e.WorksIn handle) (hc : ∀ handle, ¬ e.Commits handle) :
    Sound start issued registry (now.replay (e.effects history)) connections phases requests (history ++ [e]) :=
  { h with
    visible := by rw [effects_concat, Committed.replay_append, ← h.visible]
    orderly := orderly_concat h.orderly fun e' _ => .of_not_commits hc fun handle _ => hw handle
    bases := fun c => (h.bases c).append [e]
    stages := fun s hm => (h.stages s hm).concat fun _ handle _ _ _ _ => hw handle
    transactions := fun handle k hi => (h.transactions handle k hi).concat (hw handle) (hc handle)
    known := fun e' hm handle hk => by
      rcases List.mem_append.mp hm with hm | hm
      · exact h.known e' hm handle hk
      · rw [List.mem_singleton.mp hm] at hk
        exact (hk.elim (hw handle) (hc handle)).elim }

theorem quiet (h : Sound start issued registry now connections phases requests history) {e : Event} (he : e.Quiet) :
    Sound start issued registry now connections phases requests (history ++ [e]) := by
  have hn := h.note he.not_worksIn he.not_commits
  rw [he.effects] at hn
  exact hn

theorem withRegistry (h : Sound start issued registry now connections phases requests history)
    (hn : registry'.next = registry.next)
    (he : ∀ e ∈ registry'.entries, ∃ e' ∈ registry.entries, e.number = e'.number ∧ e.transaction = e'.transaction) :
    Sound start issued registry' now connections phases requests history :=
  { h with
    next := hn.trans h.next
    entries := fun e hm => by
      obtain ⟨e', hm', hn, ht⟩ := he e hm
      rw [hn, ht]
      exact h.entries e' hm' }

theorem add (h : Sound start issued registry now connections phases requests history)
    (hs : s.Valid issued connections phases history)
    (hf : ∀ x, s.holds = some x → x ∉ requests.filterMap Stage.holds) :
    Sound start issued registry now connections phases (s :: requests) history :=
  { h with
    shared := fun hw => h.shared fun s hm => hw s (List.mem_cons_of_mem _ hm)
    stages := fun s' hm => by
      rcases List.mem_cons.mp hm with rfl | hm
      · exact hs
      · exact h.stages s' hm
    exclusive := Stage.nodup_holds_cons.mpr ⟨h.exclusive, hf⟩
    transactions := fun handle k hi =>
      (h.transactions handle k hi).of_holds fun hk hm => hk (Stage.mem_holds_cons.mpr (.inr hm)) }

theorem exclusive_rest (h : Sound start issued registry now connections phases (s :: rest) history) :
    (rest.filterMap Stage.holds).Nodup ∧ ∀ x, s.holds = some x → x ∉ rest.filterMap Stage.holds :=
  Stage.nodup_holds_cons.mp h.exclusive

theorem not_writes_rest (h : Sound start issued registry now connections phases (s :: rest) history)
    (hs : s.holds = some .shared) : ∀ s' ∈ rest, ¬ s'.Writes :=
  fun _ hm hw => h.exclusive_rest.2 _ hs (List.mem_filterMap.mpr ⟨_, hm, hw.holds⟩)

theorem reading_idle (h : Sound start issued registry now connections phases (.reading a w :: rest) history) :
    connectionAt connections 0 = .idle :=
  h.shared fun s hm => by
    rcases List.mem_cons.mp hm with rfl | hm
    · exact id
    · exact h.not_writes_rest rfl s hm

theorem drop (h : Sound start issued registry now connections phases (s :: rest) history) (hw : ¬ s.Writes)
    (hs : ∀ k, s.holds ≠ some (.transaction k)) :
    Sound start issued registry now connections phases rest history :=
  { h with
    shared := fun hr => h.shared fun s' hm => by
      rcases List.mem_cons.mp hm with rfl | hm
      · exact hw
      · exact hr s' hm
    stages := fun s' hm => h.stages s' (List.mem_cons_of_mem _ hm)
    exclusive := h.exclusive_rest.1
    transactions := fun handle k hi => (h.transactions handle k hi).of_holds fun hk hm =>
      (Stage.mem_holds_cons.mp hm).elim (hs k) hk }

theorem swap (h : Sound start issued registry now connections phases (s :: rest) history) (s' : Stage)
    (hs : s'.Valid issued connections phases history) (hh : s'.holds = s.holds) (hw : s.Writes → s'.Writes) :
    Sound start issued registry now connections phases (s' :: rest) history := by
  have hf : (s' :: rest).filterMap Stage.holds = (s :: rest).filterMap Stage.holds := by
    simp only [List.filterMap_cons, hh]
  exact
    { h with
      shared := fun hr => h.shared fun s'' hm => by
        rcases List.mem_cons.mp hm with rfl | hm
        · exact fun hs => hr s' List.mem_cons_self (hw hs)
        · exact hr s'' (List.mem_cons_of_mem _ hm)
      stages := fun s'' hm => by
        rcases List.mem_cons.mp hm with rfl | hm
        · exact hs
        · exact h.stages s'' (List.mem_cons_of_mem _ hm)
      exclusive := by rw [hf]; exact h.exclusive
      transactions := fun handle k hi => by rw [hf]; exact h.transactions handle k hi }

/-- The request that has the shared connection, or takes it while nobody has it, changes its state. -/
theorem setShared (h : Sound start issued registry now connections phases (s :: rest) history) (s' : Stage)
    (hf : .shared ∉ rest.filterMap Stage.holds) (hs : s.holds = none ∨ s.holds = some .shared)
    (hs' : s'.holds = none ∨ s'.holds = some .shared) (hb : Based start history c')
    (hv : s'.Valid issued (connections.set 0 c') phases history) (hw : ¬ s'.Writes → c' = .idle) :
    Sound start issued registry now (connections.set 0 c') phases (s' :: rest) history := by
  have hlen : 0 < connections.length := by rw [h.size]; omega
  have hne : ∀ k, connectionAt (connections.set 0 c') (k + 1) = connectionAt connections (k + 1) :=
    fun k => getD_set_ne (Nat.zero_ne_add_one k)
  have hrest : ∀ s'' ∈ rest, ¬ s''.Writes :=
    fun _ hm hw => hf (List.mem_filterMap.mpr ⟨_, hm, hw.holds⟩)
  exact
    { h with
      size := by rw [List.length_set]; exact h.size
      bases := fun c => by
        cases c with
        | zero =>
          have hc : connectionAt (connections.set 0 c') 0 = c' := getD_set_self hlen
          rw [hc]
          exact hb
        | succ k => rw [hne]; exact h.bases (k + 1)
      shared := fun hr => (getD_set_self hlen).trans (hw (hr s' List.mem_cons_self))
      stages := fun s'' hm => by
        rcases List.mem_cons.mp hm with rfl | hm
        · exact hv
        · exact (h.stages s'' (List.mem_cons_of_mem _ hm)).congr_connections fun hw => (hrest s'' hm hw).elim
      exclusive := Stage.nodup_holds_cons.mpr ⟨h.exclusive_rest.1, fun x hx => Stage.eq_of_holds hs' hx ▸ hf⟩
      transactions := fun handle k hi =>
        ((h.transactions handle k hi).of_holds (Stage.free_cons hs nofun)).congr (hne k) rfl
      fresh := fun k hk hi => by rw [hne]; exact h.fresh k hk hi }

/-- The request that has a transaction, or takes it while nobody has it, changes its state. -/
theorem setTransaction (h : Sound start issued registry now connections phases (s :: rest) history)
    (es : List Event) (now' : Committed) (c' : Connection) (p' : Phase) (s' : Stage)
    (hi : Issued issued handle k) (hf : .transaction k ∉ rest.filterMap Stage.holds)
    (hs : s.holds = none ∨ s.holds = some (.transaction k)) (hs' : s'.holds = none ∨ s'.holds = some (.transaction k))
    (hn : now' = start.replay (effects (history ++ es))) (ho : (history ++ es).Pairwise Event.MayPrecede)
    (he : ∀ e ∈ es, ∀ handle', handle' ≠ handle → ¬ e.WorksIn handle' ∧ ¬ e.Commits handle')
    (hb : Based start history c')
    (hv : s'.Valid issued (connections.set (k + 1) c') (phases.set k p') (history ++ es))
    (hc : Consistent (connections.set (k + 1) c') (phases.set k p') ((s' :: rest).filterMap Stage.holds)
      (history ++ es) handle k) :
    Sound start issued registry now' (connections.set (k + 1) c') (phases.set k p') (s' :: rest) (history ++ es) := by
  have hk : k < phases.length := h.issued_lt k hi.mem
  have hw : ¬ s.Writes := fun hw => nomatch Stage.eq_of_holds hs hw.holds
  have h0 : connectionAt (connections.set (k + 1) c') 0 = connectionAt connections 0 :=
    getD_set_ne (Nat.succ_ne_zero k)
  have hconn : ∀ j, j ≠ k → connectionAt (connections.set (k + 1) c') (j + 1) = connectionAt connections (j + 1) :=
    fun j hj => getD_set_ne fun he => hj (Nat.succ.inj he).symm
  have hphase : ∀ j, j ≠ k → phaseAt (phases.set k p') j = phaseAt phases j :=
    fun j hj => getD_set_ne (Ne.symm hj)
  have hheld : ∀ j, j ≠ k → .transaction j ∉ (s' :: rest).filterMap Stage.holds →
      .transaction j ∉ (s :: rest).filterMap Stage.holds :=
    fun j hj => Stage.free_cons hs fun he => hj (Hold.transaction.inj he)
  exact
    { h with
      visible := hn
      orderly := ho
      size := by rw [List.length_set, List.length_set]; exact h.size
      bases := fun c => by
        rcases eq_or_ne (k + 1) c with rfl | hne
        · have hcc : connectionAt (connections.set (k + 1) c') (k + 1) = c' :=
            getD_set_self (by rw [h.size]; omega)
          rw [hcc]
          exact hb.append es
        · have hcc : connectionAt (connections.set (k + 1) c') c = connectionAt connections c := getD_set_ne hne
          rw [hcc]
          exact (h.bases c).append es
      shared := fun hr => by
        rw [h0]
        apply h.shared
        intro s'' hm
        rcases List.mem_cons.mp hm with rfl | hm
        · exact hw
        · exact hr s'' (List.mem_cons_of_mem _ hm)
      issued_lt := by rw [List.length_set]; exact h.issued_lt
      stages := fun s'' hm => by
        rcases List.mem_cons.mp hm with rfl | hm
        · exact hv
        · have hv'' := h.stages s'' (List.mem_cons_of_mem _ hm)
          have hother : ∀ j, s''.holds = some (.transaction j) → j ≠ k := fun j hj hjk =>
            hf (List.mem_filterMap.mpr ⟨s'', hm, by rw [hj, hjk]⟩)
          refine ((hv''.congr_connections fun hw'' => ?_).congr_phases List.length_set fun j hj =>
            hphase j (hother j hj)).append fun a handle' j before w hs'' e hme => ?_
          · rw [h0]
            cases s'' with
            | writing => exact hv''.1
            | _ => exact hw''.elim
          · subst hs''
            refine (he e hme handle' fun heq => hother j rfl ?_).1
            exact Issued.transaction_unique (heq ▸ hv''.1) hi
      exclusive := Stage.nodup_holds_cons.mpr ⟨h.exclusive_rest.1, fun x hx => Stage.eq_of_holds hs' hx ▸ hf⟩
      transactions := fun handle' j hj => by
        rcases eq_or_ne j k with rfl | hjk
        · rw [Issued.handle_unique h.issued_nodup hj hi]
          exact hc
        · have hne : handle' ≠ handle := fun heq => hjk (Issued.transaction_unique (heq ▸ hj) hi)
          exact (((h.transactions handle' j hj).of_holds (hheld j hjk)).congr (hconn j hjk) (hphase j hjk)).append
            fun e hm => he e hm handle' hne
      fresh := fun j hj hnot => by
        have hjk : j ≠ k := fun heq => hnot (heq ▸ hi.mem)
        rw [hconn j hjk, hphase j hjk]
        rw [List.length_set] at hj
        exact h.fresh j hj hnot
      known := fun e hm handle' hk => by
        rcases List.mem_append.mp hm with hm | hm
        · exact h.known e hm handle' hk
        · rcases eq_or_ne handle' handle with heq | hne
          · rw [heq]
            exact ⟨k, hi⟩
          · exact (hk.elim (he e hm handle' hne).1 (he e hm handle' hne).2).elim }

theorem begin (h : Sound start issued registry now connections phases requests history) :
    Sound start issued registry now (connections ++ [.begun]) (phases ++ [.active])
      (.registering phases.length :: requests) history := by
  have hconn : ∀ c, c < connections.length →
      connectionAt (connections ++ [.begun]) c = connectionAt connections c := by
    intro c hc
    simp only [connectionAt, List.getElem?_append_left hc]
  have hphase : ∀ k, k < phases.length → phaseAt (phases ++ [.active]) k = phaseAt phases k := by
    intro k hk
    simp only [phaseAt, List.getElem?_append_left hk]
  have hnew : connectionAt (connections ++ [.begun]) (phases.length + 1) = .begun := by
    simp only [connectionAt, ← h.size, List.getElem?_concat_length, Option.getD_some]
  have hactive : ∀ k, phaseAt phases k = .active → k < phases.length := by
    intro k hk
    apply Nat.lt_of_not_ge
    intro hge
    rw [phaseAt, List.getElem?_eq_none hge] at hk
    cases hk
  have hfresh : ∀ s ∈ requests, s.holds ≠ some (.unregistered phases.length) := by
    intro s hm hs
    have hv := h.stages s hm
    cases s with
    | registering k =>
      cases hs
      exact absurd hv.1 (Nat.lt_irrefl _)
    | _ => cases hs
  exact
    { h with
      size := by simp only [List.length_append, List.length_singleton, h.size]
      bases := fun c => by
        rcases Nat.lt_trichotomy c connections.length with hlt | rfl | hgt
        · rw [hconn c hlt]
          exact h.bases c
        · rw [h.size, hnew]
          exact .begun
        · have hc : connectionAt (connections ++ [.begun]) c = .idle := by
            rw [connectionAt, List.getElem?_eq_none (by simp only [List.length_append, List.length_singleton]; omega),
              Option.getD_none]
          rw [hc]
          exact .idle
      shared := fun hr => by
        rw [hconn 0 (by rw [h.size]; omega)]
        exact h.shared fun s hm => hr s (List.mem_cons_of_mem _ hm)
      issued_lt := fun k hk => by
        have hlt := h.issued_lt k hk
        simp only [List.length_append, List.length_singleton]
        omega
      stages := fun s hm => by
        rcases List.mem_cons.mp hm with rfl | hm
        · exact ⟨by simp only [List.length_append, List.length_singleton]; omega,
            fun hk => Nat.lt_irrefl _ (h.issued_lt _ hk)⟩
        · have hv := h.stages s hm
          cases s with
          | inside a handle k before rest =>
            obtain ⟨hi, ha, hb, ht⟩ := hv
            exact ⟨hi, (hphase k (hactive k ha)).trans ha, hb, ht⟩
          | writing a rest =>
            refine ⟨?_, hv.2⟩
            rw [hconn 0 (by rw [h.size]; omega)]
            exact hv.1
          | registering k =>
            refine ⟨?_, hv.2⟩
            have hlt := hv.1
            simp only [List.length_append, List.length_singleton]
            omega
          | _ => exact hv
      exclusive := by
        refine Stage.nodup_holds_cons.mpr ⟨h.exclusive, fun x hx hm => ?_⟩
        obtain ⟨s, hm', hs⟩ := List.mem_filterMap.mp hm
        exact hfresh s hm' (hs.trans hx.symm)
      transactions := fun handle k hi => by
        have hk := h.issued_lt k hi.mem
        exact ((h.transactions handle k hi).of_holds fun hn hm => hn (Stage.mem_holds_cons.mpr (.inr hm))).congr
          (hconn (k + 1) (by rw [h.size]; omega)) (hphase k hk)
      fresh := fun k hk hn => by
        rcases Nat.lt_or_ge k phases.length with hlt | hge
        · rw [hconn (k + 1) (by rw [h.size]; omega), hphase k hlt]
          exact h.fresh k hlt hn
        · have he : k = phases.length := by
            simp only [List.length_append, List.length_singleton] at hk
            omega
          rw [he, hnew]
          exact ⟨fun _ => rfl, rfl⟩ }

theorem not_known (h : Sound start issued registry now connections phases requests history) {e : Event}
    (he : e ∈ history) :
    ¬ (e.WorksIn (Transactions.handle (issued.length + 1)) ∨ e.Commits (Transactions.handle (issued.length + 1))) := by
  intro hk
  obtain ⟨k, n, hh, hn⟩ := h.known e he _ hk
  have heq : issued.length + 1 = n + 1 := Transactions.handle_injective hh
  have hlt := (List.getElem?_eq_some_iff.mp hn).1
  omega

theorem notedIn_new (h : Sound start issued registry now connections phases requests history) :
    notedIn (Transactions.handle (issued.length + 1)) history = [] :=
  List.flatMap_eq_nil_iff.mpr fun _ he => Event.notedIn_of_not_worksIn fun hw => h.not_known he (.inl hw)

/-- The transaction gets a handle that was never issued. -/
theorem register (h : Sound start issued registry now connections phases (.registering k :: rest) history)
    (time : Nat) :
    Sound start (issued ++ [k]) (registry.add k time).2 now connections phases rest history := by
  obtain ⟨hk, hnot⟩ := h.stages _ List.mem_cons_self
  have hd := h.drop id nofun
  exact
    { hd with
      next := by
        rw [List.length_append, List.length_singleton]
        exact congrArg (· + 1) h.next
      issued_nodup := List.nodup_append.mpr ⟨h.issued_nodup, List.nodup_singleton k, fun a ha b hb => by
        rw [List.mem_singleton.mp hb]
        exact fun heq => hnot (heq ▸ ha)⟩
      issued_lt := fun j hj => by
        rcases List.mem_append.mp hj with hm | hm
        · exact h.issued_lt j hm
        · rw [List.mem_singleton.mp hm]
          exact hk
      entries := fun e he => by
        rcases List.mem_append.mp he with hm | hm
        · exact (h.entries e hm).concat k
        · rw [List.mem_singleton.mp hm]
          exact ⟨issued.length, by rw [← h.next], by rw [List.getElem?_concat_length]⟩
      stages := fun s hm => by
        have hv := hd.stages s hm
        cases s with
        | entering a handle j => exact Issued.concat hv k
        | inside a handle j before w => exact ⟨hv.1.concat k, hv.2⟩
        | finishing handle j commit => exact Issued.concat hv k
        | abandoning ks =>
          intro j hj
          obtain ⟨handle, hi⟩ := hv j hj
          exact ⟨handle, hi.concat k⟩
        | registering j =>
          refine ⟨hv.1, fun hj => ?_⟩
          rcases List.mem_append.mp hj with hj | hj
          · exact hv.2 hj
          · rw [List.mem_singleton.mp hj] at hm
            exact h.exclusive_rest.2 _ rfl (List.mem_filterMap.mpr ⟨_, hm, rfl⟩)
        | _ => exact hv
      transactions := fun handle j hj => by
        rcases hj.of_concat with hj | ⟨rfl, rfl⟩
        · exact hd.transactions handle j hj
        · obtain ⟨hb, hn⟩ := h.fresh j hk hnot
          refine ⟨hb, fun _ => ⟨[], ?_, fun _ => rfl⟩, fun e he hf => ?_, fun e he hc => ?_⟩
          · rw [hn, h.notedIn_new]
            rfl
          · exact (h.not_known he (.inl hf.worksIn)).elim
          · exact (h.not_known he (.inr hc)).elim
      fresh := fun j hj hn => h.fresh j hj fun hm => hn (List.mem_append_left _ hm)
      known := fun e he handle hk => by
        obtain ⟨j, hj⟩ := h.known e he handle hk
        exact ⟨j, hj.concat k⟩ }

end Sound

end QueryGateway.Traffic
