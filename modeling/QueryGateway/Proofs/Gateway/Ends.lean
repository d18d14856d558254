import QueryGateway.Proofs.Gateway.Steps

namespace QueryGateway.Traffic
set_option autoImplicit true

open Store Rpc

variable {start : Committed} {t : Traffic}

/-- A unit of work that succeeds adds what it noted to its transaction; one that fails spoils it. -/
theorem leave_sound (h : t.SoundFrom start) (hs : t.requests[i]? = some (.inside a handle k before (.finish outcome))) :
    (t.leave i a handle k before outcome).SoundFrom start := by
  obtain ⟨issued, h⟩ := h
  obtain ⟨rest, hp, hset⟩ := singled_out hs
  have hc := h.perm hp
  obtain ⟨hi, ha, hb, ht⟩ := hc.stages _ List.mem_cons_self
  have consistent := h.transactions handle k hi
  obtain ⟨own, hown, -⟩ := consistent.noted ha
  have hk := h.issued_lt k hi.mem
  have hchanges : (t.noted (Database.connectionOf k)).drop before = own := by
    rw [noted_eq_noted]
    change ((connectionAt t.database.engine.connections (k + 1)).noted).drop before = own
    rw [hown, hb, List.drop_left]
  have ended : ∀ (result : Except Failure Json) (p' : Phase),
      Consistent t.database.engine.connections (t.database.phases.set k p') ((.ended :: rest).filterMap Stage.holds)
        (t.history ++ [.worked a (some handle) result own]) handle k →
      Sound start issued t.registry t.database.engine.committed t.database.engine.connections
        (t.database.phases.set k p') (t.requests.set i .ended)
        (t.history ++ [.worked a (some handle) result own]) := by
    intro result p' hcons
    have hset' := hc.setTransaction [.worked a (some handle) result own] t.database.engine.committed
      (connectionAt t.database.engine.connections (k + 1)) p' .ended hi (hc.exclusive_rest.2 _ rfl) (.inr rfl)
      (.inl rfl)
    rw [set_getD_self] at hset'
    refine (hset' ?_ ?_ ?_ (h.bases _) trivial hcons).perm (hset _).symm
    · rw [effects_concat]
      have he : (Event.worked a (some handle) result own).effects t.history = [] := by cases result <;> rfl
      rw [he, List.append_nil]
      exact h.visible
    · refine orderly_concat h.orderly fun e he => .of_not_commits (fun _ => id) fun handle' hcom hw => ?_
      -- the transaction takes work, so it has not been committed
      have heq : handle = handle' := hw
      subst heq
      exact consistent.not_committed ha e he hcom
    · intro e he handle' hne
      rw [List.mem_singleton.mp he]
      exact ⟨fun hw => hne (Eq.symm hw), id⟩
  unfold leave
  rw [hchanges]
  cases ht with
  | done v =>
    have hact : t.database.phases.set k .active = t.database.phases := by
      rw [← ha]
      exact set_getD_self _ _
    have hr := ended (.ok v) .active
    rw [hact] at hr
    exact ⟨issued, hr (consistent.worked a v hown)⟩
  | failed f =>
    have spoiled : phaseAt (t.database.phases.set k .spoiled) k = .spoiled := getD_set_self hk
    refine ⟨issued, ended (.error f) .spoiled (.of_not_active (by rw [spoiled]; exact nofun) fun e he hcom => ?_)⟩
    rcases List.mem_append.mp he with hm | hm
    · exact absurd hcom (consistent.not_committed ha e hm)
    · rw [List.mem_singleton.mp hm] at hcom
      exact hcom.elim

theorem conclude_done (t : Traffic) (i : Nat) (a : Action) (v : Json) :
    t.conclude i a (.done v) =
      ((t.withDatabase (t.database.command Database.shared .commit).2).turn i .ended).note
        (.worked a none (((t.database.command Database.shared .commit).1.map fun _ => v).mapError .ofFault)
          (t.noted Database.shared)) := by
  unfold conclude
  rcases t.database.command Database.shared .commit with ⟨result, d⟩
  cases result with
  | ok u => rfl
  | error f => rfl

/-- A write outside of a transaction is visible exactly when it is answered with a result. -/
theorem conclude_sound (h : t.SoundFrom start) (hs : t.requests[i]? = some (.writing a (.finish outcome))) :
    (t.conclude i a outcome).SoundFrom start := by
  obtain ⟨issued, h⟩ := h
  obtain ⟨rest, hp, hset⟩ := singled_out hs
  have hc := h.perm hp
  obtain ⟨hin, ht⟩ := hc.stages _ List.mem_cons_self
  change (t.database.engine.connection Database.shared).inTransaction = true at hin
  have hidle : Sound start issued t.registry t.database.engine.committed
      (t.database.engine.connections.set Database.shared .idle) t.database.phases (t.requests.set i .ended) t.history :=
    (hc.setShared .ended (hc.exclusive_rest.2 _ rfl) (.inr rfl) (.inl rfl) .idle trivial
    fun _ => rfl).perm (hset _).symm
  have noted (result : Except Failure Json) := hidle.note (e := .worked a none result (t.noted Database.shared))
    (fun _ => id) (fun _ => id)
  cases ht with
  | done v =>
    have hconn := Engine.connections_commit hin
    rw [conclude_done]
    have hr : (t.database.command Database.shared .commit).1 = (t.database.engine.commit Database.shared).1 := rfl
    cases hcommit : (t.database.engine.commit Database.shared).1 with
    | ok u =>
      have he := Engine.committed_commit hin hcommit
      have hn := noted (.ok v)
      have hnow : t.database.engine.committed.replay
          ((Event.worked a none (.ok v) (t.noted Database.shared)).effects t.history) =
          t.database.engine.committed.apply (t.database.engine.connection Database.shared).noted := by
        rw [noted_eq_noted]
        rfl
      rw [hnow, ← he, ← hconn] at hn
      rw [hr, hcommit]
      exact ⟨issued, hn⟩
    | error f =>
      have hn := noted (.error (.ofFault f))
      have hnow : t.database.engine.committed.replay
          ((Event.worked a none (.error (.ofFault f)) (t.noted Database.shared)).effects t.history) =
          t.database.engine.committed := rfl
      rw [hnow, ← Engine.committed_commit_error hcommit, ← hconn] at hn
      rw [hr, hcommit]
      exact ⟨issued, hn⟩
  | failed f =>
    have hn := noted (.error f)
    have hnow : t.database.engine.committed.replay
        ((Event.worked a none (.error f) (t.noted Database.shared)).effects t.history) =
        t.database.engine.committed := rfl
    have hroll := Engine.rollback_inside hin
    have he : (t.database.command Database.shared .rollback).2.engine =
        t.database.engine.setConnection Database.shared .idle := congrArg Prod.snd hroll
    rw [hnow] at hn
    refine ⟨issued, ?_⟩
    unfold conclude
    change Sound start issued t.registry (t.database.command Database.shared .rollback).2.engine.committed
      (t.database.command Database.shared .rollback).2.engine.connections _ _ _
    rw [he]
    exact hn

theorem undone_sound {d : Database} (h : t.SoundFrom start) (hs : t.requests[i]? = some s) (hh : s.holds = none)
    (hv : ∀ issued, s.Valid issued t.database.engine.connections t.database.phases t.history →
      ∃ handle, Issued issued handle k)
    (hf : .transaction k ∉ t.holds) (hu : t.database.Undone d k) (hh' : s'.holds = none)
    (hv' : ∀ issued connections phases, s.Valid issued t.database.engine.connections t.database.phases t.history →
      s'.Valid issued connections phases t.history) :
    ((t.withDatabase d).turn i s').SoundFrom start := by
  obtain ⟨issued, h⟩ := h
  obtain ⟨rest, hp, hset⟩ := singled_out hs
  have hc := h.perm hp
  have hvs := hc.stages s List.mem_cons_self
  obtain ⟨handle, hi⟩ := hv issued hvs
  have hr := (hc.undo s' hi (not_mem_rest hp hf) hh hh' (fun _ _ => hv' _ _ _ hvs) hu.connections).perm
    (hset _).symm
  rw [← hu.phases, ← hu.committed] at hr
  exact ⟨issued, hr⟩

theorem note_quiet (h : t.SoundFrom start) {e : Event} (he : e.Quiet) : (t.note e).SoundFrom start := by
  obtain ⟨issued, h⟩ := h
  exact ⟨issued, h.quiet he⟩

/-- A transaction that has not failed is committed: what it noted becomes visible, and nothing more. -/
theorem commit_sound (h : t.SoundFrom start) (hs : t.requests[i]? = some (.finishing handle k true))
    (hf : .transaction k ∉ t.holds) (ha : t.database.phase k = .active) (hr : (t.database.commit k).1 = .ok ())
    (v : Json) :
    (((t.withDatabase (t.database.commit k).2).turn i .ended).note (.answered (.commit handle) (.ok v))).SoundFrom
      start := by
  obtain ⟨issued, h⟩ := h
  obtain ⟨rest, hp, hset⟩ := singled_out hs
  have hc := h.perm hp
  have hi : Issued issued handle k := hc.stages _ List.mem_cons_self
  have consistent := h.transactions handle k hi
  have hin : (t.database.engine.connection (Database.connectionOf k)).inTransaction = true := consistent.begun ha
  rw [Database.commit_active ha] at hr ⊢
  have hnow : (t.database.engine.commit (Database.connectionOf k)).2.committed =
      t.database.engine.committed.apply (notedIn handle t.history) := by
    rw [Engine.committed_commit hin hr]
    exact congrArg _ (h.noted_eq hi ha hf)
  have hconn := Engine.connections_commit hin
  have closed : phaseAt (t.database.phases.set k .closed) k = .closed := getD_set_self (h.issued_lt k hi.mem)
  have hset' := hc.setTransaction [.answered (.commit handle) (.ok v)]
    (t.database.engine.committed.apply (notedIn handle t.history)) .idle .closed .ended hi (not_mem_rest hp hf)
    (.inl rfl) (.inl rfl)
  have hr' := hset' ?_ ?_ ?_ .idle trivial (.of_not_active (by rw [closed]; exact nofun) fun _ _ _ => closed)
  · have hperm := hr'.perm (hset _).symm
    rw [← hnow] at hperm
    exact ⟨issued, hconn ▸ hperm⟩
  · rw [effects_concat, Committed.replay_append, ← h.visible]
    rfl
  · refine orderly_concat h.orderly fun e he handle' => ⟨fun hfail heq => ?_, fun hcom => ⟨id, fun heq => ?_⟩⟩
    · have heq : handle = handle' := heq
      subst heq
      exact consistent.failed e he hfail ha
    · have heq : handle = handle' := heq
      subst heq
      exact consistent.not_committed ha e he hcom
  · intro e he handle' hne
    rw [List.mem_singleton.mp he]
    exact ⟨id, fun heq => hne (Eq.symm heq)⟩

theorem turn_ended (h : t.SoundFrom start) (hs : t.requests[i]? = some s) (hh : s.holds = none) :
    (t.turn i .ended).SoundFrom start := by
  obtain ⟨issued, h⟩ := h
  obtain ⟨rest, hp, hset⟩ := singled_out hs
  have hw : s.Writes → Stage.Writes .ended := fun hw => by
    rw [hw.holds] at hh
    cases hh
  exact ⟨issued, ((h.perm hp).swap .ended trivial hh.symm hw).perm (hset _).symm⟩

theorem finish_sound (h : t.SoundFrom start) (hs : t.requests[i]? = some (.finishing handle k commit)) :
    (t.finish i handle k commit).SoundFrom start := by
  unfold finish
  split
  · exact h
  · next hf =>
    have closed := turn_ended h hs rfl
    have undone {d : Database} (hu : t.database.Undone d k) : ((t.withDatabase d).turn i .ended).SoundFrom start :=
      undone_sound h hs rfl (fun _ hi => ⟨handle, hi⟩) hf hu rfl fun _ _ _ _ => trivial
    cases commit with
    | false =>
      cases hphase : t.database.phase k with
      | closed =>
        simp only [Bool.false_eq_true, ↓reduceIte, Database.rollback_closed hphase]
        exact note_quiet closed trivial
      | _ => exact note_quiet (undone (Database.rollback_undone (by rw [hphase]; exact nofun))) trivial
    | true =>
      cases hphase : t.database.phase k with
      | closed =>
        simp only [↓reduceIte, Database.commit_closed hphase]
        exact note_quiet closed trivial
      | spoiled =>
        obtain ⟨⟨f, hr⟩, hu⟩ := Database.commit_spoiled hphase
        simp only [↓reduceIte, hr]
        exact note_quiet (undone hu) trivial
      | active =>
        cases hr : (t.database.commit k).1 with
        | ok u =>
          simp only [↓reduceIte, hr]
          exact commit_sound h hs hf hphase hr _
        | error f =>
          have hu : t.database.Undone (t.database.commit k).2 k := by
            obtain ⟨issued, hi⟩ := h
            obtain ⟨rest, hp, -⟩ := singled_out hs
            have hissued : Issued issued handle k := (hi.perm hp).stages _ List.mem_cons_self
            have hin : (t.database.engine.connection (Database.connectionOf k)).inTransaction = true :=
              (hi.transactions handle k hissued).begun hphase
            rw [Database.commit_active hphase] at hr ⊢
            exact ⟨rfl, Engine.committed_commit_error hr, .inr (Engine.connections_commit hin)⟩
          simp only [↓reduceIte, hr]
          exact note_quiet (undone hu) trivial

theorem advance_sound (h : t.SoundFrom start) (i now : Nat) : (t.advance i now).SoundFrom start := by
  unfold advance
  split
  · exact h
  · exact h
  · next hs => exact enter_sound h hs
  · next hs => exact operate_inside h hs
  · next hs => exact leave_sound h hs
  · next hs => exact operate_reading h hs
  · next a outcome hs =>
    obtain ⟨issued, h⟩ := h
    obtain ⟨rest, hp, hset⟩ := singled_out hs
    have hn := ((((h.perm hp).drop id nofun).add (s := .ended) trivial nofun).perm (hset _).symm).note
      (e := .worked a none (Gateway.settle (Gateway.methodOf a) outcome) []) (fun _ => id) (fun _ => id)
    -- nothing was noted, so that nothing becomes visible
    have hnow : t.database.engine.committed.replay ((Event.worked a none
        (Gateway.settle (Gateway.methodOf a) outcome) []).effects t.history) = t.database.engine.committed := by
      cases outcome with
      | done => rfl
      | failed => rfl
      | broken => rfl
    rw [hnow] at hn
    exact ⟨issued, hn⟩
  · next hs => exact operate_writing h hs
  · next hs => exact conclude_sound h hs
  · next hs => exact finish_sound h hs
  · next k hs =>
    obtain ⟨issued, h⟩ := h
    obtain ⟨rest, hp, hset⟩ := singled_out hs
    have hr := ((((h.perm hp).register now).add (s := .ended) trivial nofun).perm (hset _).symm).quiet
      (e := .answered .begin (.ok (.string (t.registry.add k now).1))) trivial
    exact ⟨issued ++ [k], hr⟩
  · next hs => exact turn_ended h hs rfl
  · next k ks hs =>
    split
    · exact h
    · next hf =>
      cases hphase : t.database.phase k with
      | closed =>
        rw [Database.rollback_closed hphase]
        obtain ⟨issued, h⟩ := h
        obtain ⟨rest, hp, hset⟩ := singled_out hs
        have hc := h.perm hp
        have hv : Stage.Valid issued _ _ _ (.abandoning (k :: ks)) := hc.stages _ List.mem_cons_self
        exact ⟨issued, (hc.swap (.abandoning ks) (fun j hj => hv j (List.mem_cons_of_mem _ hj)) rfl id).perm
          (hset _).symm⟩
      | _ =>
        exact undone_sound h hs rfl (fun _ hv => hv k List.mem_cons_self) hf
          (Database.rollback_undone (by rw [hphase]; exact nofun)) rfl
          fun _ _ _ hv j hj => hv j (List.mem_cons_of_mem _ hj)

theorem abandon_sound (h : t.SoundFrom start) (p q : Transactions.Entry Nat → Bool) :
    ((t.withRegistry (t.registry.keep p)).launch
      (.abandoning ((t.registry.entries.filter q).map (·.transaction)))).SoundFrom start := by
  obtain ⟨issued, h⟩ := h
  refine ⟨issued, (h.keep p).launch (s := .abandoning _) (fun k hk => ?_) nofun⟩
  obtain ⟨e, he, rfl⟩ := List.mem_map.mp hk
  exact ⟨_, h.entries e (List.mem_filter.mp he).1⟩

theorem step_sound (h : t.SoundFrom start) (m : Move) : (t.step m).SoundFrom start := by
  cases m with
  | arrive clock call => exact arrive_sound h clock call
  | advance i now => exact advance_sound h i now
  | sweep now maxIdle => exact abandon_sound h _ _
  | close =>
    have ha := abandon_sound h (fun _ => false) (fun _ => true)
    rw [List.filter_true] at ha
    exact ha

theorem run_sound (h : t.SoundFrom start) (moves : List Move) : (t.run moves).SoundFrom start := by
  induction moves generalizing t with
  | nil => exact h
  | cons m moves ih => exact ih (step_sound h m)

end QueryGateway.Traffic
