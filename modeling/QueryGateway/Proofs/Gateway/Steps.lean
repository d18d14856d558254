import QueryGateway.Proofs.Gateway.Soundness

namespace QueryGateway.Traffic
set_option autoImplicit true

open Store Rpc

theorem singled_out {l : List α} (h : l[i]? = some a) :
    ∃ rest, l.Perm (a :: rest) ∧ ∀ b, (l.set i b).Perm (b :: rest) := by
  obtain ⟨hi, rfl⟩ := List.getElem?_eq_some_iff.mp h
  exact ⟨l.eraseIdx i, (List.getElem_cons_eraseIdx_perm hi).symm, fun b => List.set_perm_cons_eraseIdx hi b⟩

theorem set_getD_self (l : List α) (i : Nat) : l.set i (l[i]?.getD d) = l := by
  rcases Nat.lt_or_ge i l.length with hi | hi
  · rw [List.getElem?_eq_getElem hi, Option.getD_some, List.set_getElem_self]
  · exact List.set_eq_of_length_le hi

theorem not_mem_rest {requests rest : List Stage} {x : Hold} (hp : requests.Perm (s :: rest))
    (hx : x ∉ requests.filterMap Stage.holds) : x ∉ rest.filterMap Stage.holds :=
  fun hm => hx ((hp.filterMap _).mem_iff.mpr (Stage.mem_holds_cons.mpr (.inr hm)))

namespace Sound

variable {start now : Committed} {issued : List Nat} {registry registry' : Transactions.Registry Nat}
  {connections : List Connection} {phases : List Phase} {requests rest : List Stage} {history : List Event}

theorem keep (h : Sound start issued registry now connections phases requests history)
    (p : Transactions.Entry Nat → Bool) :
    Sound start issued (registry.keep p) now connections phases requests history :=
  h.withRegistry rfl fun e he => ⟨e, (List.mem_filter.mp he).1, rfl, rfl⟩

theorem taken (h : Sound start issued registry now connections phases requests history)
    (ht : registry.take? handle = some (k, registry')) :
    Issued issued handle k ∧ Sound start issued registry' now connections phases requests history := by
  obtain ⟨e, he, heq⟩ := Option.map_eq_some_iff.mp ht
  cases heq
  obtain ⟨hm, rfl⟩ := Transactions.Registry.find?_some he
  exact ⟨h.entries e hm, h.keep _⟩

theorem used (h : Sound start issued registry now connections phases requests history)
    (hu : registry.use? handle time = some (k, registry')) :
    Issued issued handle k ∧ Sound start issued registry' now connections phases requests history := by
  obtain ⟨e, he, heq⟩ := Option.map_eq_some_iff.mp hu
  cases heq
  obtain ⟨hm, rfl⟩ := Transactions.Registry.find?_some he
  refine ⟨h.entries e hm, h.withRegistry rfl fun e' hm' => ?_⟩
  obtain ⟨e'', he'', rfl⟩ := List.mem_map.mp hm'
  refine ⟨e'', he'', Transactions.Registry.touched_number _ _ _, ?_⟩
  unfold Transactions.Registry.touched
  split
  · rfl
  · rfl

theorem launch (h : Sound start issued registry now connections phases requests history)
    (hs : s.Valid issued connections phases history) (hf : ∀ x, s.holds = some x → x ∉ requests.filterMap Stage.holds) :
    Sound start issued registry now connections phases (requests ++ [s]) history :=
  (h.add hs hf).perm (List.perm_append_singleton s requests).symm

theorem shared_idle (h : Sound start issued registry now connections phases requests history)
    (hs : .shared ∉ requests.filterMap Stage.holds) : connectionAt connections 0 = .idle :=
  h.shared fun s hm hw => hs (List.mem_filterMap.mpr ⟨s, hm, hw.holds⟩)

theorem noted_eq (h : Sound start issued registry now connections phases requests history)
    (hi : Issued issued handle k) (ha : phaseAt phases k = .active)
    (hf : .transaction k ∉ requests.filterMap Stage.holds) :
    (connectionAt connections (k + 1)).noted = notedIn handle history := by
  obtain ⟨own, ho, hown⟩ := (h.transactions handle k hi).noted ha
  rw [ho, hown hf, List.append_nil]

/-- A transaction ends without a commit. -/
theorem undo (h : Sound start issued registry now connections phases (s :: rest) history) (s' : Stage)
    (hi : Issued issued handle k) (hf : .transaction k ∉ rest.filterMap Stage.holds) (hs : s.holds = none)
    (hs' : s'.holds = none) (hv : ∀ connections phases, s'.Valid issued connections phases history)
    (hc : connections' = connections ∨ connections' = connections.set (k + 1) .idle) :
    Sound start issued registry now connections' (phases.set k .closed) (s' :: rest) history := by
  have hk : k < phases.length := h.issued_lt k hi.mem
  have closed : phaseAt (phases.set k .closed) k = .closed := getD_set_self hk
  have finished : ∀ connections, Consistent connections (phases.set k .closed) ((s' :: rest).filterMap Stage.holds)
      history handle k :=
    fun _ => .of_not_active (by rw [closed]; exact nofun) fun _ _ _ => closed
  have set : ∀ c', Based start history c' → Sound start issued registry now (connections.set (k + 1) c')
      (phases.set k .closed) (s' :: rest) history := by
    intro c' hb
    have hset := h.setTransaction [] now c' .closed s' hi hf (.inl hs) (.inl hs')
    simp only [List.append_nil] at hset
    exact hset h.visible h.orderly (fun _ he => nomatch he) hb (hv _ _) (finished _)
  rcases hc with rfl | rfl
  · have hkeep := set (connectionAt connections' (k + 1)) (h.bases _)
    rw [set_getD_self] at hkeep
    exact hkeep
  · exact set .idle .idle

end Sound

/-- What holds after every move, where `start` was committed before the first. -/
def SoundFrom (start : Committed) (t : Traffic) : Prop :=
  ∃ issued, Sound start issued t.registry t.database.engine.committed t.database.engine.connections t.database.phases
    t.requests t.history

section

variable {start : Committed} {t : Traffic}

theorem arrive_health (h : t.SoundFrom start) (clock : Clock) : (t.arrive clock .health).SoundFrom start := by
  obtain ⟨issued, h⟩ := h
  simp only [arrive]
  split
  · exact ⟨issued, h⟩
  · next hs =>
    obtain ⟨he, hp⟩ := Database.ping_idle t.gateway.healthTable (h.shared_idle hs)
    have hd : (t.gateway.health clock.timestamp).2.session.world = (t.database.ping t.gateway.healthTable).2 ∧
        (t.gateway.health clock.timestamp).2.session.registry = t.registry := by
      unfold Gateway.health
      split
      · next d hr => exact ⟨(congrArg Prod.snd hr).symm, rfl⟩
      · next f d hr => exact ⟨(congrArg Prod.snd hr).symm, rfl⟩
    have hq := h.quiet (e := .answered .health (.ok (t.gateway.health clock.timestamp).1)) trivial
    rw [← he, ← hp, ← hd.1, ← hd.2] at hq
    exact ⟨issued, hq⟩

theorem arrive_begin (h : t.SoundFrom start) (clock : Clock) : (t.arrive clock .begin).SoundFrom start := by
  obtain ⟨issued, h⟩ := h
  obtain ⟨hr, hp, he, hc⟩ := Database.begin_ok t.database
  simp only [arrive]
  split
  · next f d hd =>
    rw [hd] at hr
    cases hr
  · next k d hd =>
    rw [hd] at hr hp he hc
    cases hr
    refine ⟨issued, ?_⟩
    have hb := h.begin.perm (List.perm_append_singleton _ t.requests).symm
    rw [← hp, ← hc, ← he] at hb
    exact hb

theorem take_sound (h : t.SoundFrom start) (call : Call) (handle : String) (commit : Bool)
    (hq : (Event.answered call (unknown handle)).Quiet) : (t.take call handle commit).SoundFrom start := by
  obtain ⟨issued, h⟩ := h
  unfold take
  split
  · exact ⟨issued, h.quiet hq⟩
  · next k r ht =>
    obtain ⟨hi, hr⟩ := h.taken ht
    exact ⟨issued, hr.launch (s := .finishing handle k commit) hi nofun⟩

theorem arrive_inside (h : t.SoundFrom start) (clock : Clock) (a : Action) (handle : String) :
    (t.arrive clock (.act a (some handle))).SoundFrom start := by
  obtain ⟨issued, h⟩ := h
  simp only [arrive]
  split
  · exact ⟨issued, h.quiet trivial⟩
  · next k r hu =>
    obtain ⟨hi, hr⟩ := h.used hu
    exact ⟨issued, hr.launch (s := .entering a handle k) hi nofun⟩

theorem arrive_outside (h : t.SoundFrom start) (clock : Clock) (a : Action) :
    (t.arrive clock (.act a none)).SoundFrom start := by
  obtain ⟨issued, h⟩ := h
  simp only [arrive]
  split
  · exact ⟨issued, h⟩
  · next hs =>
    have hidle : t.database.engine.connection Database.shared = .idle := h.shared_idle hs
    split
    · rw [Database.command_begin hidle]
      have hlen : 0 < t.database.engine.connections.length := by rw [h.size]; omega
      have hw : Stage.Valid issued (t.database.engine.connections.set 0 .begun) t.database.phases t.history
          (.writing a (t.work a)) := by
        refine ⟨?_, Gateway.work_total _ a⟩
        rw [connectionAt, getD_set_self hlen]
        rfl
      have hset := (h.add (s := .ended) trivial fun _ hx => by cases hx).setShared _ hs (.inl rfl) (.inr rfl) .begun hw
        (fun hn => absurd trivial hn)
      exact ⟨issued, hset.perm (List.perm_append_singleton _ t.requests).symm⟩
    · next ha =>
      have hr : (t.work a).ReadOnly := Gateway.work_readOnly _ (Bool.eq_false_iff.mpr ha)
      exact ⟨issued, h.launch (s := .reading a (t.work a)) hr fun x hx => by cases hx; exact hs⟩

theorem arrive_sound (h : t.SoundFrom start) (clock : Clock) (call : Call) : (t.arrive clock call).SoundFrom start := by
  cases call with
  | ping =>
    obtain ⟨issued, h⟩ := h
    exact ⟨issued, h.quiet trivial⟩
  | health => exact arrive_health h clock
  | begin => exact arrive_begin h clock
  | commit handle => exact take_sound h _ handle true trivial
  | rollback handle => exact take_sound h _ handle false trivial
  | act a handle =>
    cases handle with
    | none => exact arrive_outside h clock a
    | some handle => exact arrive_inside h clock a handle

theorem noted_eq_noted (t : Traffic) (c : Nat) : t.noted c = (t.database.engine.connection c).noted := by
  unfold noted
  cases t.database.engine.connection c with
  | idle => rfl
  | begun => rfl
  | reading p => rfl

theorem enter_sound (h : t.SoundFrom start) (hs : t.requests[i]? = some (.entering a handle k)) :
    (t.enter i a handle k).SoundFrom start := by
  obtain ⟨issued, h⟩ := h
  obtain ⟨rest, hp, hset⟩ := singled_out hs
  have hc := h.perm hp
  have hi : Issued issued handle k := hc.stages _ List.mem_cons_self
  have refused : ∀ f : Fault,
      ((t.turn i .ended).note (.answered (.act a (some handle)) (.error (.ofFault f)))).SoundFrom start := fun f =>
    ⟨issued, ((hc.swap .ended trivial rfl id).perm (hset _).symm).quiet trivial⟩
  unfold enter
  split
  · exact ⟨issued, h⟩
  · next hf =>
    split
    · exact refused _
    · exact refused _
    · next ha =>
      have hn := h.noted_eq hi ha hf
      have hv : Stage.Valid issued t.database.engine.connections t.database.phases t.history
          (.inside a handle k (t.noted (Database.connectionOf k)).length (t.work a)) := by
        refine ⟨hi, ha, ?_, Gateway.work_total _ a⟩
        rw [noted_eq_noted]
        exact congrArg List.length hn
      have hadd := (hc.drop id nofun).add hv fun x hx => by cases hx; exact not_mem_rest hp hf
      exact ⟨issued, hadd.perm (hset _).symm⟩

theorem operate_inside {next : Except Fault op.Answer → Work Failure Json} (h : t.SoundFrom start)
    (hs : t.requests[i]? = some (.inside a handle k before (.perform op next))) :
    (t.operate i (Database.connectionOf k) op next (.inside a handle k before)).SoundFrom start := by
  obtain ⟨issued, h⟩ := h
  obtain ⟨rest, hp, hset⟩ := singled_out hs
  have hc := h.perm hp
  obtain ⟨hi, ha, hb, ht⟩ := hc.stages _ List.mem_cons_self
  cases ht with
  | perform hop hnext =>
    have hk := h.issued_lt k hi.mem
    have consistent := h.transactions handle k hi
    obtain ⟨own, hown, -⟩ := consistent.noted ha
    obtain ⟨he, c', hg, hcs⟩ := Database.perform_inside (d := t.database) (c := k + 1) (consistent.begun ha) op
    obtain ⟨changes, hn⟩ := hg.noted
    have hact : t.database.phases.set k .active = t.database.phases := by
      rw [← ha]
      exact set_getD_self _ _
    have hself : connectionAt (t.database.engine.connections.set (k + 1) c') (k + 1) = c' :=
      getD_set_self (by rw [h.size]; omega)
    have hs' := hc.setTransaction [] t.database.engine.committed c' .active
      (.inside a handle k before (next (t.database.perform (k + 1) op).1)) hi (hc.exclusive_rest.2 _ rfl)
      (.inr rfl) (.inr rfl)
    simp only [List.append_nil, hact] at hs'
    have hr := hs' h.visible h.orderly (fun _ he => nomatch he) ((h.bases (k + 1)).goesOn h.visible hg)
      ⟨hi, ha, hb, hnext _⟩
      { begun := fun _ => by
          rw [hself]
          exact hg.inTransaction (consistent.begun ha)
        noted := fun _ => by
          refine ⟨own ++ changes, ?_, fun hm => absurd List.mem_cons_self hm⟩
          rw [hself, ← List.append_assoc, ← hown]
          exact hn
        failed := consistent.failed
        committed := consistent.committed }
    rw [← he, ← hcs] at hr
    exact ⟨issued, hr.perm (hset _).symm⟩

theorem operate_writing {next : Except Fault op.Answer → Work Failure Json} (h : t.SoundFrom start)
    (hs : t.requests[i]? = some (.writing a (.perform op next))) :
    (t.operate i Database.shared op next (.writing a)).SoundFrom start := by
  obtain ⟨issued, h⟩ := h
  obtain ⟨rest, hp, hset⟩ := singled_out hs
  have hc := h.perm hp
  obtain ⟨hin, ht⟩ := hc.stages _ List.mem_cons_self
  cases ht with
  | perform hop hnext =>
    obtain ⟨he, c', hg, hcs⟩ := Database.perform_inside (d := t.database) (c := Database.shared) hin op
    have hself : connectionAt (t.database.engine.connections.set 0 c') 0 = c' :=
      getD_set_self (by rw [h.size]; omega)
    have hv : Stage.Valid issued (t.database.engine.connections.set 0 c') t.database.phases t.history
        (.writing a (next (t.database.perform Database.shared op).1)) := by
      refine ⟨?_, hnext _⟩
      rw [hself]
      exact hg.inTransaction hin
    have hr := hc.setShared _ (hc.exclusive_rest.2 _ rfl) (.inr rfl) (.inr rfl) ((h.bases 0).goesOn h.visible hg) hv
      fun hn => absurd trivial hn
    refine ⟨issued, Sound.perm ?_ (hset _).symm⟩
    have hcs' : t.database.engine.connections.set 0 c' =
        (t.database.perform Database.shared op).2.engine.connections := hcs.symm
    rw [← he, hcs'] at hr
    exact hr

theorem operate_reading {next : Except Fault op.Answer → Work Failure Json} (h : t.SoundFrom start)
    (hs : t.requests[i]? = some (.reading a (.perform op next))) :
    (t.operate i Database.shared op next (.reading a)).SoundFrom start := by
  obtain ⟨issued, h⟩ := h
  obtain ⟨rest, hp, hset⟩ := singled_out hs
  have hc := h.perm hp
  cases hc.stages _ List.mem_cons_self with
  | perform hop hnext =>
    have hr := (hc.swap (.reading a (next (t.database.perform Database.shared op).1)) (hnext _) rfl id).perm
      (hset _).symm
    rw [← Database.perform_idle hc.reading_idle hop] at hr
    exact ⟨issued, hr⟩

end

end QueryGateway.Traffic
