import QueryGateway.Proofs.Gateway.Visibility

namespace QueryGateway.Traffic
set_option autoImplicit true

open Store Rpc

def steps (i now n : Nat) : List Move :=
  List.replicate n (.advance i now)

theorem run_append (t : Traffic) (ms ns : List Move) : t.run (ms ++ ns) = (t.run ms).run ns :=
  List.foldl_append

theorem run_steps_add (t : Traffic) (i now m n : Nat) :
    t.run (steps i now (m + n)) = (t.run (steps i now m)).run (steps i now n) := by
  rw [steps, List.replicate_add]
  exact run_append t _ _

theorem turn_self (t : Traffic) (h : t.requests[i]? = some s) : t.turn i s = t := by
  obtain ⟨hi, rfl⟩ := List.getElem?_eq_some_iff.mp h
  simp only [turn, List.set_getElem_self]

theorem turn_turn (t : Traffic) (i : Nat) (s s' : Stage) : (t.turn i s).turn i s' = t.turn i s' := by
  simp only [turn, List.set_set]

theorem requests_turn (t : Traffic) (h : i < t.requests.length) : (t.turn i s).requests[i]? = some s :=
  List.getElem?_set_self h

theorem run_work (t : Traffic) (i c now : Nat) (w : Work Failure Json) (stage : Work Failure Json → Stage)
    (ha : ∀ (t : Traffic) (op : Operation) next, t.requests[i]? = some (stage (.perform op next)) →
      t.advance i now = t.operate i c op next stage)
    (h : t.requests[i]? = some (stage w)) :
    ∃ n, t.run (steps i now n) =
      (t.withDatabase (t.database.work c w).2).turn i (stage (.finish (t.database.work c w).1)) := by
  have hi : i < t.requests.length := (List.getElem?_eq_some_iff.mp h).1
  induction w generalizing t with
  | finish outcome => exact ⟨0, (turn_self t h).symm⟩
  | perform op next ih =>
    have hstep : t.step (.advance i now) = t.operate i c op next stage := ha t op next h
    have hat : (t.operate i c op next stage).requests[i]? = some (stage (next (t.database.perform c op).1)) :=
      requests_turn _ hi
    obtain ⟨n, hn⟩ := ih _ (t.operate i c op next stage) hat (List.getElem?_eq_some_iff.mp hat).1
    refine ⟨n + 1, ?_⟩
    calc t.run (steps i now (n + 1)) = (t.step (.advance i now)).run (steps i now n) := rfl
      _ = _ := by
        rw [hstep, hn]
        exact turn_turn (t.withDatabase _) i _ _

theorem requests_launch (t : Traffic) (s : Stage) : (t.launch s).requests[t.requests.length]? = some s :=
  List.getElem?_concat_length

theorem turn_launch (t : Traffic) (s s' : Stage) : (t.launch s).turn t.requests.length s' = t.launch s' := by
  simp only [turn, launch, List.set_append_right _ _ (Nat.le_refl _), Nat.sub_self, List.set_cons_zero]

/-- A unit of work from the arrival of its request to its end. -/
theorem run_launched (t : Traffic) (c now : Nat) (w : Work Failure Json) (stage : Work Failure Json → Stage)
    (ha : ∀ (t : Traffic) (i : Nat) (op : Operation) next, t.requests[i]? = some (stage (.perform op next)) →
      t.advance i now = t.operate i c op next stage) :
    ∃ n, (t.launch (stage w)).run (steps t.requests.length now n) =
      (t.withDatabase (t.database.work c w).2).launch (stage (.finish (t.database.work c w).1)) := by
  obtain ⟨n, hn⟩ := run_work _ t.requests.length c now w stage (fun t' => ha t' _) (requests_launch t _)
  exact ⟨n, hn.trans (turn_launch (t.withDatabase _) _ _)⟩

theorem not_held_launch {t : Traffic} (hh : t.holds = []) {s : Stage} (hs : s.holds = none) (x : Hold) :
    x ∉ (t.launch s).holds := by
  simp only [holds, launch, List.filterMap_append, List.filterMap_cons_none hs] at hh ⊢
  rw [hh]
  exact List.not_mem_nil

theorem holds_launch_ended (t : Traffic) : (t.launch .ended).holds = t.holds := by
  simp only [holds, launch, List.filterMap_append]
  exact List.append_nil _

/-- What the gateway does with a call when nothing else happens. -/
structure Answers (t : Traffic) (clock : Clock) (call : Call) (t' : Traffic) : Prop where
  gateway : t'.gateway = (t.gateway.answerCall clock call).2
  history : ∃ e, t'.history = t.history ++ [e] ∧ e.result = (t.gateway.answerCall clock call).1
  holds : t'.holds = t.holds

theorem advance_entering {t : Traffic} (hh : t.holds = []) (hp : t.database.phase k = .active) (a : Action)
    (handle : String) (now : Nat) : (t.launch (.entering a handle k)).advance t.requests.length now =
      t.launch (.inside a handle k (t.noted (Database.connectionOf k)).length (t.work a)) := by
  have hfree : .transaction k ∉ (t.launch (.entering a handle k)).holds := not_held_launch hh rfl _
  have hopen : (t.launch (.entering a handle k)).database.phase k = .active := hp
  simp only [advance, requests_launch, enter, if_neg hfree, hopen]
  exact turn_launch t _ _

theorem run_inside (t : Traffic) (hh : t.holds = []) (now : Nat) (a : Action) (handle : String) (k : Nat) :
    ∃ n e, (t.launch (.entering a handle k)).run (steps t.requests.length now n) =
        ((t.withDatabase (t.database.runIn k .ofFault (t.work a)).2).launch .ended).note e ∧
      e.result = Gateway.settle (Gateway.methodOf a) (t.database.runIn k .ofFault (t.work a)).1 := by
  have hat := requests_launch t (.entering a handle k)
  have hfree : .transaction k ∉ (t.launch (.entering a handle k)).holds := not_held_launch hh rfl _
  have hstep : ∀ n, (t.launch (.entering a handle k)).run (steps t.requests.length now (n + 1)) =
      ((t.launch (.entering a handle k)).advance t.requests.length now).run (steps t.requests.length now n) :=
    fun _ => rfl
  have hadv : (t.launch (.entering a handle k)).advance t.requests.length now =
      (t.launch (.entering a handle k)).enter t.requests.length a handle k := by
    simp only [advance, hat]
  unfold Database.runIn
  cases hp : t.database.phase k with
  | closed =>
    refine ⟨1, .answered (.act a (some handle)) (.error (.ofFault .closed)), ?_, rfl⟩
    have hp : (t.launch (.entering a handle k)).database.phase k = .closed := hp
    rw [hstep, hadv, enter, if_neg hfree, hp, turn_launch]
    rfl
  | spoiled =>
    refine ⟨1, .answered (.act a (some handle)) (.error (.ofFault .aborted)), ?_, rfl⟩
    have hp : (t.launch (.entering a handle k)).database.phase k = .spoiled := hp
    rw [hstep, hadv, enter, if_neg hfree, hp, turn_launch]
    rfl
  | active =>
    generalize hbefore : (t.noted (Database.connectionOf k)).length = before
    have entered : (t.launch (.entering a handle k)).advance t.requests.length now =
        t.launch (.inside a handle k before (t.work a)) := hbefore ▸ advance_entering hh hp a handle now
    obtain ⟨n, hn⟩ := run_launched t (Database.connectionOf k) now (t.work a) (.inside a handle k before)
      fun t' i op next h => by simp only [advance, h]
    cases hw : t.database.work (Database.connectionOf k) (t.work a) with
    | mk outcome d =>
      rw [hw] at hn
      have left : (t.launch (.entering a handle k)).run (steps t.requests.length now (n + 1 + 1)) =
          ((t.withDatabase d).launch (.inside a handle k before (.finish outcome))).leave t.requests.length a handle k
            before outcome := by
        rw [run_steps_add, hstep, entered, hn]
        change advance _ _ _ = _
        simp only [advance, show t.requests.length = (t.withDatabase d).requests.length from rfl, requests_launch]
      have ended : ((t.withDatabase d).launch (.inside a handle k before (.finish outcome))).turn t.requests.length
          .ended = (t.withDatabase d).launch .ended := turn_launch (t.withDatabase d) _ _
      simp only [leave, ended] at left
      cases outcome with
      | done v => exact ⟨n + 1 + 1, _, left, rfl⟩
      | failed f => exact ⟨n + 1 + 1, _, left, rfl⟩
      | broken => exact ⟨n + 1 + 1, _, left, rfl⟩

theorem run_reading (t : Traffic) (now : Nat) (a : Action) :
    ∃ n e, (t.launch (.reading a (t.work a))).run (steps t.requests.length now n) =
        ((t.withDatabase (t.database.run (t.work a)).2).launch .ended).note e ∧
      e.result = Gateway.settle (Gateway.methodOf a) (t.database.run (t.work a)).1 := by
  obtain ⟨n, hn⟩ := run_launched t Database.shared now (t.work a) (.reading a)
    fun t' i op next h => by simp only [advance, h]
  let outcome := (t.database.run (t.work a)).1
  let d := (t.database.run (t.work a)).2
  have worked : (t.launch (.reading a (t.work a))).run (steps t.requests.length now n) =
      (t.withDatabase d).launch (.reading a (.finish outcome)) := hn
  refine ⟨n + 1, .worked a none (Gateway.settle (Gateway.methodOf a) outcome) [], ?_, rfl⟩
  rw [run_steps_add, worked]
  change advance _ _ _ = _
  have hlen : t.requests.length = (t.withDatabase d).requests.length := rfl
  simp only [advance, hlen, requests_launch, turn_launch]
  rfl

theorem run_writing (t : Traffic) (now : Nat) (a : Action) {d : Database}
    (hb : t.database.command Database.shared .begin = (.ok (), d)) :
    ∃ n e, ((t.withDatabase d).launch (.writing a (t.work a))).run (steps t.requests.length now n) =
        ((t.withDatabase (t.database.runAtomic .ofFault (t.work a)).2).launch .ended).note e ∧
      e.result = Gateway.settle (Gateway.methodOf a) (t.database.runAtomic .ofFault (t.work a)).1 := by
  obtain ⟨n, hn⟩ := run_launched (t.withDatabase d) Database.shared now (t.work a) (.writing a)
    fun t' i op next h => by simp only [advance, h]
  cases hw : d.work Database.shared (t.work a) with
  | mk outcome d' =>
    have worked : ((t.withDatabase d).launch (.writing a (t.work a))).run (steps t.requests.length now n) =
        (t.withDatabase d').launch (.writing a (.finish outcome)) := by
      have hd : (t.withDatabase d).database.work Database.shared (t.work a) = (outcome, d') := hw
      rw [hd] at hn
      exact hn
    have concluded : ((t.withDatabase d).launch (.writing a (t.work a))).run (steps t.requests.length now (n + 1)) =
        ((t.withDatabase d').launch (.writing a (.finish outcome))).conclude t.requests.length a outcome := by
      rw [run_steps_add, worked]
      change advance _ _ _ = _
      have hlen : t.requests.length = (t.withDatabase d').requests.length := rfl
      simp only [advance, hlen, requests_launch]
    have ended : ∀ d'', (((t.withDatabase d').launch (.writing a (.finish outcome))).withDatabase d'').turn
        t.requests.length .ended = (t.withDatabase d'').launch .ended := fun d'' => turn_launch (t.withDatabase d'') _ _
    unfold Database.runAtomic
    rw [hb]
    simp only [hw]
    cases outcome with
    | done v =>
      rw [conclude_done, ended] at concluded
      cases hc : d'.command Database.shared .commit with
      | mk result d'' =>
        have hc' : ((t.withDatabase d').launch (.writing a (.finish (.done v)))).database.command Database.shared
            .commit = (result, d'') := hc
        rw [hc'] at concluded
        simp only [hc]
        cases result with
        | ok u => exact ⟨n + 1, _, concluded, rfl⟩
        | error f => exact ⟨n + 1, _, concluded, rfl⟩
    | failed f =>
      simp only [conclude, ended] at concluded
      exact ⟨n + 1, _, concluded, rfl⟩
    | broken =>
      simp only [conclude, ended] at concluded
      exact ⟨n + 1, _, concluded, rfl⟩

theorem finish_launch (t : Traffic) (hh : t.holds = []) (handle : String) (k : Nat) (commit : Bool) (now : Nat) :
    let r := if commit then t.database.commit k else t.database.rollback k
    (t.launch (.finishing handle k commit)).run (steps t.requests.length now 1) =
      ((t.withDatabase r.2).launch .ended).note (.answered (if commit then .commit handle else .rollback handle)
        ((r.1.map fun _ => Gateway.status (if commit then "committed" else "rolled_back") []).mapError
          Failure.ofFault)) := by
  intro r
  have hfree : .transaction k ∉ (t.launch (.finishing handle k commit)).holds := not_held_launch hh rfl _
  have hr : (if commit then (t.launch (.finishing handle k commit)).database.commit k
      else (t.launch (.finishing handle k commit)).database.rollback k) = r := rfl
  change advance _ _ _ = _
  simp only [advance, requests_launch, finish, if_neg hfree, hr]
  exact congrArg (fun t' : Traffic => t'.note _) (turn_launch (t.withDatabase r.2) _ _)

namespace Answers

theorem at_once {t : Traffic} {d : Database} {e : Event} (h : t.arrive clock call = (t.withDatabase d).note e)
    (hg : (t.gateway.answerCall clock call).2 = (t.withDatabase d).gateway)
    (he : e.result = (t.gateway.answerCall clock call).1) :
    ∃ n, Answers t clock call (t.run (.arrive clock call :: steps t.requests.length clock.now n)) := by
  refine ⟨0, ?_⟩
  have hrun : t.run (.arrive clock call :: steps t.requests.length clock.now 0) = _ := h
  rw [hrun]
  exact ⟨hg.symm, ⟨e, rfl, he⟩, rfl⟩

theorem in_steps {t : Traffic} {d : Database} {r : Transactions.Registry Nat} {e : Event}
    (h : (t.arrive clock call).run (steps t.requests.length clock.now n) =
      (((t.withRegistry r).withDatabase d).launch .ended).note e)
    (hg : (t.gateway.answerCall clock call).2 = ((t.withRegistry r).withDatabase d).gateway)
    (he : e.result = (t.gateway.answerCall clock call).1) :
    ∃ n, Answers t clock call (t.run (.arrive clock call :: steps t.requests.length clock.now n)) := by
  refine ⟨n, ?_⟩
  have hrun : t.run (.arrive clock call :: steps t.requests.length clock.now n) = _ := h
  rw [hrun]
  exact ⟨hg.symm, ⟨e, rfl, he⟩, holds_launch_ended _⟩

theorem begin (t : Traffic) (clock : Clock) :
    ∃ n, Answers t clock .begin (t.run (.arrive clock .begin :: steps t.requests.length clock.now n)) := by
  cases hb : t.database.begin with
  | mk result d =>
    have hg : t.gateway.session.world.begin = (result, d) := hb
    cases result with
    | error f =>
      refine at_once (d := d) (e := .answered .begin (.error (.ofFault f))) ?_ ?_ ?_
      · simp only [Traffic.arrive, hb]
      · simp only [Gateway.answerCall, Gateway.begin, hg]
        rfl
      · simp only [Gateway.answerCall, Gateway.begin, hg]
        rfl
    | ok k =>
      refine in_steps (n := 1) (d := d) (r := (t.registry.add k clock.now).2)
        (e := .answered .begin (.ok (.string (t.registry.add k clock.now).1))) ?_ ?_ ?_
      · simp only [Traffic.arrive, hb]
        change Traffic.advance _ _ _ = _
        have hlen : t.requests.length = (t.withDatabase d).requests.length := rfl
        simp only [Traffic.advance, hlen, requests_launch]
        exact congrArg (fun t' : Traffic => t'.note _) (turn_launch ((t.withDatabase d).withRegistry _) _ _)
      · simp only [Gateway.answerCall, Gateway.begin, hg]
        rfl
      · simp only [Gateway.answerCall, Gateway.begin, hg]
        rfl

theorem take (t : Traffic) (hh : t.holds = []) (clock : Clock) (call : Call) (handle : String) (commit : Bool)
    (hc : call = if commit then .commit handle else .rollback handle) :
    ∃ n, Answers t clock call (t.run (.arrive clock call :: steps t.requests.length clock.now n)) := by
  have harrive : t.arrive clock call = t.take call handle commit := by
    subst hc
    cases commit with
    | true => rfl
    | false => rfl
  have hanswer : t.gateway.answerCall clock call =
      t.gateway.finish (if commit then "committed" else "rolled_back") (t.gateway.session.finish
        (fun k d => if commit then d.commit k else d.rollback k) handle) := by
    subst hc
    cases commit with
    | true => rfl
    | false => rfl
  cases ht : t.registry.take? handle with
  | none =>
    have hs : t.gateway.session.registry.take? handle = none := ht
    refine at_once (d := t.database) (e := .answered call (unknown handle)) ?_ ?_ ?_
    · simp only [harrive, Traffic.take, ht]
      rfl
    · simp only [hanswer, Gateway.finish, Transactions.Session.finish, hs]
      rfl
    · simp only [hanswer, Gateway.finish, Transactions.Session.finish, hs]
      rfl
  | some p =>
    obtain ⟨k, r⟩ := p
    have hs : t.gateway.session.registry.take? handle = some (k, r) := ht
    have hf := finish_launch (t.withRegistry r) hh handle k commit clock.now
    refine in_steps (n := 1) (r := r) (d := (if commit then t.database.commit k else t.database.rollback k).2)
      (e := .answered (if commit then .commit handle else .rollback handle)
        (((if commit then t.database.commit k else t.database.rollback k).1.map fun _ =>
          Gateway.status (if commit then "committed" else "rolled_back") []).mapError Failure.ofFault)) ?_ ?_ ?_
    · simp only [harrive, Traffic.take, ht]
      exact hf
    · simp only [hanswer, Gateway.finish, Transactions.Session.finish, hs]
      rfl
    · simp only [hanswer, Gateway.finish, Transactions.Session.finish, hs]
      have hw : t.gateway.session.world = t.database := rfl
      rw [hw]
      cases (if commit then t.database.commit k else t.database.rollback k).1 with
      | ok u => rfl
      | error f => rfl

theorem inside (t : Traffic) (hh : t.holds = []) (clock : Clock) (a : Action) (handle : String) :
    ∃ n, Answers t clock (.act a (some handle))
      (t.run (.arrive clock (.act a (some handle)) :: steps t.requests.length clock.now n)) := by
  have hanswer : t.gateway.answerCall clock (.act a (some handle)) =
      (Gateway.settle (Gateway.methodOf a) (t.gateway.inTransaction clock.now handle (t.work a)).1,
        (t.gateway.inTransaction clock.now handle (t.work a)).2) := by
    simp only [Gateway.answerCall, Gateway.act, Gateway.write, Gateway.read, ite_self]
    rfl
  cases hu : t.registry.use? handle clock.now with
  | none =>
    have hs : t.gateway.session.registry.use? handle clock.now = none := hu
    refine at_once (d := t.database) (e := .answered (.act a (some handle)) (unknown handle)) ?_ ?_ ?_
    · simp only [Traffic.arrive, hu]
      rfl
    · simp only [hanswer, Gateway.inTransaction, hs]
      rfl
    · simp only [hanswer, Gateway.inTransaction, hs]
      rfl
  | some p =>
    obtain ⟨k, r⟩ := p
    have hs : t.gateway.session.registry.use? handle clock.now = some (k, r) := hu
    obtain ⟨n, e, hn, he⟩ := run_inside (t.withRegistry r) hh clock.now a handle k
    refine in_steps (n := n) (d := (t.database.runIn k .ofFault (t.work a)).2) (r := r) (e := e) ?_ ?_ ?_
    · simp only [Traffic.arrive, hu]
      exact hn
    · simp only [hanswer, Gateway.inTransaction, hs]
      rfl
    · simp only [hanswer, Gateway.inTransaction, hs]
      exact he

theorem outside (t : Traffic) (hh : t.holds = []) (clock : Clock) (a : Action) :
    ∃ n, Answers t clock (.act a none)
      (t.run (.arrive clock (.act a none) :: steps t.requests.length clock.now n)) := by
  have hshared : .shared ∉ t.holds := by
    rw [hh]
    exact List.not_mem_nil
  cases hw : Gateway.isWrite a with
  | false =>
    obtain ⟨n, e, hn, he⟩ := run_reading t clock.now a
    refine in_steps (n := n) (d := (t.database.run (t.work a)).2) (r := t.registry) (e := e) ?_ ?_ ?_
    · simp only [Traffic.arrive, if_neg hshared, hw, Bool.false_eq_true, ↓reduceIte]
      exact hn
    · simp only [Gateway.answerCall, Gateway.act, Gateway.read, hw, Bool.false_eq_true, ↓reduceIte]
      rfl
    · simp only [Gateway.answerCall, Gateway.act, Gateway.read, hw, Bool.false_eq_true, ↓reduceIte]
      exact he
  | true =>
    cases hb : t.database.command Database.shared .begin with
    | mk result d =>
      have hg : t.gateway.session.world.command Database.shared .begin = (result, d) := hb
      cases result with
      | error f =>
        refine at_once (d := d) (e := .answered (.act a none) (.error (.ofFault f))) ?_ ?_ ?_
        · simp only [Traffic.arrive, if_neg hshared, hw, ↓reduceIte, hb]
        · simp only [Gateway.answerCall, Gateway.act, Gateway.write, hw, ↓reduceIte, Database.runAtomic, hg]
          rfl
        · simp only [Gateway.answerCall, Gateway.act, Gateway.write, hw, ↓reduceIte, Database.runAtomic, hg]
          rfl
      | ok u =>
        obtain ⟨n, e, hn, he⟩ := run_writing t clock.now a hb
        refine in_steps (n := n) (d := (t.database.runAtomic .ofFault (t.work a)).2) (r := t.registry) (e := e)
          ?_ ?_ ?_
        · simp only [Traffic.arrive, if_neg hshared, hw, ↓reduceIte, hb]
          exact hn
        · simp only [Gateway.answerCall, Gateway.act, Gateway.write, hw, ↓reduceIte]
          rfl
        · simp only [Gateway.answerCall, Gateway.act, Gateway.write, hw, ↓reduceIte]
          exact he

end Answers

/-- With nobody in between, a call is answered as the gateway answers it. -/
theorem answers_alone (t : Traffic) (hh : t.holds = []) (clock : Clock) (call : Call) :
    ∃ n, Answers t clock call (t.run (.arrive clock call :: steps t.requests.length clock.now n)) := by
  cases call with
  | ping => exact Answers.at_once (d := t.database) rfl rfl rfl
  | health =>
    have hshared : .shared ∉ t.holds := by
      rw [hh]
      exact List.not_mem_nil
    refine ⟨0, ?_⟩
    have ha : t.run (.arrive clock .health :: steps t.requests.length clock.now 0) = t.arrive clock .health := rfl
    rw [ha]
    simp only [arrive, if_neg hshared]
    exact ⟨rfl, ⟨_, rfl, rfl⟩, rfl⟩
  | begin => exact Answers.begin t clock
  | commit handle => exact Answers.take t hh clock _ handle true rfl
  | rollback handle => exact Answers.take t hh clock _ handle false rfl
  | act a handle =>
    cases handle with
    | none => exact Answers.outside t hh clock a
    | some handle => exact Answers.inside t hh clock a handle

theorem run_abandoning (t : Traffic) (hh : t.holds = []) (now : Nat) (ks : List Nat) :
    (t.launch (.abandoning ks)).run (steps t.requests.length now (ks.length + 1)) =
      (t.withDatabase (ks.foldl (fun d k => (d.rollback k).2) t.database)).launch .ended := by
  induction ks generalizing t with
  | nil =>
    change advance _ _ _ = _
    simp only [advance, requests_launch]
    exact turn_launch t _ _
  | cons k ks ih =>
    have hfree : .transaction k ∉ (t.launch (.abandoning (k :: ks))).holds := by
      simp only [holds, launch, List.filterMap_append] at hh ⊢
      rw [hh]
      exact List.not_mem_nil
    have hstep : (t.launch (.abandoning (k :: ks))).advance t.requests.length now =
        (t.withDatabase (t.database.rollback k).2).launch (.abandoning ks) := by
      simp only [advance, requests_launch, if_neg hfree]
      exact turn_launch (t.withDatabase (t.database.rollback k).2) _ _
    calc (t.launch (.abandoning (k :: ks))).run (steps t.requests.length now (ks.length + 1 + 1))
        = ((t.launch (.abandoning (k :: ks))).advance t.requests.length now).run
            (steps t.requests.length now (ks.length + 1)) := rfl
      _ = _ := by
        rw [hstep]
        exact ih _ hh

/-- With nobody in between, a sweep comes to an expiry. -/
theorem sweep_alone (t : Traffic) (hh : t.holds = []) (now maxIdle : Nat) :
    ∃ n, (t.run (.sweep now maxIdle :: steps t.requests.length now n)).gateway.session =
      (t.gateway.expire now maxIdle).2.session := by
  have ha := run_abandoning (t.withRegistry (t.registry.sweep now maxIdle).2) hh now (t.registry.sweep now maxIdle).1
  exact ⟨(t.registry.sweep now maxIdle).1.length + 1, congrArg (·.gateway.session) ha⟩

theorem close_alone (t : Traffic) (hh : t.holds = []) (now : Nat) :
    ∃ n, (t.run (.close :: steps t.requests.length now n)).gateway = t.gateway.close := by
  have ha := run_abandoning (t.withRegistry t.registry.drain.2) hh now t.registry.drain.1
  exact ⟨t.registry.drain.1.length + 1, congrArg (·.gateway) ha⟩

end QueryGateway.Traffic
