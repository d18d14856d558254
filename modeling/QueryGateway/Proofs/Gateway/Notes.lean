import QueryGateway.Proofs.Gateway.Alike

namespace QueryGateway
set_option autoImplicit true

open Rpc Store Transactions

namespace Trouble

def isBreakdown : Trouble ε → Bool
  | failed _ => false
  | broken _ => true

theorem map_map (f : ε → ε') (g : ε' → ε'') (t : Trouble ε) : (t.map f).map g = t.map (g ∘ f) := by
  cases t <;> rfl

@[simp] theorem map_id (t : Trouble ε) : t.map id = t := by
  cases t <;> rfl

end Trouble

/-- Notes the trouble that an act comes to, if it is one to be noted. -/
def Act.noting (noted : Trouble ε → Bool) (x : Act σ ε α) : Act (σ × List (Trouble ε)) ε α := fun s =>
  match x s.1 with
  | (.ok a, world) => (.ok a, world, s.2)
  | (.error t, world) => (.error t, world, if noted t then s.2 ++ [t] else s.2)

/-- The backend with its troubles noted beside its state. A rollback on the shared connection is there to undo work that
has failed; that it fails as well is told to nobody, and not noted. -/
def Backend.noting (b : Backend σ) : Backend (σ × List (Trouble Fault)) where
  operation c op := (b.operation c op).noting fun _ => true
  command c k := (b.command c k).noting fun t => decide ((c, k) ≠ (Database.shared, .rollback)) || t.isBreakdown
  connect := b.connect.noting fun _ => true
  phases s := b.phases s.1
  setPhases phases s := (b.setPhases phases s.1, s.2)
  health timestamp s := ((b.health timestamp s.1).1, (b.health timestamp s.1).2, s.2)

theorem Act.noting_alike (noted : Trouble Fault → Bool) (x : Act σ Fault α) :
    Alike (fun s s' => s.1 = s') Likeness.same.fault Likeness.same.text (x.noting noted) x := by
  intro s s' hs
  subst hs
  unfold Act.noting
  cases x s.1 with
  | mk r world =>
    match r with
    | .ok a => exact ⟨.ok a, rfl⟩
    | .error (.failed f) => exact ⟨.error (.failed rfl), rfl⟩
    | .error (.broken text) => exact ⟨.error (.broken rfl), rfl⟩

/-- That notes are taken makes no difference. -/
theorem Backend.noting_alike (b : Backend σ) : Alike .same (fun s s' => s.1 = s') b.noting b where
  operation _ _ := Act.noting_alike _ _
  command _ _ := Act.noting_alike _ _
  connect := Act.noting_alike _ _
  phases _ _ hs := congrArg b.phases hs
  setPhases phases _ _ hs := congrArg (b.setPhases phases) hs

/-- What an act comes to by what was noted meanwhile: the last trouble noted, and if none was, a result or a failure of
its own. -/
inductive Explained (ofFault : Fault → ε) (P : ε → Prop) : List (Trouble Fault) → Except (Trouble ε) α → Prop where
  | ok (a : α) : Explained ofFault P [] (.ok a)
  | own (h : P e) : Explained ofFault P [] (.error (.failed e))
  | noted (front : List (Trouble Fault)) (t : Trouble Fault) :
      Explained ofFault P (front ++ [t]) (.error (t.map ofFault))

/-- The same of a call: a failure of its own has a cause. -/
inductive CallExplained : List (Trouble Fault) → Except Failure Json → Prop where
  | ok (v : Json) : CallExplained [] (.ok v)
  | own (c : Cause) : CallExplained [] (.error c.failure)
  | noted (front : List (Trouble Fault)) (t : Trouble Fault) (m : Method) :
      CallExplained (front ++ [t]) (.error ((t.map .ofFault).failure m))

namespace Act

variable {notes : τ → List (Trouble Fault)} {ofFault : Fault → ε} {P : ε → Prop}

/-- An act keeps the notes up, and they tell what it comes to. -/
def Explains (notes : τ → List (Trouble Fault)) (ofFault : Fault → ε) (P : ε → Prop) (x : Act τ ε α) : Prop :=
  ∀ s, ∃ more, notes (x s).2 = notes s ++ more ∧ Explained ofFault P more (x s).1

def Quiet (notes : τ → List (Trouble Fault)) (x : Act τ Fault α) : Prop :=
  ∀ s, (notes (x s).2 = notes s ∧ ∀ text, (x s).1 ≠ .error (.broken text)) ∨
    ∃ text, (x s).1 = .error (.broken text) ∧ notes (x s).2 = notes s ++ [.broken text]

theorem Explains.ret (a : α) : Explains notes ofFault P (Act.ret a) :=
  fun _ => ⟨[], (List.append_nil _).symm, .ok a⟩

theorem Explains.stop (h : P e) : Explains notes ofFault P (Act.stop (.failed e) : Act τ ε α) :=
  fun _ => ⟨[], (List.append_nil _).symm, .own h⟩

theorem Explains.andThen {x : Act τ ε α} {f : α → Act τ ε β} (h : Explains notes ofFault P x)
    (hf : ∀ a, Explains notes ofFault P (f a)) : Explains notes ofFault P (x.andThen f) := by
  intro s
  obtain ⟨more, hmore, hresult⟩ := h s
  unfold Act.andThen
  generalize x s = p at hmore hresult
  obtain ⟨r, s'⟩ := p
  cases hresult with
  | ok a =>
    obtain ⟨more', hmore', hresult'⟩ := hf a s'
    have hnone : notes s' = notes s := hmore.trans (List.append_nil _)
    exact ⟨more', hnone ▸ hmore', hresult'⟩
  | own he => exact ⟨_, hmore, .own he⟩
  | noted front t => exact ⟨_, hmore, .noted front t⟩

theorem Explains.mapFailure {x : Act τ ε α} (h : Explains notes ofFault P x) {g : ε → ε'} {Q : ε' → Prop}
    (hg : ∀ e, P e → Q (g e)) : Explains notes (g ∘ ofFault) Q (x.mapFailure g) := by
  intro s
  obtain ⟨more, hmore, hresult⟩ := h s
  refine ⟨more, hmore, ?_⟩
  unfold Act.mapFailure
  generalize (x s).1 = r at hresult
  cases hresult with
  | ok a => exact .ok a
  | own he => exact .own (hg _ he)
  | noted front t =>
    have hmap : (t.map ofFault).map g = t.map (g ∘ ofFault) := t.map_map ofFault g
    simp only [Except.mapError, hmap]
    exact .noted front t

theorem Explains.orElse {x : Act τ ε α} (h : Explains notes ofFault P x) {change : τ → τ}
    (hchange : ∀ s, notes (change s) = notes s) : Explains notes ofFault P (x.orElse change) := by
  intro s
  obtain ⟨more, hmore, hresult⟩ := h s
  unfold Act.orElse
  generalize x s = p at hmore hresult
  obtain ⟨r, s'⟩ := p
  cases hresult with
  | ok a => exact ⟨_, hmore, .ok a⟩
  | own he => exact ⟨_, (hchange s').trans hmore, .own he⟩
  | noted front t =>
    cases t with
    | failed f => exact ⟨_, (hchange s').trans hmore, .noted front (.failed f)⟩
    | broken text => exact ⟨_, hmore, .noted front (.broken text)⟩

theorem Explains.undoneBy {x : Act τ ε α} (h : Explains notes ofFault P x) {undo : Act τ Fault Unit}
    (hundo : Quiet notes undo) : Explains notes ofFault P (x.undoneBy undo) := by
  intro s
  obtain ⟨more, hmore, hresult⟩ := h s
  cases hx : x s with
  | mk r s' =>
    rw [hx] at hmore hresult
    match r with
    | .ok a =>
      rw [undoneBy_ok hx]
      exact ⟨more, hmore, hresult⟩
    | .error (.broken text) =>
      rw [undoneBy_broken hx]
      exact ⟨more, hmore, hresult⟩
    | .error (.failed e) =>
      obtain ⟨hnotes, hsound⟩ | ⟨text, hbroken, hnotes⟩ := hundo s'
      · rw [undoneBy_failed hx hsound]
        exact ⟨more, hnotes.trans hmore, hresult⟩
      · rw [undoneBy_failed_broken hx hbroken]
        have hboth : notes (undo s').2 = notes s ++ (more ++ [.broken text]) := by
          rw [hnotes, hmore, List.append_assoc]
        exact ⟨more ++ [.broken text], hboth, .noted more (.broken text)⟩

theorem Explains.inWorld {notes : σ → List (Trouble Fault)} {x : Act σ ε α} (h : Explains notes ofFault P x) :
    Explains (fun s : Session σ Nat => notes s.world) ofFault P x.inWorld :=
  fun s => h s.world

/-- An act whose troubles are all noted. -/
theorem noting_explains (x : Act σ Fault α) {P : Fault → Prop} {noted : Trouble Fault → Bool}
    (h : ∀ t, noted t = true) : Explains Prod.snd id P (x.noting noted) := by
  intro s
  unfold Act.noting
  cases x s.1 with
  | mk r world =>
    cases r with
    | ok a => exact ⟨[], (List.append_nil _).symm, .ok a⟩
    | error t =>
      refine ⟨[t], if_pos (h t), ?_⟩
      have hexplained : Explained id P ([] ++ [t]) (.error (t.map id) : Except (Trouble Fault) α) := .noted [] t
      rwa [Trouble.map_id] at hexplained

theorem noting_quiet (x : Act σ Fault α) : Quiet Prod.snd (x.noting Trouble.isBreakdown) := by
  intro s
  unfold Act.noting
  cases x s.1 with
  | mk r world =>
    match r with
    | .ok a => exact .inl ⟨rfl, nofun⟩
    | .error (.failed f) => exact .inl ⟨rfl, nofun⟩
    | .error (.broken text) => exact .inr ⟨text, rfl, rfl⟩

end Act

namespace Backend

variable (b : Backend σ) {P : Failure → Prop}

open Act (Explains Quiet)

theorem noting_operation (c : Nat) (op : Operation) {P : Fault → Prop} :
    Explains Prod.snd id P (b.noting.operation c op) :=
  Act.noting_explains _ fun _ => rfl

theorem noting_command {P : Fault → Prop} (h : (c, k) ≠ (Database.shared, .rollback)) :
    Explains Prod.snd id P (b.noting.command c k) :=
  Act.noting_explains _ fun t => by rw [decide_eq_true h, Bool.true_or]

theorem noting_undo : Quiet Prod.snd (b.noting.command Database.shared .rollback) :=
  Act.noting_quiet _

theorem noting_own (k : Nat) (command : Command) : Explains Prod.snd id (fun _ => True)
    (b.noting.command (Database.connectionOf k) command) :=
  b.noting_command fun h => nomatch congrArg Prod.fst h

theorem noting_work (c : Nat) {w : Work Failure α} (hw : w.Heeding .ofFault P) :
    Explains Prod.snd .ofFault P (b.noting.work c w) := by
  induction hw with
  | done a => exact .ret a
  | failed he => exact .stop he
  | @perform op next _ hfault ih =>
    intro s
    rw [work_perform]
    obtain ⟨more, hmore, hresult⟩ := b.noting_operation c op (P := fun _ => False) s
    generalize b.noting.operation c op s = p at hmore hresult
    obtain ⟨r, s'⟩ := p
    cases hresult with
    | ok a =>
      obtain ⟨more', hmore', hresult'⟩ := ih a s'
      have hnone : s'.2 = s.2 := hmore.trans (List.append_nil _)
      exact ⟨more', hnone ▸ hmore', hresult'⟩
    | own he => exact he.elim
    | noted front t =>
      cases t with
      | failed f =>
        simp only [Trouble.map, id, hfault]
        exact ⟨_, hmore, .noted front (.failed f)⟩
      | broken text => exact ⟨_, hmore, .noted front (.broken text)⟩

theorem explains_ofFault {notes : τ → List (Trouble Fault)} {x : Act τ Fault α}
    (h : Explains notes id (fun _ => True) x) : Explains notes .ofFault IsCaused (x.mapFailure .ofFault) :=
  h.mapFailure fun f _ => ⟨.fault f, rfl⟩

theorem noting_runAtomic {w : Work Failure α} (hw : w.Heeding .ofFault IsCaused) :
    Explains Prod.snd .ofFault IsCaused (b.noting.runAtomic w) := by
  have hissue : ∀ k ≠ Command.rollback, Explains Prod.snd .ofFault IsCaused (b.noting.issue Database.shared k) :=
    fun k hk => explains_ofFault (b.noting_command fun h => hk (congrArg Prod.snd h))
  refine (hissue .begin nofun).andThen fun _ => ?_
  refine ((b.noting_work _ hw).undoneBy b.noting_undo).andThen fun a => ?_
  exact (hissue .commit nofun).andThen fun _ => .ret a

theorem noting_runIn (k : Nat) {w : Work Failure α} (hw : w.Heeding .ofFault IsCaused) :
    Explains Prod.snd .ofFault IsCaused (b.noting.runIn k w) := by
  intro s
  rw [runIn]
  cases b.noting.phase k s with
  | closed => exact Explains.stop ⟨.fault .closed, rfl⟩ s
  | spoiled => exact Explains.stop ⟨.fault .aborted, rfl⟩ s
  | active =>
    have hspoil : ∀ s, (b.noting.setPhase k .spoiled s).2 = s.2 := fun _ => rfl
    exact (b.noting_work (Database.connectionOf k) hw).orElse hspoil s

theorem noting_begin : Explains Prod.snd id (fun _ => True) b.noting.begin := by
  have hconnect : Explains Prod.snd id (fun _ => True) b.noting.connect := Act.noting_explains _ fun _ => rfl
  have hcommand : ∀ c, Explains Prod.snd id (fun _ => True) (b.noting.command c .begin) :=
    fun c => b.noting_command fun h => Command.noConfusion (congrArg Prod.snd h)
  apply hconnect.andThen
  intro c
  apply (hcommand c).andThen
  intro _ s
  exact ⟨[], (List.append_nil _).symm, .ok _⟩

theorem noting_commit (k : Nat) : Explains Prod.snd id (fun _ => True) (b.noting.commit k) := by
  intro s
  rw [commit]
  cases b.noting.phase k s with
  | closed => exact Explains.stop trivial s
  | active => exact b.noting_own k .commit _
  | spoiled => exact (b.noting_own k .rollback).andThen (fun _ => .stop trivial) _

theorem noting_rollback (k : Nat) : Explains Prod.snd id (fun _ => True) (b.noting.rollback k) := by
  intro s
  rw [rollback]
  cases b.noting.phase k s with
  | closed => exact Explains.stop trivial s
  | active => exact b.noting_own k .rollback _
  | spoiled => exact b.noting_own k .rollback _

abbrev notesOf (s : Session (σ × List (Trouble Fault)) Nat) : List (Trouble Fault) :=
  s.world.2

theorem noting_inTransaction (now : Nat) (handle : String) {w : Work Failure α} (hw : w.Heeding .ofFault IsCaused) :
    Explains notesOf .ofFault IsCaused (b.noting.inTransaction now handle w) := by
  intro s
  rw [inTransaction]
  cases s.registry.use? handle now with
  | none => exact Explains.stop ⟨.unknownHandle handle, rfl⟩ s
  | some used => exact (b.noting_runIn used.1 hw).inWorld _

theorem noting_act (x : Execution) (now : Nat) (action : Action) (handle : Option String) :
    Explains notesOf .ofFault IsCaused (b.noting.act x now action handle) := by
  have hw := Gateway.work_heeding x action
  cases handle with
  | some handle => exact b.noting_inTransaction now handle hw
  | none =>
    rw [act]
    split
    · exact (b.noting_runAtomic hw).inWorld
    · exact (b.noting_work _ hw).inWorld

theorem noting_beginTransaction (now : Nat) :
    Explains notesOf .ofFault IsCaused (b.noting.beginTransaction now) := by
  refine (explains_ofFault b.noting_begin).inWorld.andThen fun k s => ?_
  exact ⟨[], (List.append_nil _).symm, .ok _⟩

theorem finish_explains (done : String) {ending : Nat → Act (σ × List (Trouble Fault)) Fault Unit}
    (h : ∀ k, Explains Prod.snd id (fun _ => True) (ending k)) (handle : String) :
    Explains notesOf .ofFault IsCaused (finish done ending handle) := by
  intro s
  rw [finish]
  cases s.registry.take? handle with
  | none => exact Explains.stop ⟨.unknownHandle handle, rfl⟩ s
  | some taken =>
    have hended := (explains_ofFault (h taken.1)).inWorld.andThen fun _ => .ret (Gateway.status done [])
    exact hended _

theorem noting_answerCall (x : Execution) (clock : Clock) (call : Call) :
    Explains notesOf .ofFault IsCaused (b.noting.answerCall x clock call) := by
  cases call with
  | ping => exact .ret _
  | health => exact fun s => ⟨[], (List.append_nil _).symm, .ok _⟩
  | begin => exact b.noting_beginTransaction clock.now
  | commit handle => exact finish_explains "committed" b.noting_commit handle
  | rollback handle => exact finish_explains "rolled_back" b.noting_rollback handle
  | act action handle => exact b.noting_act x clock.now action handle

theorem noting_invoke (x : Execution) (clock : Clock) (method : String) (params : Option Json)
    (s : Session (σ × List (Trouble Fault)) Nat) :
    ∃ more, notesOf (b.noting.invoke x clock method params s).2 = notesOf s ++ more ∧
      CallExplained more (b.noting.invoke x clock method params s).1 := by
  have none : notesOf s = notesOf s ++ [] := (List.append_nil _).symm
  unfold invoke
  cases Method.ofName? method with
  | none => exact ⟨[], none, .own (.unknownMethod method)⟩
  | some m =>
    simp only
    cases hcall : (do Call.ofParams m (← Gateway.paramsOf params) : Except Failure Call) with
    | error f =>
      obtain ⟨message, rfl⟩ : ∃ message, f = .invalidParams message := by
        obtain hp | ⟨ms, -, hms⟩ := bind_error hcall
        · exact ⟨_, Gateway.paramsOf_error hp⟩
        · exact Call.ofParams_error hms
      exact ⟨[], none, .own (.refused message)⟩
    | ok call =>
      obtain ⟨more, hmore, hresult⟩ := b.noting_answerCall x clock call s
      refine ⟨more, hmore, ?_⟩
      simp only
      generalize (b.noting.answerCall x clock call s).1 = r at hresult
      cases hresult with
      | ok v => exact .ok v
      | own he =>
        obtain ⟨c, rfl⟩ := he
        exact .own c
      | noted front t => exact .noted front t call.method

end Backend

end QueryGateway
