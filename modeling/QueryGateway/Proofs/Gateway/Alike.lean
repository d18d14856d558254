import QueryGateway.Proofs.Gateway.Causes

namespace QueryGateway
set_option autoImplicit true

open Rpc Store Transactions

/-- Two failures, or two breakdowns, that are related. -/
inductive Trouble.Rel (F : ε → ε → Prop) (B : String → String → Prop) : Trouble ε → Trouble ε → Prop where
  | failed (h : F e e') : Rel F B (.failed e) (.failed e')
  | broken (h : B text text') : Rel F B (.broken text) (.broken text')

/-- The same result or related troubles. -/
inductive Trouble.Same (F : ε → ε → Prop) (B : String → String → Prop) :
    Except (Trouble ε) α → Except (Trouble ε) α → Prop where
  | ok (a : α) : Same F B (.ok a) (.ok a)
  | error (h : Trouble.Rel F B t t') : Same F B (.error t) (.error t')

/-- When failures, and texts of breakdowns, count as alike. -/
structure Likeness where
  failure : Failure → Failure → Prop
  text : String → String → Prop
  refl : ∀ f, failure f f

namespace Likeness

def same : Likeness :=
  ⟨(· = ·), (· = ·), fun _ => rfl⟩

def told : Likeness :=
  ⟨fun f f' => f.kind = f'.kind ∧ f.message = f'.message, fun _ _ => True, fun _ => ⟨rfl, rfl⟩⟩

def fault (L : Likeness) (f f' : Fault) : Prop :=
  L.failure (.ofFault f) (.ofFault f')

/-- The same outcome of a call, or one from alike troubles. -/
inductive Outcomes (L : Likeness) : Except Failure Json → Except Failure Json → Prop where
  | same (r : Except Failure Json) : Outcomes L r r
  | trouble (h : Trouble.Rel L.failure L.text t t') (m : Method) :
      Outcomes L (.error (t.failure m)) (.error (t'.failure m))

theorem Outcomes.eq (h : Likeness.same.Outcomes r r') : r = r' := by
  cases h with
  | same r => rfl
  | trouble h m =>
    cases h with
    | failed h => exact congrArg _ h
    | broken h => exact congrArg (fun text => Except.error (Trouble.failure m (.broken text))) h

/-- What a failure keeps back is not in the answer. -/
theorem Outcomes.responseOf (h : told.Outcomes r r') (id : Json) :
    Gateway.responseOf id r = Gateway.responseOf id r' := by
  cases h with
  | same r => rfl
  | trouble h m =>
    cases h with
    | failed h =>
      obtain ⟨hkind, hmessage⟩ := h
      simp only [Gateway.responseOf, Answer.ofFailure, Trouble.failure, hkind, hmessage]
    | broken h => rfl

end Likeness

namespace Act

variable {R : σ → σ' → Prop} {F : ε → ε → Prop} {G : ε' → ε' → Prop} {B : String → String → Prop}

/-- From related states, the same result or related troubles, and related states again. -/
def Alike (R : σ → σ' → Prop) (F : ε → ε → Prop) (B : String → String → Prop) (x : Act σ ε α) (y : Act σ' ε α) : Prop :=
  ∀ s s', R s s' → Trouble.Same F B (x s).1 (y s').1 ∧ R (x s).2 (y s').2

theorem Alike.results {x : Act σ ε α} {y : Act σ' ε α} (h : Alike R F B x y) (hs : R s s') :
    ∃ r r' s₁ s₁', x s = (r, s₁) ∧ y s' = (r', s₁') ∧ Trouble.Same F B r r' ∧ R s₁ s₁' :=
  ⟨_, _, _, _, rfl, rfl, h s s' hs⟩

theorem Alike.ret (a : α) : Alike R F B (Act.ret a) (Act.ret a) :=
  fun _ _ hs => ⟨.ok a, hs⟩

theorem Alike.stop (h : Trouble.Rel F B t t') : Alike R F B (Act.stop t : Act σ ε α) (Act.stop t') :=
  fun _ _ hs => ⟨.error h, hs⟩

theorem Alike.andThen {x : Act σ ε α} {y : Act σ' ε α} {f : α → Act σ ε β} {g : α → Act σ' ε β}
    (h : Alike R F B x y) (hf : ∀ a, Alike R F B (f a) (g a)) : Alike R F B (x.andThen f) (y.andThen g) := by
  intro s s' hs
  obtain ⟨r, r', s, s', hx, hy, hresult, hstate⟩ := h.results hs
  unfold Act.andThen
  rw [hx, hy]
  cases hresult with
  | ok a => exact hf a s s' hstate
  | error h => exact ⟨.error h, hstate⟩

theorem Alike.mapFailure {x : Act σ ε α} {y : Act σ' ε α} (h : Alike R F B x y) {f : ε → ε'}
    (hf : ∀ e e', F e e' → G (f e) (f e')) : Alike R G B (x.mapFailure f) (y.mapFailure f) := by
  intro s s' hs
  obtain ⟨hresult, hstate⟩ := h s s' hs
  refine ⟨?_, hstate⟩
  unfold Act.mapFailure
  generalize (x s).1 = r at hresult
  generalize (y s').1 = r' at hresult
  cases hresult with
  | ok a => exact .ok a
  | error h =>
    cases h with
    | failed h => exact .error (.failed (hf _ _ h))
    | broken h => exact .error (.broken h)

theorem Alike.ofFault {L : Likeness} {x : Act σ Fault α} {y : Act σ' Fault α} (h : Alike R L.fault B x y) :
    Alike R L.failure B (x.mapFailure .ofFault) (y.mapFailure .ofFault) :=
  h.mapFailure fun _ _ hf => hf

theorem Alike.orElse {x : Act σ ε α} {y : Act σ' ε α} (h : Alike R F B x y) {change : σ → σ} {change' : σ' → σ'}
    (hchange : ∀ s s', R s s' → R (change s) (change' s')) : Alike R F B (x.orElse change) (y.orElse change') := by
  intro s s' hs
  obtain ⟨r, r', s, s', hx, hy, hresult, hstate⟩ := h.results hs
  unfold Act.orElse
  rw [hx, hy]
  cases hresult with
  | ok a => exact ⟨.ok a, hstate⟩
  | error h =>
    cases h with
    | failed h => exact ⟨.error (.failed h), hchange _ _ hstate⟩
    | broken h => exact ⟨.error (.broken h), hstate⟩

theorem Alike.undoneBy {x : Act σ ε α} {y : Act σ' ε α} (h : Alike R F B x y) {D : Fault → Fault → Prop}
    {undo : Act σ Fault Unit} {undo' : Act σ' Fault Unit} (hundo : Alike R D B undo undo') :
    Alike R F B (x.undoneBy undo) (y.undoneBy undo') := by
  intro s s' hs
  obtain ⟨r, r', s, s', hx, hy, hresult, hstate⟩ := h.results hs
  unfold Act.undoneBy
  rw [hx, hy]
  cases hresult with
  | ok a => exact ⟨.ok a, hstate⟩
  | error h =>
    cases h with
    | broken h => exact ⟨.error (.broken h), hstate⟩
    | failed h =>
      obtain ⟨r, r', s, s', hx, hy, hundone, hafter⟩ := hundo.results hstate
      simp only [hx, hy]
      cases hundone with
      | ok a => exact ⟨.error (.failed h), hafter⟩
      | error hu =>
        cases hu with
        | failed => exact ⟨.error (.failed h), hafter⟩
        | broken hu => exact ⟨.error (.broken hu), hafter⟩

/-- The same transactions, and related worlds. -/
structure InWorld (R : σ → σ' → Prop) (s : Session σ Nat) (s' : Session σ' Nat) : Prop where
  registry : s.registry = s'.registry
  world : R s.world s'.world

theorem InWorld.eq {s s' : Session σ Nat} (h : InWorld Eq s s') : s = s' := by
  obtain ⟨hregistry, hworld⟩ := h
  cases s
  cases s'
  cases hregistry
  cases hworld
  rfl

theorem Alike.inWorld {x : Act σ ε α} {y : Act σ' ε α} (h : Alike R F B x y) :
    Alike (InWorld R) F B (x.inWorld) y.inWorld :=
  fun s s' hs => ⟨(h s.world s'.world hs.world).1, hs.registry, (h s.world s'.world hs.world).2⟩

end Act

namespace Backend

variable {L : Likeness} {R : σ → σ' → Prop} {b : Backend σ} {b' : Backend σ'}

/-- Two backends do the same, and come to alike troubles. Nothing is said of their health. -/
structure Alike (L : Likeness) (R : σ → σ' → Prop) (b : Backend σ) (b' : Backend σ') : Prop where
  operation : ∀ c op, Act.Alike R L.fault L.text (b.operation c op) (b'.operation c op)
  command : ∀ c k, Act.Alike R L.fault L.text (b.command c k) (b'.command c k)
  connect : Act.Alike R L.fault L.text b.connect b'.connect
  phases : ∀ s s', R s s' → b.phases s = b'.phases s'
  setPhases : ∀ ps s s', R s s' → R (b.setPhases ps s) (b'.setPhases ps s')

namespace Alike

variable (h : Alike L R b b')
include h

theorem phase (hs : R s s') (k : Nat) : b.phase k s = b'.phase k s' := by
  rw [Backend.phase, Backend.phase, h.phases s s' hs]

theorem setPhase (hs : R s s') (k : Nat) (p : Phase) : R (b.setPhase k p s) (b'.setPhase k p s') := by
  rw [Backend.setPhase, Backend.setPhase, h.phases s s' hs]
  exact h.setPhases _ s s' hs

theorem work (c : Nat) {w : Work Failure α} (hw : w.Heeding .ofFault P) :
    Act.Alike R L.failure L.text (b.work c w) (b'.work c w) := by
  induction hw with
  | done a => exact .ret a
  | failed he => exact .stop (.failed (L.refl _))
  | @perform op next _ hfault ih =>
    intro s s' hs
    obtain ⟨hresult, hstate⟩ := h.operation c op s s' hs
    rw [work_perform, work_perform]
    generalize b.operation c op s = p at hresult hstate
    generalize b'.operation c op s' = q at hresult hstate
    obtain ⟨r, s⟩ := p
    obtain ⟨r', s'⟩ := q
    cases hresult with
    | ok a => exact ih a s s' hstate
    | error ht =>
      cases ht with
      | failed hf =>
        simp only [hfault]
        exact ⟨.error (.failed hf), hstate⟩
      | broken ht => exact ⟨.error (.broken ht), hstate⟩

theorem issue (c : Nat) (k : Command) : Act.Alike R L.failure L.text (b.issue c k) (b'.issue c k) :=
  (h.command c k).ofFault

theorem runAtomic {w : Work Failure α} (hw : w.Heeding .ofFault P) :
    Act.Alike R L.failure L.text (b.runAtomic w) (b'.runAtomic w) :=
  (h.issue _ _).andThen fun _ => ((h.work _ hw).undoneBy (h.command _ _)).andThen fun a =>
    (h.issue _ _).andThen fun _ => .ret a

theorem runIn (k : Nat) {w : Work Failure α} (hw : w.Heeding .ofFault P) :
    Act.Alike R L.failure L.text (b.runIn k w) (b'.runIn k w) := by
  intro s s' hs
  rw [Backend.runIn, Backend.runIn, h.phase hs]
  cases b'.phase k s' with
  | closed => exact ⟨.error (.failed (L.refl _)), hs⟩
  | spoiled => exact ⟨.error (.failed (L.refl _)), hs⟩
  | active => exact (h.work _ hw).orElse (fun _ _ hs => h.setPhase hs k .spoiled) s s' hs

theorem begin : Act.Alike R L.fault L.text b.begin b'.begin := by
  refine h.connect.andThen fun c => (h.command c .begin).andThen fun _ s s' hs => ?_
  simp only [h.phases s s' hs]
  exact ⟨.ok _, h.setPhases _ s s' hs⟩

theorem commit (k : Nat) : Act.Alike R L.fault L.text (b.commit k) (b'.commit k) := by
  intro s s' hs
  rw [Backend.commit, Backend.commit, h.phase hs]
  cases b'.phase k s' with
  | closed => exact ⟨.error (.failed (L.refl _)), hs⟩
  | active => exact h.command _ _ _ _ (h.setPhase hs k .closed)
  | spoiled =>
    exact (h.command _ _).andThen (fun _ => .stop (.failed (L.refl _))) _ _ (h.setPhase hs k .closed)

theorem rollback (k : Nat) : Act.Alike R L.fault L.text (b.rollback k) (b'.rollback k) := by
  intro s s' hs
  rw [Backend.rollback, Backend.rollback, h.phase hs]
  cases b'.phase k s' with
  | closed => exact ⟨.error (.failed (L.refl _)), hs⟩
  | active => exact h.command _ _ _ _ (h.setPhase hs k .closed)
  | spoiled => exact h.command _ _ _ _ (h.setPhase hs k .closed)

open Act (InWorld)

theorem inTransaction (now : Nat) (handle : String) {w : Work Failure α} (hw : w.Heeding .ofFault P) :
    Act.Alike (InWorld R) L.failure L.text (b.inTransaction now handle w) (b'.inTransaction now handle w) := by
  intro s s' hs
  rw [Backend.inTransaction, Backend.inTransaction, hs.registry]
  cases s'.registry.use? handle now with
  | none => exact ⟨.error (.failed (L.refl _)), hs⟩
  | some used => exact (h.runIn used.1 hw).inWorld _ _ ⟨rfl, hs.world⟩

theorem act (x : Execution) (now : Nat) (action : Action) (handle : Option String) :
    Act.Alike (InWorld R) L.failure L.text (b.act x now action handle) (b'.act x now action handle) := by
  have hw := Gateway.work_heeding x action
  cases handle with
  | some handle => exact h.inTransaction now handle hw
  | none =>
    rw [Backend.act, Backend.act]
    split
    · exact (h.runAtomic hw).inWorld
    · exact (h.work _ hw).inWorld

theorem beginTransaction (now : Nat) :
    Act.Alike (InWorld R) L.failure L.text (b.beginTransaction now) (b'.beginTransaction now) := by
  refine h.begin.ofFault.inWorld.andThen fun k s s' hs => ?_
  simp only [hs.registry]
  exact ⟨.ok _, rfl, hs.world⟩

omit h in
theorem finish (done : String) {ending : Nat → Act σ Fault Unit} {ending' : Nat → Act σ' Fault Unit}
    (h : ∀ k, Act.Alike R L.fault L.text (ending k) (ending' k)) (handle : String) :
    Act.Alike (InWorld R) L.failure L.text (finish done ending handle) (finish done ending' handle) := by
  intro s s' hs
  rw [Backend.finish, Backend.finish, hs.registry]
  cases s'.registry.take? handle with
  | none => exact ⟨.error (.failed (L.refl _)), hs⟩
  | some taken =>
    have hended := (h taken.1).ofFault.inWorld.andThen fun _ => .ret (Gateway.status done [])
    exact hended _ _ ⟨rfl, hs.world⟩

theorem answerCall (x : Execution) (clock : Clock) {call : Call} (hcall : call ≠ .health) :
    Act.Alike (InWorld R) L.failure L.text (b.answerCall x clock call) (b'.answerCall x clock call) := by
  cases call with
  | ping => exact .ret _
  | health => exact absurd rfl hcall
  | begin => exact h.beginTransaction clock.now
  | commit handle => exact finish "committed" h.commit handle
  | rollback handle => exact finish "rolled_back" h.rollback handle
  | act action handle => exact h.act x clock.now action handle

theorem invoke (x : Execution) (clock : Clock) (hmethod : method ≠ Method.healthCheck.name) (params : Option Json)
    (hs : InWorld R s s') :
    L.Outcomes (b.invoke x clock method params s).1 (b'.invoke x clock method params s').1 ∧
      InWorld R (b.invoke x clock method params s).2 (b'.invoke x clock method params s').2 := by
  unfold Backend.invoke
  cases hm : Method.ofName? method with
  | none => exact ⟨.same _, hs⟩
  | some m =>
    simp only
    cases hcall : (do Call.ofParams m (← Gateway.paramsOf params) : Except Failure Call) with
    | error f => exact ⟨.same _, hs⟩
    | ok call =>
      have hne : call ≠ .health := by
        rintro rfl
        obtain ⟨ms, -, hms⟩ := bind_ok hcall
        obtain rfl : Method.healthCheck = m := Call.ofParams_method hms
        exact hmethod (Method.name_of_ofName? hm).symm
      obtain ⟨hresult, hstate⟩ := h.answerCall x clock hne s s' hs
      refine ⟨?_, hstate⟩
      simp only
      generalize (b.answerCall x clock call s).1 = r at hresult
      generalize (b'.answerCall x clock call s').1 = r' at hresult
      cases hresult with
      | ok v => exact .same _
      | error ht => exact .trouble ht _

end Alike

end Backend

end QueryGateway
