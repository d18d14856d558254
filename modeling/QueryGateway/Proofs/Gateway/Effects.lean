import QueryGateway.Proofs.Gateway.Traffic
import QueryGateway.Proofs.Store.Connections
import Mathlib.Data.List.Induction

namespace QueryGateway.Rpc.Call

def handle? : Call → Option String
  | commit handle => some handle
  | rollback handle => some handle
  | act _ handle => handle
  | _ => none

end QueryGateway.Rpc.Call

namespace QueryGateway.Traffic
set_option autoImplicit true

open Store Rpc

namespace Event

/-- What a successful unit of work in the transaction of a handle noted. -/
def notedIn (handle : String) : Event → List Change
  | worked _ (some h) (.ok _) changes => if h = handle then changes else []
  | _ => []

def WorksIn (handle : String) : Event → Prop
  | worked _ (some h) _ _ => h = handle
  | _ => False

def FailsIn (handle : String) : Event → Prop
  | worked _ (some h) (.error _) _ => h = handle
  | _ => False

/-- A commit of that handle returned a result. -/
def Commits (handle : String) : Event → Prop
  | answered (.commit h) (.ok _) => h = handle
  | _ => False

/-- A commit of that handle returned a result, or a rollback. -/
inductive Ends (handle : String) : Bool → Event → Prop where
  | commit (v : Json) : Ends handle true (answered (.commit handle) (.ok v))
  | rollback (v : Json) : Ends handle false (answered (.rollback handle) (.ok v))

def result : Event → Except Failure Json
  | worked _ _ result _ => result
  | answered _ result => result

/-- It was asked for under that handle. -/
def isUnder (handle : String) : Event → Bool
  | worked _ h _ _ => h == some handle
  | answered call _ => call.handle? == some handle

/-- A transaction with a failed unit is never committed, and one that is committed takes no more work and no second
commit. -/
def MayPrecede (e e' : Event) : Prop :=
  ∀ handle, (e.FailsIn handle → ¬ e'.Commits handle) ∧
    (e.Commits handle → ¬ e'.WorksIn handle ∧ ¬ e'.Commits handle)

/-- An event that neither is a unit of work nor a successful commit. -/
def Quiet : Event → Prop
  | worked .. => False
  | answered (.commit _) (.ok _) => False
  | answered .. => True

end Event

def notedIn (handle : String) (history : List Event) : List Change :=
  history.flatMap (Event.notedIn handle)

/-- What an event makes visible, when it comes after `before`. -/
def Event.effects (before : List Event) : Event → List (List Change)
  | worked _ none (.ok _) changes => [changes]
  | answered (.commit handle) (.ok _) => [Traffic.notedIn handle before]
  | _ => []

def effectsAfter (before : List Event) : List Event → List (List Change)
  | [] => []
  | e :: es => e.effects before ++ effectsAfter (before ++ [e]) es

/-- What a history makes visible, in the order in which it took effect. -/
def effects (history : List Event) : List (List Change) :=
  effectsAfter [] history

theorem effectsAfter_concat (before es : List Event) (e : Event) :
    effectsAfter before (es ++ [e]) = effectsAfter before es ++ e.effects (before ++ es) := by
  induction es generalizing before with
  | nil => simp only [List.nil_append, effectsAfter, List.append_nil]
  | cons e' es ih =>
    simp only [List.cons_append, effectsAfter, ih, List.append_assoc, List.nil_append]

theorem effects_concat (history : List Event) (e : Event) :
    effects (history ++ [e]) = effects history ++ e.effects history :=
  effectsAfter_concat [] history e

theorem notedIn_concat (handle : String) (history : List Event) (e : Event) :
    notedIn handle (history ++ [e]) = notedIn handle history ++ e.notedIn handle := by
  simp only [notedIn, List.flatMap_append, List.flatMap_singleton]

theorem notedIn_filter {history : List Event} {p : Event → Bool} (h : ∀ e ∈ history, p e = false → e.notedIn handle = []) :
    notedIn handle (history.filter p) = notedIn handle history := by
  induction history with
  | nil => rfl
  | cons e history ih =>
    have ih := ih fun e' he' => h e' (List.mem_cons_of_mem _ he')
    cases hp : p e with
    | true =>
      rw [List.filter_cons_of_pos hp]
      exact congrArg (e.notedIn handle ++ ·) ih
    | false =>
      rw [List.filter_cons_of_neg (Bool.not_eq_true _ ▸ hp), ih, notedIn, notedIn, List.flatMap_cons,
        h e List.mem_cons_self hp, List.nil_append]

theorem Event.effects_congr {e : Event} {earlier earlier' : List Event}
    (h : ∀ handle, e.Commits handle → Traffic.notedIn handle earlier = Traffic.notedIn handle earlier') :
    e.effects earlier = e.effects earlier' := by
  cases e with
  | worked a handle result changes => cases handle <;> cases result <;> rfl
  | answered call result =>
    cases call with
    | commit handle =>
      cases result with
      | ok v => exact congrArg ([·]) (h handle rfl)
      | error f => rfl
    | _ => rfl

/-- What makes nothing visible, at once or by a later commit, may as well not have been. -/
theorem effects_filter {history : List Event} {p : Event → Bool} (h : ∀ e ∈ history, p e = false →
    (∀ before, e.effects before = []) ∧ ∀ handle, (∃ c ∈ history, c.Commits handle) → e.notedIn handle = []) :
    effects (history.filter p) = effects history := by
  induction history using List.reverseRecOn with
  | nil => rfl
  | append_singleton history e ih =>
    have ih := ih fun e' he' hp => by
      obtain ⟨hquiet, hnoted⟩ := h e' (List.mem_append_left _ he') hp
      exact ⟨hquiet, fun handle ⟨c, hc, hcommits⟩ => hnoted handle ⟨c, List.mem_append_left _ hc, hcommits⟩⟩
    have he : e ∈ history ++ [e] := List.mem_append_right _ (List.mem_singleton_self e)
    rw [List.filter_append, effects_concat]
    cases hp : p e with
    | false =>
      rw [List.filter_cons_of_neg (Bool.not_eq_true _ ▸ hp), List.filter_nil, List.append_nil, (h e he hp).1,
        List.append_nil, ih]
    | true =>
      have hsame : e.effects (history.filter p) = e.effects history := Event.effects_congr fun handle hc =>
        notedIn_filter fun e' he' hp' => (h e' (List.mem_append_left _ he') hp').2 handle ⟨e, he, hc⟩
      rw [List.filter_cons_of_pos hp, List.filter_nil, effects_concat, hsame, ih]

theorem effects_results (history : List Event) :
    effects (history.filter fun e => e.result.isOk) = effects history := by
  refine effects_filter fun e _ he => ?_
  cases e with
  | worked a handle result changes =>
    cases result with
    | ok v => cases he
    | error f => cases handle <;> exact ⟨fun _ => rfl, fun _ _ => rfl⟩
  | answered call result =>
    cases result with
    | ok v => cases he
    | error f => cases call <;> exact ⟨fun _ => rfl, fun _ _ => rfl⟩

/-- What was done under a handle makes nothing visible as long as there is no commit of it. -/
theorem effects_others {history : List Event} (h : ∀ e ∈ history, ¬ e.Commits handle) :
    effects (history.filter fun e => !e.isUnder handle) = effects history := by
  refine effects_filter fun e he hunder => ?_
  have hunder : e.isUnder handle = true := (Bool.not_eq_false' ..).mp hunder
  cases e with
  | worked a h' result changes =>
    obtain rfl : h' = some handle := beq_iff_eq.mp hunder
    cases result with
    | error f => exact ⟨fun _ => rfl, fun _ _ => rfl⟩
    | ok v =>
      refine ⟨fun _ => rfl, fun other ⟨c, hc, hcommits⟩ => if_neg fun heq => ?_⟩
      exact h c hc (heq ▸ hcommits)
  | answered call result =>
    refine ⟨fun earlier => ?_, fun _ _ => rfl⟩
    cases call with
    | commit h' =>
      obtain rfl : h' = handle := Option.some.inj (beq_iff_eq.mp hunder)
      cases result with
      | error f => rfl
      | ok v => exact absurd rfl (h _ he)
    | _ => rfl

namespace Event

theorem Commits.ends {e : Event} (h : e.Commits handle) : e.Ends handle true := by
  cases e with
  | worked => exact h.elim
  | answered call result =>
    cases call with
    | commit h' =>
      cases result with
      | ok v =>
        obtain rfl : h' = handle := h
        exact .commit v
      | error f => exact h.elim
    | _ => exact h.elim

theorem FailsIn.worksIn {e : Event} (h : e.FailsIn handle) : e.WorksIn handle := by
  cases e with
  | worked a handle' result changes =>
    cases handle' with
    | none => exact h
    | some h' =>
      cases result with
      | error f => exact h
      | ok v => exact h.elim
  | answered => exact h

theorem notedIn_of_not_worksIn {e : Event} (h : ¬ e.WorksIn handle) : e.notedIn handle = [] := by
  cases e with
  | worked a handle' result changes =>
    cases handle' with
    | none => rfl
    | some h' =>
      cases result with
      | error f => rfl
      | ok v => exact if_neg h
  | answered => rfl

namespace Quiet

theorem effects {e : Event} (h : e.Quiet) (before : List Event) : e.effects before = [] := by
  cases e with
  | worked => exact h.elim
  | answered call result =>
    cases call with
    | commit handle =>
      cases result with
      | ok v => exact h.elim
      | error f => rfl
    | _ => rfl

theorem not_worksIn {e : Event} (h : e.Quiet) (handle : String) : ¬ e.WorksIn handle := by
  cases e with
  | worked => exact h.elim
  | answered => exact id

theorem not_commits {e : Event} (h : e.Quiet) (handle : String) : ¬ e.Commits handle := by
  cases e with
  | worked => exact id
  | answered call result =>
    cases call with
    | commit h' =>
      cases result with
      | ok v => exact h.elim
      | error f => exact id
    | _ => exact id

end Quiet

theorem MayPrecede.of_not_commits {e e' : Event} (hc : ∀ handle, ¬ e'.Commits handle)
    (hw : ∀ handle, e.Commits handle → ¬ e'.WorksIn handle) : e.MayPrecede e' :=
  fun handle => ⟨fun _ => hc handle, fun h => ⟨hw handle h, hc handle⟩⟩

end Event

end QueryGateway.Traffic
