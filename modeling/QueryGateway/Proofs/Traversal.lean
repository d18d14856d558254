import Mathlib

namespace QueryGateway
set_option autoImplicit true

theorem bind_error {r : Except ε α} {f : α → Except ε β} (h : r >>= f = .error e) :
    r = .error e ∨ ∃ a, r = .ok a ∧ f a = .error e := by
  cases r with
  | error e' =>
    cases Except.error.inj h
    exact .inl rfl
  | ok a => exact .inr ⟨a, rfl, h⟩

theorem bind_ok {r : Except ε α} {f : α → Except ε β} (h : r >>= f = .ok b) : ∃ a, r = .ok a ∧ f a = .ok b := by
  cases r with
  | error e => exact nomatch h
  | ok a => exact ⟨a, rfl, h⟩

theorem optionMapM_error {f : α → Except ε β} {o : Option α} (h : o.mapM f = .error e) : ∃ a ∈ o, f a = .error e := by
  cases o with
  | none => exact nomatch h
  | some a =>
    obtain ha | ⟨b, -, hb⟩ := bind_error h
    · exact ⟨a, rfl, ha⟩
    · exact nomatch hb

theorem optionMapM_ok_iff {f : α → Except ε β} {o : Option α} :
    o.mapM f = .ok o' ↔ Option.Rel (fun a b => f a = .ok b) o o' := by
  constructor
  · intro h
    cases o with
    | none =>
      cases Except.ok.inj h
      exact .none
    | some a =>
      obtain ⟨b, hb, h⟩ := bind_ok h
      cases Except.ok.inj h
      exact .some hb
  · intro h
    cases h with
    | none => rfl
    | some hb =>
      rw [Option.mapM_some, hb]
      rfl

theorem mapM_ok_iff {f : α → Except ε β} {l : List α} :
    l.mapM f = .ok l' ↔ List.Forall₂ (fun a b => f a = .ok b) l l' := by
  constructor
  · intro h
    induction l generalizing l' with
    | nil =>
      cases Except.ok.inj h
      exact .nil
    | cons a l ih =>
      rw [List.mapM_cons] at h
      cases ha : f a with
      | error e =>
        rw [ha] at h
        exact nomatch h
      | ok b =>
        cases hl : l.mapM f with
        | error e =>
          rw [ha, hl] at h
          exact nomatch h
        | ok bs =>
          rw [ha, hl] at h
          cases Except.ok.inj h
          exact .cons ha (ih hl)
  · intro h
    induction h with
    | nil => rfl
    | cons ha _ ih =>
      rw [List.mapM_cons, ha, ih]
      rfl

theorem mapM_error {f : α → Except ε β} {l : List α} (h : l.mapM f = .error e) : ∃ a ∈ l, f a = .error e := by
  induction l with
  | nil => exact nomatch h
  | cons a l ih =>
    rw [List.mapM_cons] at h
    obtain ha | ⟨b, -, h⟩ := bind_error h
    · exact ⟨a, List.mem_cons_self, ha⟩
    obtain hl | ⟨bs, -, h⟩ := bind_error h
    · obtain ⟨c, hc, he⟩ := ih hl
      exact ⟨c, List.mem_cons_of_mem a hc, he⟩
    · exact nomatch h

theorem mapM_eq_some_iff {f : α → Option β} {l : List α} :
    l.mapM f = some l' ↔ List.Forall₂ (fun a b => f a = some b) l l' := by
  induction l generalizing l' with
  | nil =>
    rw [List.mapM_nil, List.forall₂_nil_left_iff]
    exact ⟨fun h => (Option.some.inj h).symm, fun h => congrArg some h.symm⟩
  | cons a l ih =>
    simp only [List.mapM_cons, Option.bind_eq_bind, Option.pure_def, Option.bind_eq_some_iff, Option.some.injEq]
    constructor
    · rintro ⟨b, hb, bs, hbs, rfl⟩
      exact .cons hb (ih.mp hbs)
    · intro h
      cases h with
      | cons hb hbs => exact ⟨_, hb, _, ih.mpr hbs, rfl⟩

theorem mapM_eq_none_iff {f : α → Option β} {l : List α} : l.mapM f = none ↔ ∃ a ∈ l, f a = none := by
  induction l with
  | nil => exact iff_of_false nofun nofun
  | cons a l ih =>
    simp only [List.mem_cons, exists_eq_or_imp, ← ih, List.mapM_cons]
    cases f a with
    | none => exact iff_of_true rfl (.inl rfl)
    | some b => cases l.mapM f <;> simp

theorem forM_eq_ok {f : α → Except ε Unit} {l : List α} : l.forM f = .ok () ↔ ∀ a ∈ l, f a = .ok () := by
  induction l with
  | nil => exact iff_of_true rfl nofun
  | cons a l ih =>
    rw [List.forall_mem_cons, ← ih]
    change (f a >>= fun _ => l.forM f) = .ok () ↔ _
    cases f a with
    | error e => exact iff_of_false nofun nofun
    | ok u => exact (and_iff_right rfl).symm

theorem exists_of_mem_left {R : α → β → Prop} (h : List.Forall₂ R l l') (ha : a ∈ l) : ∃ b ∈ l', R a b := by
  induction h with
  | nil => exact absurd ha List.not_mem_nil
  | @cons a' b l l' hab _ ih =>
    rcases List.mem_cons.mp ha with rfl | ha
    · exact ⟨b, List.mem_cons_self, hab⟩
    · obtain ⟨b', hb', hab'⟩ := ih ha
      exact ⟨b', List.mem_cons_of_mem b hb', hab'⟩

theorem forall₂_exchange {R : α → β → Prop} {P : α → α → Prop} {Q : β → β → Prop}
    (h : ∀ a a' b, P a a' → R a b → ∃ b', R a' b' ∧ Q b b') (hl : List.Forall₂ P l l') (hr : List.Forall₂ R l bs) :
    ∃ bs', List.Forall₂ R l' bs' ∧ List.Forall₂ Q bs bs' := by
  induction hl generalizing bs with
  | nil =>
    cases hr
    exact ⟨[], .nil, .nil⟩
  | cons ha _ ih =>
    cases hr with
    | cons hb hbs =>
      obtain ⟨b', hb', hq⟩ := h _ _ _ ha hb
      obtain ⟨bs', hbs', hqs⟩ := ih hbs
      exact ⟨b' :: bs', .cons hb' hbs', .cons hq hqs⟩

theorem optionRel_exchange {R : α → β → Prop} {P : α → α → Prop} {Q : β → β → Prop}
    (h : ∀ a a' b, P a a' → R a b → ∃ b', R a' b' ∧ Q b b') {o o' : Option α} (ho : Option.Rel P o o')
    (hr : Option.Rel R o r) : ∃ r', Option.Rel R o' r' ∧ Option.Rel Q r r' := by
  cases ho with
  | none =>
    cases hr
    exact ⟨none, .none, .none⟩
  | some ha =>
    cases hr with
    | some hb =>
      obtain ⟨b', hb', hq⟩ := h _ _ _ ha hb
      exact ⟨some b', .some hb', .some hq⟩

theorem exists_forall₂ {R : α → β → Prop} {l : List α} (h : ∀ a ∈ l, ∃ b, R a b) : ∃ l', List.Forall₂ R l l' := by
  induction l with
  | nil => exact ⟨[], .nil⟩
  | cons a l ih =>
    obtain ⟨⟨b, hb⟩, hmore⟩ := List.forall_mem_cons.mp h
    obtain ⟨l', hl'⟩ := ih hmore
    exact ⟨b :: l', .cons hb hl'⟩

end QueryGateway
