import Mathlib
import QueryGateway.Transactions.Registry

namespace QueryGateway.Transactions
set_option autoImplicit true

theorem handle_injective (h : handle m = handle n) : m = n :=
  Nat.repr_inj.mp ((String.append_right_inj "tx_").mp h)

namespace Registry

theorem find?_some {r : Registry τ} {s : String} {e : Entry τ} (h : r.find? s = some e) :
    e ∈ r.entries ∧ handle e.number = s := by
  unfold find? at h
  have hb := List.find?_some h
  exact ⟨List.mem_of_find?_eq_some h, beq_iff_eq.mp hb⟩

/-- A later state of a registry. -/
structure Precedes (r r' : Registry τ) : Prop where
  next_le : r.next ≤ r'.next
  numbers : ∀ e' ∈ r'.entries, e'.number < r.next → ∃ e ∈ r.entries, e.number = e'.number

namespace Precedes

variable {r r' r'' : Registry τ}

theorem refl (r : Registry τ) : r.Precedes r :=
  ⟨Nat.le_refl _, fun e he _ => ⟨e, he, rfl⟩⟩

theorem trans (h : r.Precedes r') (h' : r'.Precedes r'') : r.Precedes r'' := by
  refine ⟨Nat.le_trans h.next_le h'.next_le, fun e he hlt => ?_⟩
  obtain ⟨e', he', hn⟩ := h'.numbers e he (Nat.lt_of_lt_of_le hlt h.next_le)
  obtain ⟨e'', he'', hn'⟩ := h.numbers e' he' (by rw [hn]; exact hlt)
  exact ⟨e'', he'', hn'.trans hn⟩

theorem keep (r : Registry τ) (p : Entry τ → Bool) : r.Precedes (r.keep p) :=
  ⟨Nat.le_refl _, fun e he _ => ⟨e, (List.mem_filter.mp he).1, rfl⟩⟩

theorem take? (h : r.take? s = some (k, r')) : r.Precedes r' := by
  obtain ⟨e, -, heq⟩ := Option.map_eq_some_iff.mp h
  cases heq
  exact keep r _

theorem use? (h : r.use? s now = some (k, r')) : r.Precedes r' := by
  obtain ⟨e, -, heq⟩ := Option.map_eq_some_iff.mp h
  cases heq
  refine ⟨Nat.le_refl _, fun e' he' _ => ?_⟩
  obtain ⟨e'', he'', rfl⟩ := List.mem_map.mp he'
  exact ⟨e'', he'', (touched_number _ _ _).symm⟩

theorem add (r : Registry τ) (k : τ) (now : Nat) : r.Precedes (r.add k now).2 := by
  refine ⟨Nat.le_succ _, fun e he hlt => ?_⟩
  rcases List.mem_append.mp he with hm | hm
  · exact ⟨e, hm, rfl⟩
  · rw [List.mem_singleton.mp hm] at hlt
    exact absurd hlt (Nat.lt_irrefl _)

/-- A handle that was issued and is gone stays gone. -/
theorem find?_none (h : r.Precedes r') (hn : n < r.next) (hf : r.find? (handle n) = none) :
    r'.find? (handle n) = none := by
  cases hf' : r'.find? (handle n) with
  | none => rfl
  | some e' =>
    obtain ⟨he', hh⟩ := find?_some hf'
    have hnum : e'.number = n := handle_injective hh
    obtain ⟨e, he, heq⟩ := h.numbers e' he' (by rw [hnum]; exact hn)
    have hnot := List.find?_eq_none.mp hf e he
    rw [heq, hnum] at hnot
    exact absurd (beq_self_eq_true _) hnot

end Precedes

end Registry

end QueryGateway.Transactions
