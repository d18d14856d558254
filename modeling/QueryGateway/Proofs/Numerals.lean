import Mathlib
import QueryGateway.Decimal.Numeral

namespace QueryGateway
set_option autoImplicit true

/-- A decimal numeral with so many digits. -/
structure IsNumeral (length n : Nat) (cs : List Char) : Prop where
  digits : ∀ c ∈ cs, c.isDigit = true
  length : cs.length = length
  value : Nat.ofDigitChars 10 cs 0 = n

theorem isNumeral_toDigits (n : Nat) : IsNumeral (List.length (Nat.toDigits 10 n)) n (Nat.toDigits 10 n) :=
  ⟨fun _ hc => Nat.isDigit_of_mem_toDigits (by decide) (by decide) hc, rfl, Nat.ofDigitChars_ten_toDigits⟩

theorem IsNumeral.zeros (h : IsNumeral k n cs) (extra : Nat) :
    IsNumeral (extra + k) n (List.replicate extra '0' ++ cs) := by
  refine ⟨List.forall_mem_append.mpr ⟨fun c hc => ?_, h.digits⟩, ?_, ?_⟩
  · rw [List.eq_of_mem_replicate hc]
    rfl
  · rw [List.length_append, List.length_replicate, h.length]
  · rw [Nat.ofDigitChars_append, Nat.ofDigitChars_replicate_zero, Nat.mul_zero, h.value]

/-- A text of digits and nothing else, zeros in front or not, that says the number. -/
def Says (s : String) (n : Nat) : Prop :=
  ∃ k, 0 < k ∧ IsNumeral k n s.toList

theorem says_toString (n : Nat) : Says (toString n) n := by
  have hdigits : (toString n).toList = Nat.toDigits 10 n := String.toList_ofList
  rw [Says, hdigits]
  exact ⟨_, List.length_pos_iff.mpr Nat.toDigits_ne_nil, isNumeral_toDigits n⟩

namespace Decimal

theorem digitsValue_eq (cs : List Char) : digitsValue cs = Nat.ofDigitChars 10 cs 0 :=
  rfl

theorem says_iff : Says s n ↔ isDigits s.toList = true ∧ digitsValue s.toList = n := by
  rw [isDigits, Bool.and_eq_true, Bool.not_eq_true', List.isEmpty_eq_false_iff, List.all_eq_true, digitsValue_eq]
  constructor
  · rintro ⟨length, hpos, h⟩
    refine ⟨⟨?_, h.digits⟩, h.value⟩
    rw [← List.length_pos_iff, h.length]
    exact hpos
  · rintro ⟨⟨hne, hdigits⟩, hvalue⟩
    exact ⟨_, List.length_pos_iff.mpr hne, hdigits, rfl, hvalue⟩

theorem isDigits_iff : isDigits s.toList = true ↔ ∃ n, Says s n := by
  constructor
  · intro h
    exact ⟨_, says_iff.mpr ⟨h, rfl⟩⟩
  · rintro ⟨n, h⟩
    exact (says_iff.mp h).1

theorem boundedStep?_eq (bound n : Nat) (c : Char) :
    boundedStep? bound n c =
      if 10 * n + (c.toNat - '0'.toNat) ≤ bound then some (10 * n + (c.toNat - '0'.toNat)) else none := by
  simp only [boundedStep?, Option.guard, decide_eq_true_eq, Option.bind_eq_bind]
  split_ifs with htenfold hnext hnext
  · exact if_pos hnext
  · exact if_neg hnext
  · omega
  · rfl

theorem le_ofDigitChars (cs : List Char) (n : Nat) : n ≤ Nat.ofDigitChars 10 cs n := by
  rw [Nat.ofDigitChars_eq_ofDigitChars_zero]
  exact Nat.le_add_right_of_le (Nat.le_mul_of_pos_left n (Nat.pow_pos (by decide)))

theorem foldlM_boundedStep?_eq_some_iff (h : n ≤ bound) :
    cs.foldlM (boundedStep? bound) n = some m ↔ Nat.ofDigitChars 10 cs n = m ∧ m ≤ bound := by
  induction cs generalizing n with
  | nil =>
    constructor
    · rintro ⟨⟩
      exact ⟨rfl, h⟩
    · rintro ⟨rfl, -⟩
      rfl
  | cons c cs ih =>
    rw [List.foldlM_cons, boundedStep?_eq, Nat.ofDigitChars_cons]
    split_ifs with hnext
    · exact ih hnext
    · refine iff_of_false nofun ?_
      rintro ⟨rfl, hle⟩
      exact hnext ((le_ofDigitChars cs _).trans hle)

/-- Reading within a bound finds the number that the digits say, and it is within the bound; else it finds nothing. -/
theorem boundedValue?_eq_some_iff : boundedValue? bound cs = some n ↔ digitsValue cs = n ∧ n ≤ bound :=
  foldlM_boundedStep?_eq_some_iff (Nat.zero_le bound)

theorem boundedValue?_eq_none_iff : boundedValue? bound cs = none ↔ bound < digitsValue cs := by
  rw [Option.eq_none_iff_forall_ne_some]
  simp only [Ne, boundedValue?_eq_some_iff, not_and, forall_eq', not_le]

end Decimal

end QueryGateway
