import Mathlib
import QueryGateway.Json.Number

namespace QueryGateway
set_option autoImplicit true

open Float.Model
open Float.Model.UnpackedFloat

/-- Zero, or a finite value whose first binary digit is at place `t` or below it; its last one is not above the last
place of binary64. -/
def Within (t : Int) : UnpackedFloat → Prop
  | .zero _ => True
  | .finite _ m e _ => totalExponent m e ≤ t ∧ e ≤ 971
  | _ => False

instance Within.decide (t : Int) : ∀ u, Decidable (Within t u)
  | .zero _ => .isTrue trivial
  | .finite _ m e _ => inferInstanceAs (Decidable (totalExponent m e ≤ t ∧ e ≤ 971))
  | .infinity _ => .isFalse id
  | .notANumber => .isFalse id

/-- A finite value whose first binary digit is at place `t` or above it. -/
def Beyond (t : Int) : UnpackedFloat → Prop
  | .finite _ m e _ => t ≤ totalExponent m e
  | _ => False

instance Beyond.decide (t : Int) : ∀ u, Decidable (Beyond t u)
  | .finite _ m e _ => inferInstanceAs (Decidable (t ≤ totalExponent m e))
  | .zero _ => .isFalse id
  | .infinity _ => .isFalse id
  | .notANumber => .isFalse id

theorem Within.mono (h : Within t u) (ht : t ≤ t') : Within t' u := by
  cases u with
  | zero s => trivial
  | finite s m e hm => exact ⟨Int.le_trans h.1 ht, h.2⟩
  | infinity s => exact h
  | notANumber => exact h

theorem shiftRight_mantissa (em : ExtendedMantissa) (n : Nat) : (em >>> n).mantissa = em.mantissa / 2 ^ n := by
  change (n.repeat ExtendedMantissa.shiftRightOne em).mantissa = _
  induction n with
  | zero => exact (Nat.div_one _).symm
  | succ n ih =>
    change (n.repeat ExtendedMantissa.shiftRightOne em).mantissa / 2 = _
    rw [ih, Nat.div_div_eq_div_mul, ← Nat.pow_succ]

theorem roundedMantissa_bounds (em : ExtendedMantissa) :
    em.mantissa ≤ em.roundedMantissa ∧ em.roundedMantissa ≤ em.mantissa + 1 := by
  obtain ⟨m, r, s⟩ := em
  have hmod := Nat.mod_lt m (Nat.zero_lt_two)
  cases r <;> cases s <;> simp only [ExtendedMantissa.roundedMantissa, ExtendedMantissa.accuracy,
    Accuracy.roundToNearestEven] <;> omega

theorem ofMantissaAndAccuracy_mantissa (m : Nat) (a : Accuracy) :
    (ExtendedMantissa.ofMantissaAndAccuracy m a).mantissa = m := by
  unfold ExtendedMantissa.ofMantissaAndAccuracy
  split <;> rfl

theorem log2_succ_le (m : Nat) : (m + 1).log2 ≤ m.log2 + 1 := by
  have hlt : m < 2 ^ (m.log2 + 1) := Nat.lt_log2_self
  have hlt' : m + 1 < 2 ^ (m.log2 + 2) := by
    rw [Nat.pow_succ]
    omega
  exact Nat.le_of_lt_succ ((Nat.log2_lt (Nat.succ_ne_zero m)).mpr hlt')

theorem log2_mono {m n : Nat} (h : m ≤ n) : m.log2 ≤ n.log2 := by
  rw [Nat.log2_eq_log_two, Nat.log2_eq_log_two]
  exact Nat.log_mono_right h

theorem log2_div_two_pow (m n : Nat) : (m / 2 ^ n).log2 = m.log2 - n := by
  rw [Nat.log2_eq_log_two, Nat.log2_eq_log_two, Nat.log_div_base_pow]

theorem shift_target (m : Nat) (e : Int) (a : Accuracy) :
    let r := shiftToTargetExponent Format.binary64 m e a
    let t := max (totalExponent m e - 53) (-1074)
    r.2 = max e t ∧ r.1.mantissa = m / 2 ^ (t - e).toNat := by
  have htarget : Format.binary64.targetExponent (totalExponent m e) = max (totalExponent m e - 53) (-1074) := rfl
  simp only [shiftToTargetExponent, shiftToExponent, htarget, shiftRight_mantissa, ofMantissaAndAccuracy_mantissa]
  refine ⟨?_, trivial⟩
  omega

theorem roundWithAccuracy_eq (s : Sign) (m : Nat) (e : Int) (a : Accuracy) :
    ∃ (t t' : Int) (r : Nat), t = max (totalExponent m e - 53) (-1074) ∧
      m / 2 ^ (t - e).toNat ≤ r ∧ r ≤ m / 2 ^ (t - e).toNat + 1 ∧
      t' = max (totalExponent r (max e t) - 53) (-1074) ∧
      (r / 2 ^ (t' - max e t).toNat = 0 ∧ roundWithAccuracy Format.binary64 s m e a = .zero s ∨
        ∃ hm', roundWithAccuracy Format.binary64 s m e a =
          .finite s (r / 2 ^ (t' - max e t).toNat) (max (max e t) t') hm') := by
  have hfirst := shift_target m e a
  generalize hr : shiftToTargetExponent Format.binary64 m e a = first at hfirst
  obtain ⟨em, e₁⟩ := first
  obtain ⟨rfl, hm₁⟩ := hfirst
  have hsecond := shift_target em.roundedMantissa (max e (max (totalExponent m e - 53) (-1074))) .exact
  generalize hr' : shiftToTargetExponent Format.binary64 em.roundedMantissa
    (max e (max (totalExponent m e - 53) (-1074))) .exact = second at hsecond
  obtain ⟨em', e₂⟩ := second
  obtain ⟨rfl, hm₂⟩ := hsecond
  refine ⟨_, _, em.roundedMantissa, rfl, ?_, ?_, rfl, ?_⟩
  · rw [← hm₁]
    exact (roundedMantissa_bounds em).1
  · rw [← hm₁]
    exact (roundedMantissa_bounds em).2
  · rw [← hm₂]
    simp only [roundWithAccuracy, hr, hr']
    split
    · next hz => exact .inl ⟨hz, rfl⟩
    · next hz => exact .inr ⟨Nat.pos_of_ne_zero hz, rfl⟩

theorem roundWithAccuracy_within (s : Sign) (a : Accuracy) (ht : totalExponent m e ≤ 1023) (he : e ≤ 971) :
    Within (max (totalExponent m e + 1) (-1072)) (roundWithAccuracy Format.binary64 s m e a) := by
  obtain ⟨t, t', r, htarget, -, hr, htarget', ⟨-, heq⟩ | ⟨hm', heq⟩⟩ := roundWithAccuracy_eq s m e a
  · rw [heq]
    trivial
  · rw [heq]
    simp only [totalExponent] at *
    have hlog : r.log2 ≤ m.log2 - (t - e).toNat + 1 := by
      rw [← log2_div_two_pow]
      exact Nat.le_trans (log2_mono hr) (log2_succ_le _)
    have hcarried : m.log2 < (t - e).toNat → r.log2 = 0 := by
      intro hlt
      have hz : m / 2 ^ (t - e).toNat = 0 := by
        apply Nat.div_eq_of_lt
        exact Nat.lt_of_lt_of_le Nat.lt_log2_self (Nat.pow_le_pow_right Nat.zero_lt_two hlt)
      rw [hz] at hr
      exact Nat.le_zero.mp (log2_mono hr)
    have hkept : (t' - max e t).toNat ≤ r.log2 := by
      by_contra hgt
      apply Nat.pos_iff_ne_zero.mp hm'
      apply Nat.div_eq_of_lt
      exact Nat.lt_of_lt_of_le Nat.lt_log2_self (Nat.pow_le_pow_right Nat.zero_lt_two (by omega))
    constructor
    · change ((r / 2 ^ (t' - max e t).toNat).log2 : Int) + 1 + max (max e t) t' ≤ _
      rw [log2_div_two_pow]
      omega
    · omega

theorem roundWithAccuracy_normal (s : Sign) (a : Accuracy) (hm : 52 ≤ m.log2) (ht : -1021 ≤ totalExponent m e) :
    ∃ m' e' hm', roundWithAccuracy Format.binary64 s m e a = .finite s m' e' hm' ∧ m'.log2 = 52 ∧
      totalExponent m e ≤ 53 + e' ∧ e' ≤ totalExponent m e - 52 := by
  obtain ⟨t, t', r, htarget, hr, hr', htarget', hshape⟩ := roundWithAccuracy_eq s m e a
  simp only [totalExponent] at *
  have hlow := log2_mono hr
  have hhigh := Nat.le_trans (log2_mono hr') (log2_succ_le _)
  rw [log2_div_two_pow] at hlow hhigh
  have hlog : (r / 2 ^ (t' - max e t).toNat).log2 = 52 := by
    rw [log2_div_two_pow]
    omega
  obtain ⟨hz, -⟩ | ⟨hm', heq⟩ := hshape
  · rw [hz] at hlog
    exact absurd hlog (by decide)
  · refine ⟨_, _, hm', heq, hlog, ?_, ?_⟩
    · omega
    · omega

theorem within_unpack (s : Sign) (x : BitVec 11) (y : BitVec 52) (hx : x.toNat < 2047) (ht : -1022 ≤ t)
    (h : (x.toNat : Int) - 1022 ≤ t) : Within t (unpack Format.binary64 (packComponents Format.binary64 s x y)) := by
  have hnot : x ≠ -1#_ := by
    intro heq
    rw [heq] at hx
    exact absurd hx (by decide)
  unfold UnpackedFloat.unpack
  simp only [unpackExponent_packComponents, unpackMantissa_packComponents, if_neg hnot]
  split
  · next hzero =>
    split
    · trivial
    · next hy =>
      have hpos : y.toNat ≠ 0 := fun h0 => hy (BitVec.eq_of_toNat_eq h0)
      have hlog : y.toNat.log2 < 52 := (Nat.log2_lt hpos).mpr y.isLt
      subst hzero
      constructor
      · change (y.toNat.log2 : Int) + 1 + (((0 : Nat) : Int) - (1023 + 52) + 1) ≤ t
        omega
      · change (((0 : Nat) : Int) - (1023 + 52) + 1) ≤ 971
        omega
  · have hpos : (1#1 ++ y).toNat ≠ 0 := by
      rw [BitVec.toNat_append]
      exact Nat.pos_iff_ne_zero.mp (Nat.lt_of_lt_of_le (by decide) Nat.left_le_or)
    have hlog : (1#1 ++ y).toNat.log2 < 53 := (Nat.log2_lt hpos).mpr (1#1 ++ y).isLt
    constructor
    · change ((1#1 ++ y).toNat.log2 : Int) + 1 + ((x.toNat : Int) - (1023 + 52)) ≤ t
      omega
    · change ((x.toNat : Int) - (1023 + 52)) ≤ 971
      omega

theorem within_unpack_pack (h : Within t u) (ht : -1022 ≤ t) :
    Within t (unpack Format.binary64 (pack Format.binary64 u)) := by
  cases u with
  | zero s => exact within_unpack s 0#11 0#52 (by decide) ht ht
  | infinity s => exact h.elim
  | notANumber => exact h.elim
  | finite s m e hm =>
    obtain ⟨hte, he⟩ := h
    have hbiased : ¬ 2 ^ 11 ≤ (e + (1023 : Nat) + (52 : Nat)).toNat + 1 := by omega
    unfold UnpackedFloat.pack
    simp only [show Format.binary64.exponentBias = 1023 from rfl, if_neg hbiased]
    split
    · next hlog =>
      have hlog : m.log2 + 1 = 53 := hlog
      have hx : (BitVec.ofNat 11 (e + (1023 : Nat) + (52 : Nat)).toNat).toNat =
          (e + (1023 : Nat) + (52 : Nat)).toNat := by
        rw [BitVec.toNat_ofNat, Nat.mod_eq_of_lt (by omega)]
      simp only [totalExponent] at hte
      apply within_unpack _ _ _ _ ht
      · rw [hx]
        omega
      · rw [hx]
        omega
    · exact within_unpack s 0#11 _ (by decide) ht ht

theorem isFinite_of_within {x : Float} (h : Within t x.toModel.unpack) : x.isFinite = true := by
  change x.toModel.unpack.isFinite = true
  cases hu : x.toModel.unpack with
  | zero s => rfl
  | finite s m e hm => rfl
  | infinity s =>
    rw [hu] at h
    exact h.elim
  | notANumber =>
    rw [hu] at h
    exact h.elim

theorem within_of_isFinite {x : Float} (h : x.isFinite = true) : Within 1024 x.toModel.unpack := by
  have hbits := @packComponents_unpackSign_unpackExponent_unpackMantissa Format.binary64 x.toModel.toBits.toBitVec
  generalize hexponent : @unpackExponent Format.binary64 x.toModel.toBits.toBitVec = exponent at hbits
  have hnot : exponent ≠ -1#_ := by
    intro heq
    have hf : x.toModel.unpack.isFinite = true := h
    unfold Float.Model.unpack UnpackedFloat.unpack at hf
    simp only [hexponent, if_pos heq] at hf
    split at hf <;> cases hf
  have hlt : exponent.toNat < 2047 := by
    have hne : exponent.toNat ≠ 2047 := fun heq => hnot (BitVec.eq_of_toNat_eq heq)
    have hub : exponent.toNat < 2048 := exponent.isLt
    omega
  have hw := within_unpack (t := 1024) (Sign.ofBitVec (@unpackSign Format.binary64 x.toModel.toBits.toBitVec))
    exponent (@unpackMantissa Format.binary64 x.toModel.toBits.toBitVec) hlt (by decide) (by omega)
  rw [hbits] at hw
  exact hw

theorem within_ofModel (h : Within t u) (ht : -1022 ≤ t) :
    Within t (Float.ofModel (Float.Model.pack u)).toModel.unpack :=
  within_unpack_pack h ht

theorem log2_mul_le (m n : Nat) : (m * n).log2 ≤ m.log2 + n.log2 + 1 := by
  have hm : m < 2 ^ (m.log2 + 1) := Nat.lt_log2_self
  have hn : n < 2 ^ (n.log2 + 1) := Nat.lt_log2_self
  by_cases hz : m * n = 0
  · rw [hz]
    exact Nat.zero_le _
  · have hlt : m * n < 2 ^ (m.log2 + 1 + (n.log2 + 1)) := by
      rw [Nat.pow_add]
      exact Nat.mul_lt_mul'' hm hn
    have hlog := (Nat.log2_lt hz).mpr hlt
    omega

theorem log2_div_le (m n : Nat) : (m / n).log2 ≤ m.log2 - n.log2 := by
  by_cases hn : n = 0
  · rw [hn, Nat.div_zero]
    exact Nat.zero_le _
  · rw [← log2_div_two_pow]
    exact log2_mono (Nat.div_le_div_left (Nat.log2_self_le hn) (Nat.two_pow_pos _))

theorem log2_shiftLeft_le (m k : Nat) : (m <<< k).log2 ≤ m.log2 + k := by
  have hm : m < 2 ^ (m.log2 + 1) := Nat.lt_log2_self
  rw [Nat.shiftLeft_eq]
  by_cases hz : m * 2 ^ k = 0
  · rw [hz]
    exact Nat.zero_le _
  · have hlt : m * 2 ^ k < 2 ^ (m.log2 + 1 + k) := by
      rw [Nat.pow_add]
      exact Nat.mul_lt_mul_of_pos_right hm (Nat.two_pow_pos k)
    have hlog := (Nat.log2_lt hz).mpr hlt
    omega

theorem Within.cases (h : Within t u) :
    (∃ s, u = .zero s) ∨ ∃ s m e hm, u = .finite s m e hm ∧ totalExponent m e ≤ t ∧ e ≤ 971 := by
  cases u with
  | zero s => exact .inl ⟨s, rfl⟩
  | finite s m e hm => exact .inr ⟨s, m, e, hm, rfl, h⟩
  | infinity s => exact h.elim
  | notANumber => exact h.elim

theorem within_mul {x y : Float} (hx : Within t x.toModel.unpack) (hy : Within t' y.toModel.unpack)
    (ht : -500 ≤ t + t') (ht' : t + t' ≤ 970) : Within (t + t' + 1) (x * y).toModel.unpack := by
  have hw : Within (t + t' + 1) (mul Format.binary64 x.toModel.unpack y.toModel.unpack) := by
    obtain ⟨s, hu⟩ | ⟨s, m, e, hm, hu, hte, -⟩ := hx.cases
    · obtain ⟨s', hv⟩ | ⟨s', m', e', hm', hv, -⟩ := hy.cases
      · rw [hu, hv]
        trivial
      · rw [hu, hv]
        trivial
    · obtain ⟨s', hv⟩ | ⟨s', m', e', hm', hv, hte', -⟩ := hy.cases
      · rw [hu, hv]
        trivial
      · rw [hu, hv]
        have hlog := log2_mul_le m m'
        simp only [totalExponent] at hte hte'
        have hprod : totalExponent (m * m') (e + e') ≤ t + t' := by
          simp only [totalExponent]
          omega
        apply (roundWithAccuracy_within (s * s') .exact (by omega) (by omega)).mono
        omega
  exact within_ofModel hw (by omega)

theorem isFinite_within {u : UnpackedFloat} (h : Within t u) : u.isFinite = true := by
  obtain ⟨s, rfl⟩ | ⟨s, m, e, hm, rfl, -⟩ := h.cases <;> rfl

/-- What is too large for its bits is infinite, and nothing else is lost. -/
theorem isFinite_unpack_pack (hu : u.isFinite = true)
    (h : (unpack Format.binary64 (pack Format.binary64 u)).isInf = false) :
    (unpack Format.binary64 (pack Format.binary64 u)).isFinite = true := by
  cases u with
  | infinity s => cases hu
  | notANumber => cases hu
  | zero s => exact isFinite_within (within_unpack_pack (t := 0) trivial (by decide))
  | finite s m e hm =>
    by_cases he : e ≤ 971
    · have hw : Within (max (totalExponent m e) (-1022)) (.finite s m e hm) := ⟨Int.le_max_left _ _, he⟩
      exact isFinite_within (within_unpack_pack hw (Int.le_max_right _ _))
    · have hbiased : 2 ^ 11 ≤ (e + (1023 : Nat) + (52 : Nat)).toNat + 1 := by omega
      have hpack : pack Format.binary64 (.finite s m e hm) = packedInfinity Format.binary64 s := if_pos hbiased
      have hinf : (unpack Format.binary64 (packedInfinity Format.binary64 s)).isInf = true := by
        unfold UnpackedFloat.unpack packedInfinity
        simp only [unpackExponent_packComponents, unpackMantissa_packComponents, if_true]
        rfl
      rw [hpack, hinf] at h
      cases h

theorem isFinite_roundWithAccuracy (s : Sign) (m : Nat) (e : Int) (a : Accuracy) :
    (roundWithAccuracy Format.binary64 s m e a).isFinite = true := by
  obtain ⟨t, t', r, -, -, -, -, ⟨-, heq⟩ | ⟨hm', heq⟩⟩ := roundWithAccuracy_eq s m e a <;> rw [heq] <;> rfl

theorem isFinite_mul {x y : Float} (hx : x.isFinite = true) (hy : y.isFinite = true) (h : (x * y).isInf = false) :
    (x * y).isFinite = true := by
  apply isFinite_unpack_pack _ h
  obtain ⟨s, hu⟩ | ⟨s, m, e, hm, hu, -⟩ := (within_of_isFinite hx).cases
  · obtain ⟨s', hv⟩ | ⟨s', m', e', hm', hv, -⟩ := (within_of_isFinite hy).cases <;> rw [hu, hv] <;> rfl
  · obtain ⟨s', hv⟩ | ⟨s', m', e', hm', hv, -⟩ := (within_of_isFinite hy).cases
    · rw [hu, hv]
      rfl
    · rw [hu, hv]
      exact isFinite_roundWithAccuracy _ _ _ _

theorem Beyond.cases (h : Beyond t u) : ∃ s m e hm, u = .finite s m e hm ∧ t ≤ totalExponent m e := by
  cases u with
  | finite s m e hm => exact ⟨s, m, e, hm, rfl, h⟩
  | zero s => exact h.elim
  | infinity s => exact h.elim
  | notANumber => exact h.elim

theorem isFinite_div {x y : Float} (hx : x.isFinite = true)
    (hy : Beyond 2 y.toModel.unpack) : (x / y).isFinite = true := by
  obtain ⟨s', m', e', hm', hv, hte'⟩ := hy.cases
  have hw : Within 1024 (div Format.binary64 x.toModel.unpack y.toModel.unpack) := by
    obtain ⟨s, hu⟩ | ⟨s, m, e, hm, hu, hte, -⟩ := (within_of_isFinite hx).cases
    · rw [hu, hv]
      trivial
    · rw [hu, hv]
      have htarget (k : Int) : Format.binary64.targetExponent k = max (k - 53) (-1074) := rfl
      simp only [UnpackedFloat.div, divCore, htarget]
      simp only [totalExponent] at *
      generalize hmin : min (e - e') (max ((m.log2 : Int) + 1 + e - (m'.log2 + 1 + e') - 53) (-1074)) = k
      have hlog := Nat.le_trans (log2_div_le (m <<< (e - e' - k).toNat) m')
        (Nat.sub_le_sub_right (log2_shiftLeft_le m (e - e' - k).toNat) _)
      have hquotient : totalExponent (m <<< (e - e' - k).toNat / m') k ≤ 1023 := by
        simp only [totalExponent]
        omega
      apply (roundWithAccuracy_within (s / s') _ hquotient (by omega)).mono
      omega
  exact isFinite_of_within (within_ofModel hw (by decide))

theorem isFinite_neg {x : Float} (hx : x.isFinite = true) : (-x).isFinite = true := by
  have hw : Within 1024 x.toModel.unpack.neg := by
    obtain ⟨s, hu⟩ | ⟨s, m, e, hm, hu, hte, he⟩ := (within_of_isFinite hx).cases
    · rw [hu]
      trivial
    · rw [hu]
      exact ⟨hte, he⟩
  exact isFinite_of_within (within_ofModel hw (by decide))

theorem log2_lt_of_lt {k n : Nat} (hk : 0 < k) (h : n < 2 ^ k) : n.log2 < k := by
  by_cases hz : n = 0
  · rw [hz]
    exact hk
  · exact (Nat.log2_lt hz).mpr h

theorem within_ofNat {n : Nat} (h : n < 2 ^ 64) : Within 65 (UnpackedFloat.ofNat Format.binary64 n) := by
  have hlog := log2_lt_of_lt (by decide) h
  have hround : Within 65 (UnpackedFloat.round Format.binary64 .positive n 0) := by
    have htarget (k : Int) : Format.binary64.targetExponent k = max (k - 53) (-1074) := rfl
    simp only [UnpackedFloat.round, decreaseExponent, htarget]
    simp only [totalExponent]
    generalize hmin : max ((n.log2 : Int) + 1 + 0 - 53) (-1074) = k
    have hshift := log2_shiftLeft_le n (0 - k).toNat
    have hte : totalExponent (n <<< (0 - k).toNat) (0 - (0 - k).toNat) ≤ 64 := by
      simp only [totalExponent]
      omega
    apply (roundWithAccuracy_within .positive .exact (by omega) (by omega)).mono
    omega
  unfold UnpackedFloat.ofNat UnpackedFloat.ofInt UnpackedFloat.normalize
  split
  · next hneg =>
    rw [Int.compare_eq_lt] at hneg
    omega
  · trivial
  · exact hround

theorem ofScientific_eq (hn : n ≠ 0) (hk : k ≤ 2048) :
    UnpackedFloat.ofScientific Format.binary64 n (Int.ofNat k) =
      roundWithAccuracy Format.binary64 .positive ((n <<< 53) * 10 ^ k) (-53) .exact := by
  have hbits : Format.binary64.mantissaBits = 53 := rfl
  have hlarge : ¬ Int.ofNat k > 2 ^ 11 := by
    simp only [Int.ofNat_eq_natCast]
    omega
  have hsmall : ¬ Int.ofNat k < -((2 ^ 11 : Int) + n.log2) := by
    simp only [Int.ofNat_eq_natCast]
    omega
  unfold UnpackedFloat.ofScientific
  have hpos : 0 ≤ Int.ofNat k := Int.natCast_nonneg k
  rw [dif_neg hn, if_neg hlarge, if_neg hsmall, if_pos hpos]
  simp only [hbits, UnpackedFloat.mul]
  rfl

theorem within_ofScientific {n : Nat} (h : n < 2 ^ 64) : Within 67 (Float.ofScientific n false 0).toModel.unpack := by
  have hlog := log2_lt_of_lt (by decide) h
  unfold Float.ofScientific
  split
  · have hone : Within 1 (Float.exactlyRepresentablePowersOfTen[0]).toModel.unpack := by decide +kernel
    have hn : Within 65 n.toUInt64.toFloat.toModel.unpack := by
      apply within_ofModel _ (by decide)
      apply within_ofNat
      exact UInt64.toNat_lt _
    exact within_mul hn hone (by decide) (by decide)
  · next hslow =>
    apply within_ofModel _ (by decide)
    have hn : n ≠ 0 := fun h0 => hslow ⟨by omega, Nat.zero_le _⟩
    have hzero : (if false = true then Int.negOfNat 0 else Int.ofNat 0) = Int.ofNat 0 := rfl
    simp only [hzero]
    rw [ofScientific_eq hn (Nat.zero_le _), Nat.pow_zero, Nat.mul_one]
    have hshift := log2_shiftLeft_le n 53
    generalize n <<< 53 = m at hshift
    have hte : totalExponent m (-53) ≤ 64 := by
      simp only [totalExponent]
      omega
    apply (roundWithAccuracy_within .positive .exact (by omega) (by decide)).mono
    omega

theorem beyond_unpack_pack (s : Sign) (hm : 0 < m) (hlog : m.log2 = 52) (he : -1074 ≤ e) (he' : e ≤ 971) :
    Beyond (53 + e) (unpack Format.binary64 (pack Format.binary64 (.finite s m e hm))) := by
  have hbiased : ¬ 2 ^ 11 ≤ (e + (1023 : Nat) + (52 : Nat)).toNat + 1 := by omega
  have hpack : pack Format.binary64 (.finite s m e hm) =
      packComponents Format.binary64 s (BitVec.ofNat 11 (e + (1023 : Nat) + (52 : Nat)).toNat) (BitVec.ofNat 52 m) := by
    have hnormal : m.log2 + 1 = 53 := by omega
    exact (if_neg hbiased).trans (if_pos hnormal)
  have hx : (BitVec.ofNat 11 (e + (1023 : Nat) + (52 : Nat)).toNat).toNat =
      (e + (1023 : Nat) + (52 : Nat)).toNat := by
    rw [BitVec.toNat_ofNat, Nat.mod_eq_of_lt (by omega)]
  generalize BitVec.ofNat 11 (e + (1023 : Nat) + (52 : Nat)).toNat = x at hpack hx
  generalize BitVec.ofNat 52 m = y at hpack
  have hfull : x ≠ -1#_ := by
    intro heq
    have hmax : (-1#11).toNat = 2047 := rfl
    rw [heq, hmax] at hx
    omega
  have hzero : x ≠ 0#_ := by
    intro heq
    have hmin : (0#11).toNat = 0 := rfl
    rw [heq, hmin] at hx
    omega
  have hy : 52 ≤ (1#1 ++ y).toNat.log2 := by
    have hle : 2 ^ 52 ≤ (1#1 ++ y).toNat := by
      rw [BitVec.toNat_append]
      exact Nat.le_trans (by decide) Nat.left_le_or
    exact (Nat.le_log2 (by omega)).mpr hle
  rw [hpack]
  unfold UnpackedFloat.unpack
  simp only [unpackExponent_packComponents, unpackMantissa_packComponents, if_neg hfull, if_neg hzero]
  change 53 + e ≤ ((1#1 ++ y).toNat.log2 : Int) + 1 + ((x.toNat : Int) - (1023 + 52))
  omega

/-- The powers of ten that numbers are divided by. -/
theorem beyond_powerOfTen (hk : 0 < k) (hk' : k ≤ 308) : Beyond 2 (Json.powerOfTen k).toModel.unpack := by
  by_cases hfast : k ≤ 22
  · have hall : ∀ k ≤ 22, 0 < k → Beyond 2 (Json.powerOfTen k).toModel.unpack := by decide +kernel
    exact hall k hfast hk
  by_cases hlast : k = 308
  · rw [hlast]
    decide +kernel
  · have hslow : ¬ (1 < 2 ^ 53 ∧ k ≤ 22) := fun h => hfast h.2
    have hpower : (Json.powerOfTen k).toModel.unpack = unpack Format.binary64 (pack Format.binary64
        (UnpackedFloat.ofScientific Format.binary64 1 (Int.ofNat k))) := by
      unfold Json.powerOfTen Float.ofScientific
      rw [dif_neg hslow]
      rfl
    have hlow : 10 ^ 1 ≤ 10 ^ k := Nat.pow_le_pow_right (by decide) hk
    have hhigh : 10 ^ k < 2 ^ 1020 := by
      have hword : ∀ k < 308, 10 ^ k < 2 ^ 1020 := by decide +kernel
      exact hword k (by omega)
    rw [hpower, ofScientific_eq Nat.one_ne_zero (by omega), Nat.shiftLeft_eq, Nat.one_mul]
    generalize 10 ^ k = n at hlow hhigh
    have hne : 2 ^ 53 * n ≠ 0 := by omega
    have hfirst : 54 ≤ (2 ^ 53 * n).log2 := (Nat.le_log2 hne).mpr (by omega)
    have hlast : (2 ^ 53 * n).log2 < 1074 := by
      have hlog : n.log2 < 1020 := log2_lt_of_lt (by decide) hhigh
      have hmul := log2_mul_le (2 ^ 53) n
      rw [Nat.log2_two_pow] at hmul
      omega
    generalize 2 ^ 53 * n = m at hfirst hlast
    have hte : totalExponent m (-53) = m.log2 + 1 + -53 := rfl
    obtain ⟨m', e', hm', heq, hlog, hle, hge⟩ :=
      roundWithAccuracy_normal .positive .exact (e := -53) (by omega : 52 ≤ m.log2) (by omega)
    rw [heq]
    have hbeyond := beyond_unpack_pack (e := e') .positive hm' hlog (by omega) (by omega)
    obtain ⟨s, m'', e'', hm'', hu, hte'⟩ := hbeyond.cases
    rw [hu]
    exact Int.le_trans (by omega) hte'

theorem isFinite_powerOfTen (hk : k ≤ 308) : (Json.powerOfTen k).isFinite = true := by
  by_cases hz : k = 0
  · rw [hz]
    decide +kernel
  · obtain ⟨s, m, e, hm, hu, -⟩ := (beyond_powerOfTen (Nat.pos_of_ne_zero hz) hk).cases
    change (Json.powerOfTen k).toModel.unpack.isFinite = true
    rw [hu]
    rfl

theorem isFinite_div_powerOfTen {x : Float} (hx : x.isFinite = true) (hk : 0 < k) (hk' : k ≤ 308) :
    (x / Json.powerOfTen k).isFinite = true :=
  isFinite_div hx (beyond_powerOfTen hk hk')

namespace Json

theorem scaleByTen_isFinite (x : Float) (e : Int) (hx : x.isFinite = true) :
    ∀ {y}, scaleByTen x e = some y → y.isFinite = true := by
  induction x, e using scaleByTen.induct with
  | case1 x e he he' y hinf =>
    intro z h
    rw [scaleByTen, if_pos he, if_pos he', if_pos hinf] at h
    cases h
  | case2 x e he he' y hinf =>
    intro z h
    rw [scaleByTen, if_pos he, if_pos he', if_neg hinf] at h
    cases h
    exact isFinite_mul hx (isFinite_powerOfTen (by omega)) (Bool.eq_false_iff.mpr hinf)
  | case3 x e he he' hzero =>
    intro y h
    rw [scaleByTen, if_pos he, if_neg he', if_pos hzero] at h
    cases h
    exact hx
  | case4 x e he he' hzero =>
    intro y h
    rw [scaleByTen, if_pos he, if_neg he', if_neg hzero] at h
    cases h
  | case5 x e he he' =>
    intro y h
    rw [scaleByTen, if_neg he, if_pos he'] at h
    cases h
    exact isFinite_div_powerOfTen hx (by omega) (by omega)
  | case6 x e he he' hzero =>
    intro y h
    rw [scaleByTen, if_neg he, if_neg he', if_pos hzero] at h
    cases h
    exact hx
  | case7 x e he he' hzero ih =>
    intro y h
    rw [scaleByTen, if_neg he, if_neg he', if_neg hzero] at h
    exact ih (isFinite_div_powerOfTen hx (by decide) (Nat.le_refl _)) h

theorem addWhole_fits (s : Scaled) (cs : List Char) (hs : s.significand < 2 ^ 64) :
    (s.addWhole cs).significand < 2 ^ 64 := by
  induction cs generalizing s with
  | nil => exact hs
  | cons c cs ih =>
    unfold Scaled.addWhole
    split
    · next hfits => exact ih _ (of_decide_eq_true hfits)
    · exact hs

theorem addFraction_fits (s : Scaled) (cs : List Char) (hs : s.significand < 2 ^ 64) :
    (s.addFraction cs).significand < 2 ^ 64 := by
  induction cs generalizing s with
  | nil => exact hs
  | cons c cs ih =>
    unfold Scaled.addFraction
    split
    · next hfits => exact ih _ (of_decide_eq_true hfits)
    · exact hs

theorem toFloat?_isFinite {s : Scaled} (hs : s.significand < 2 ^ 64) (h : s.toFloat? negative = some x) :
    x.isFinite = true := by
  obtain ⟨y, hy, rfl⟩ := Option.map_eq_some_iff.mp h
  have hfinite := scaleByTen_isFinite _ _ (isFinite_of_within (within_ofScientific hs)) hy
  split
  · exact isFinite_neg hfinite
  · exact hfinite

end Json

end QueryGateway
