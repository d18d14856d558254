import QueryGateway.Proofs.Json.Finite
import QueryGateway.Store.Order

namespace QueryGateway
set_option autoImplicit true

open Float.Model
open Float.Model.UnpackedFloat

theorem unpackSign_packComponents (s : Sign) (x : BitVec 11) (y : BitVec 52) :
    unpackSign (packComponents Format.binary64 s x y) = s.toBitVec := by
  ext i hi
  have hat : (unpackSign (packComponents Format.binary64 s x y))[i] =
      (s.toBitVec ++ x ++ y).getLsbD (63 + i) := by
    simp [unpackSign, packComponents]
  have hx : ¬ 63 + i - 52 < 11 := by omega
  have hy : ¬ 63 + i < 52 := by omega
  rw [hat, BitVec.getLsbD_append, if_neg hy, BitVec.getLsbD_append, if_neg hx,
    ← BitVec.getLsbD_eq_getElem]
  congr 1
  omega

theorem ofBitVec_toBitVec (s : Sign) : Sign.ofBitVec s.toBitVec = s := by
  cases s <;> rfl

theorem unpack_components_zero (h : unpack Format.binary64 (packComponents Format.binary64 s x y) = .zero s') :
    s' = s ∧ x = 0#11 ∧ y = 0#52 := by
  unfold UnpackedFloat.unpack at h
  simp only [unpackExponent_packComponents, unpackMantissa_packComponents, unpackSign_packComponents,
    ofBitVec_toBitVec] at h
  split at h
  · split at h <;> cases h
  · split at h
    · next hx =>
      split at h
      · next hy =>
        cases h
        exact ⟨rfl, hx, hy⟩
      · cases h
    · cases h

theorem pack_finite (s : Sign) (m : Nat) (e : Int) (hm : 0 < m) :
    ∃ x y, pack Format.binary64 (.finite s m e hm) = packComponents Format.binary64 s x y := by
  unfold UnpackedFloat.pack
  simp only
  split
  · exact ⟨_, _, rfl⟩
  · split <;> exact ⟨_, _, rfl⟩

/-- Not the negative zero, and no number that could become it. -/
def Unsigned : UnpackedFloat → Prop
  | .zero s => s = .positive
  | .finite s _ _ _ => s = .positive
  | _ => True

theorem unpack_pack_unsigned (h : Unsigned u) : unpack Format.binary64 (pack Format.binary64 u) ≠ .zero .negative := by
  intro hzero
  cases u with
  | infinity s => exact absurd (unpack_components_zero hzero).2.1 (by decide)
  | notANumber => exact absurd (unpack_components_zero hzero).2.1 (by decide)
  | zero s =>
    obtain rfl : s = .positive := h
    cases (unpack_components_zero hzero).1
  | finite s m e hm =>
    obtain rfl : s = .positive := h
    obtain ⟨x, y, hpack⟩ := pack_finite .positive m e hm
    rw [hpack] at hzero
    cases (unpack_components_zero hzero).1

theorem unsigned_round (m : Nat) (e : Int) : Unsigned (UnpackedFloat.round Format.binary64 .positive m e) := by
  simp only [UnpackedFloat.round]
  obtain ⟨_, _, _, -, -, -, -, ⟨-, heq⟩ | ⟨_, heq⟩⟩ := roundWithAccuracy_eq .positive
    (decreaseExponent m e (Format.binary64.targetExponent (totalExponent m e))).1
    (decreaseExponent m e (Format.binary64.targetExponent (totalExponent m e))).2 .exact
  · rw [heq]
    rfl
  · rw [heq]
    rfl

theorem le_log2_shiftLeft (h : m ≠ 0) (k : Nat) : m.log2 + k ≤ (m <<< k).log2 := by
  have hpos : m * 2 ^ k ≠ 0 := Nat.mul_ne_zero h (Nat.two_pow_pos k).ne'
  rw [Nat.shiftLeft_eq, Nat.le_log2 hpos, Nat.pow_add]
  exact Nat.mul_le_mul_right _ (Nat.log2_self_le h)

theorem unpack_pack_normal (s : Sign) (hm : 0 < m) (hlog : m.log2 = 52) (he : -1074 ≤ e) :
    unpack Format.binary64 (pack Format.binary64 (.finite s m e hm)) ≠ .zero s' := by
  intro hzero
  by_cases hlarge : e ≤ 971
  · have hbeyond := beyond_unpack_pack s hm hlog he hlarge
    rw [hzero] at hbeyond
    exact hbeyond
  · have hbiased : 2 ^ 11 ≤ (e + (1023 : Nat) + (52 : Nat)).toNat + 1 := by omega
    have hpack : pack Format.binary64 (.finite s m e hm) = packedInfinity Format.binary64 s := if_pos hbiased
    rw [hpack] at hzero
    exact absurd (unpack_components_zero hzero).2.1 (by decide)

theorem round_ne_zero (s : Sign) (hm : m ≠ 0) :
    unpack Format.binary64 (pack Format.binary64 (UnpackedFloat.round Format.binary64 s m (-52))) ≠ .zero s' := by
  have htarget : Format.binary64.targetExponent (totalExponent m (-52)) = (m.log2 : Int) - 104 := by
    have h : Format.binary64.targetExponent (totalExponent m (-52)) = max ((m.log2 : Int) + 1 + -52 - 53) (-1074) := rfl
    omega
  simp only [UnpackedFloat.round, decreaseExponent, htarget]
  generalize hk : (-52 - ((m.log2 : Int) - 104)).toNat = k
  have hlog := le_log2_shiftLeft hm k
  obtain ⟨m', e', hm', heq, hlog', htotal, -⟩ := roundWithAccuracy_normal (m := m <<< k) (e := -52 - k) s .exact
    (by omega) (by simp only [totalExponent]; omega)
  rw [heq]
  simp only [totalExponent] at htotal
  exact unpack_pack_normal s hm' hlog' (by omega)

theorem unpack_one : (1 : Float).toModel.unpack = .finite .positive (2 ^ 52) (-52) (by decide) :=
  rfl

theorem mantissa_lt {x : Float} (h : x.toModel.unpack = .finite s m e hm) : m < 2 ^ 53 := by
  unfold Float.Model.unpack UnpackedFloat.unpack at h
  simp only at h
  split at h
  · split at h <;> cases h
  · split at h
    · split at h
      · cases h
      · cases h
        exact Nat.lt_trans (BitVec.isLt _) (by decide)
    · cases h
      exact BitVec.isLt _

theorem exponent_of_above_one (hm : m < 2 ^ 53)
    (h : 2 ^ 52 <<< (-52 - min (-52) e).toNat < m <<< (e - min (-52) e).toNat) : min (-52) e = -52 := by
  by_contra hne
  have hmin : min (-52) e = e := by omega
  obtain ⟨k, hk⟩ : ∃ k, (-52 - e).toNat = k + 1 := ⟨(-52 - e).toNat - 1, by omega⟩
  rw [hmin, hk, Int.sub_self, Nat.shiftLeft_eq, Nat.pow_succ] at h
  have hpos := Nat.two_pow_pos k
  change _ < m at h
  omega

theorem one_sub_ne_negative_zero (y : Float) : (1 - y).toModel.unpack ≠ .zero .negative := by
  change unpack Format.binary64 (pack Format.binary64
    (sub Format.binary64 (1 : Float).toModel.unpack y.toModel.unpack)) ≠ _
  rw [unpack_one]
  cases hy : y.toModel.unpack with
  | notANumber => exact unpack_pack_unsigned trivial
  | infinity s => exact unpack_pack_unsigned trivial
  | zero s => exact unpack_pack_unsigned rfl
  | finite s m e hm =>
    have hlt := mantissa_lt hy
    simp only [UnpackedFloat.sub, decreaseExponent, UnpackedFloat.normalize]
    split
    · next hneg =>
      rw [Int.compare_eq_lt] at hneg
      cases s with
      | negative =>
        have hone := Int.natCast_nonneg (2 ^ 52 <<< (-52 - min (-52) e).toNat)
        have hmore := Int.natCast_nonneg (m <<< (e - min (-52) e).toNat)
        simp only [Sign.apply, Int.sub_neg] at hneg
        exact absurd hneg (Int.not_lt.mpr (Int.add_nonneg hone hmore))
      | positive =>
        simp only [Sign.apply] at hneg ⊢
        have hmin := exponent_of_above_one (e := e) hlt (by omega)
        rw [hmin]
        apply round_ne_zero
        rw [hmin] at hneg
        omega
    · exact unpack_pack_unsigned rfl
    · exact unpack_pack_unsigned (unsigned_round _ _)

theorem toBits_of_unpack_zero {x : Float} (h : x.toModel.unpack = .zero .positive) : x.toBits = 0 := by
  have hbits := @packComponents_unpackSign_unpackExponent_unpackMantissa Format.binary64 x.toModel.toBits.toBitVec
  have hzero : unpack Format.binary64 x.toModel.toBits.toBitVec = .zero .positive := h
  rw [← hbits] at hzero
  obtain ⟨hsign, hexponent, hmantissa⟩ := unpack_components_zero hzero
  rw [← hsign, hexponent, hmantissa] at hbits
  exact UInt64.eq_of_toBitVec_eq hbits.symm

theorem unpack_of_beq_zero {x : Float} (h : (x == 0) = true) : ∃ s, x.toModel.unpack = .zero s := by
  have hzero : (0 : Float).toModel.unpack = .zero .positive := rfl
  have hbeq : (x.toModel.unpack.compare (0 : Float).toModel.unpack == some .eq) = true := h
  rw [hzero] at hbeq
  cases hx : x.toModel.unpack with
  | zero s => exact ⟨s, rfl⟩
  | notANumber =>
    rw [hx] at hbeq
    cases hbeq
  | infinity s =>
    rw [hx] at hbeq
    cases s <;> cases hbeq
  | finite s m e hm =>
    rw [hx] at hbeq
    cases s <;> cases hbeq

theorem Store.floatKey_eq_floatRank {x : Float} (hx : x.isFinite = true) (hzero : x.toModel.unpack ≠ .zero .negative) :
    floatKey x = floatRank x := by
  have hnan : x.isNaN = false := by
    have hfinite : x.toModel.unpack.isFinite = true := hx
    change x.toModel.unpack.isNaN = false
    cases hu : x.toModel.unpack with
    | notANumber =>
      rw [hu] at hfinite
      cases hfinite
    | _ => rfl
  rw [floatKey, hnan, if_neg Bool.false_ne_true]
  split
  · next hbeq =>
    obtain ⟨s, hs⟩ := unpack_of_beq_zero hbeq
    cases s with
    | negative => exact absurd hs hzero
    | positive =>
      rw [floatRank, toBits_of_unpack_zero hs]
      rfl
  · rfl

theorem Metric.distance_unsigned {metric : Metric} (h : metric.distance a b = some x) :
    x.isFinite = true ∧ x.toModel.unpack ≠ .zero .negative := by
  cases metric with
  | cosine =>
    simp only [Metric.distance, Vector.cosineDistance] at h
    split at h
    · cases h
    · split at h
      · cases h
      · split at h
        · next hfinite =>
          cases h
          exact ⟨hfinite, one_sub_ne_negative_zero _⟩
        · cases h

/-- A distance has one place, for the store and here. -/
theorem Metric.floatKey_distance {metric : Metric} (h : metric.distance a b = some x) :
    Store.floatKey x = floatRank x :=
  Store.floatKey_eq_floatRank (metric.distance_unsigned h).1 (metric.distance_unsigned h).2

end QueryGateway
