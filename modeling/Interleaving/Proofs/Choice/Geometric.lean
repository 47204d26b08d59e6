import Mathlib
import Interleaving.Choice.Geometric

/-!
# Geometric samples are positive

A number of trials is at least one: a quotient is cut to a whole number only if it is at least `1.0`, and
cutting such a number leaves at least one (`Geometric.one_le_toUInt64`). What follows about numbers of
64 bits is read off the sign, mantissa and exponent that their bits stand for.
-/

namespace Interleaving.Geometric
open Float.Model Float.Model.UnpackedFloat

section Whole

variable {s : Sign} {m : Nat} {e : Int} {pos : 0 < m} {x : Float}

lemma mantissa_shiftRight (mantissa : ExtendedMantissa) (n : Nat) :
    (mantissa >>> n).mantissa = mantissa.mantissa / 2 ^ n := by
  show (n.repeat ExtendedMantissa.shiftRightOne mantissa).mantissa = _
  induction n with
  | zero => exact (Nat.div_one _).symm
  | succ n ih =>
    show (n.repeat ExtendedMantissa.shiftRightOne mantissa).mantissa / 2 = _
    rw [ih, Nat.div_div_eq_div_mul, Nat.pow_succ]

/-- A number is cut to a whole number by shifting its mantissa. -/
lemma toNat_roundToInt (m : Nat) (e : Int) :
    (roundToInt .positive m e).toNat = m * 2 ^ e.toNat / 2 ^ (-e).toNat := by
  have right : (0 - (e - ↑e.toNat)).toNat = (-e).toNat := by omega
  rw [roundToInt]
  simp only [decreaseExponent, shiftToExponent, mantissa_shiftRight,
    ExtendedMantissa.ofMantissaAndAccuracy, Nat.shiftLeft_eq, Int.sub_zero, right]
  rfl

/-- Only the smallest numbers have a mantissa that is not full. -/
lemma full_or_smallest {b : BitVec 64}
    (h : UnpackedFloat.unpack Format.binary64 b = .finite s m e pos) : 2 ^ 52 ≤ m ∨ e = -1074 := by
  unfold UnpackedFloat.unpack at h
  simp only at h
  split_ifs at h with inf nan sub zero
  · cases h
    right
    rw [sub]
    rfl
  · cases h
    left
    rw [BitVec.toNat_append]
    exact Nat.left_le_or

/-- What compares as at least one: the leading place of its mantissa is no fraction. -/
lemma cases_of_one_le {y : UnpackedFloat}
    (h : (UnpackedFloat.finite .positive (2 ^ 52) (-52) (by decide)).le y = true) :
    y = .infinity .positive ∨
      ∃ m e pos, y = .finite .positive m e pos ∧ (-52 < e ∨ e = -52 ∧ 2 ^ 52 ≤ m) := by
  cases y with
  | infinity s =>
    cases s with
    | positive => exact .inl rfl
    | negative => cases h
  | notANumber => cases h
  | zero s => cases h
  | finite s m e pos =>
    cases s with
    | negative => cases h
    | positive =>
      refine .inr ⟨m, e, pos, rfl, ?_⟩
      simp only [UnpackedFloat.le, UnpackedFloat.compare, Option.any_some,
        Ordering.isLE_then_iff_and, Int.isLE_compare, Int.compare_eq_lt, Nat.isLE_compare] at h
      omega

lemma one_le_toNat_ofNatClamp {n : Nat} (h : 1 ≤ n) : 1 ≤ (UInt64.ofNatClamp n).toNat := by
  unfold UInt64.ofNatClamp
  split
  · exact h
  · decide

lemma one_le_toUInt64 (h : 1.0 ≤ x) : 1 ≤ x.toUInt64.toNat := by
  have le : (1.0 : Float).toModel ≤ x.toModel := of_decide_eq_true h
  apply one_le_toNat_ofNatClamp
  obtain inf | ⟨m, e, pos, finite, least⟩ := cases_of_one_le le
  · rw [inf]
    decide
  · have full : 2 ^ 52 ≤ m := by
      obtain full | smallest := full_or_smallest finite
      · exact full
      · omega
    rw [finite]
    show 1 ≤ (roundToInt .positive m e).toNat
    have room : 2 ^ (-e).toNat ≤ 2 ^ 52 := Nat.pow_le_pow_right (by decide) (by omega)
    rw [toNat_roundToInt, Nat.le_div_iff_mul_le (Nat.two_pow_pos _)]
    calc 1 * 2 ^ (-e).toNat ≤ m := by omega
      _ ≤ m * 2 ^ e.toNat := Nat.le_mul_of_pos_right m (Nat.two_pow_pos _)

end Whole

lemma one_le_sample (p u : Float) : 1 ≤ sample p u := by
  unfold sample
  split
  · exact le_refl 1
  · split
    · decide
    · dsimp only
      split
      · next enough =>
        rw [Bool.and_eq_true, decide_eq_true_eq] at enough
        exact one_le_toUInt64 enough.2
      · exact le_refl 1

/-- A sample is a positive number. -/
lemma one_le_sampleMean (mean u : Float) : 1 ≤ sampleMean mean u := by
  unfold sampleMean
  split_ifs
  · exact le_refl 1
  · exact one_le_sample _ u

end Interleaving.Geometric
