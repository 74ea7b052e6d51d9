import Mathlib.Algebra.Order.Field.Power
import Mathlib.Data.Rat.Cast.CharZero
import Mathlib.Tactic.FieldSimp
import Mathlib.Tactic.Linarith
import Mathlib.Tactic.NormNum
import Trialnet.Duration.Amount
import Trialnet.Proofs.Binary64.Rounding
import Trialnet.Proofs.Text.Numerals

/-!
# Rounding to 28 digits

An amount stands for a rational number, and the sum or product of two amounts stands for the
exact one rounded to 28 significant digits.  What that is, is said by `RoundsTo` without amounts:
a multiple of the power of ten that leaves the number 28 digits, the nearest one, and of two that
are equally near the even one.  There is only one such number, so nothing more has to be known of
the rounding; in particular a number of at most 28 digits is not changed by it.
-/

namespace Trialnet.Duration

/-! ### The rounded number -/

/-- The number is rounded to so many times a power of ten.  It has 28 digits in front of the
power, unless it is zero. -/
structure IsNearest (q : ℚ) (m : ℕ) (e : ℤ) : Prop where
  leading : q ≠ 0 →
    10 ^ (Amount.precision - 1) * 10 ^ e ≤ q ∧ q < 10 ^ Amount.precision * 10 ^ e
  near : 2 * |q - m * 10 ^ e| ≤ 10 ^ e
  even : 2 * |q - m * 10 ^ e| = 10 ^ e → Even m

/-- The number becomes another one when it is rounded to 28 digits. -/
def RoundsTo (q r : ℚ) : Prop := ∃ (m : ℕ) (e : ℤ), IsNearest q m e ∧ r = m * 10 ^ e

theorem ten_zpow_pos (e : ℤ) : (0 : ℚ) < 10 ^ e := zpow_pos (by norm_num) e

/-- Two powers of ten that leave a number 28 digits are the same. -/
theorem IsNearest.exponent_le {q : ℚ} {m m' : ℕ} {e e' : ℤ} (hq : q ≠ 0) (h : IsNearest q m e)
    (h' : IsNearest q m' e') : e ≤ e' := by
  have hlt : (10 : ℚ) ^ (Amount.precision - 1) * 10 ^ e < 10 ^ Amount.precision * 10 ^ e' :=
    lt_of_le_of_lt (h.leading hq).1 (h'.leading hq).2
  have hstep : (10 : ℚ) ^ Amount.precision * 10 ^ e'
      = 10 ^ (Amount.precision - 1) * 10 ^ (e' + 1) := by
    rw [zpow_add_one₀ (by norm_num), show Amount.precision = Amount.precision - 1 + 1 from rfl,
      pow_succ, Nat.add_sub_cancel]
    ring
  rw [hstep] at hlt
  have hpow : (10 : ℚ) ^ e < 10 ^ (e' + 1) := lt_of_mul_lt_mul_left hlt (by positivity)
  exact Int.lt_add_one_iff.1 ((zpow_lt_zpow_iff_right₀ (by norm_num)).1 hpow)

/-- Of two multiples that are not further away than half of the power, neither is greater: they
would be neighbours and both even. -/
theorem IsNearest.le {q : ℚ} {m m' : ℕ} {e : ℤ} (h : IsNearest q m e) (h' : IsNearest q m' e) :
    m ≤ m' := by
  by_contra hlt
  rw [Nat.not_le] at hlt
  have hpos := ten_zpow_pos e
  have hnear := h.near
  have hnear' := h'.near
  have heven := h.even
  have heven' := h'.even
  generalize (10 : ℚ) ^ e = g at hpos hnear hnear' heven heven'
  obtain ⟨k, rfl⟩ : ∃ k, m = m' + 1 + k := ⟨m - (m' + 1), by omega⟩
  have hsplit : ((m' + 1 + k : ℕ) : ℚ) * g = m' * g + g + k * g := by
    push_cast
    ring
  have hk : 0 ≤ (k : ℚ) * g := by positivity
  rw [hsplit] at hnear heven
  have hleft : 2 * (q - m' * g) ≤ g := le_trans (by linarith [le_abs_self (q - m' * g)]) hnear'
  have hright : 2 * (m' * g + g + k * g - q) ≤ g :=
    le_trans (by linarith [neg_abs_le (q - (m' * g + g + k * g))]) hnear
  -- the number is in the middle of the two
  have hmiddle : q - m' * g = g / 2 := by linarith
  have hkzero : (k : ℚ) * g = 0 := by linarith
  obtain rfl : k = 0 := by
    rcases mul_eq_zero.1 hkzero with hk | hg
    · exact_mod_cast hk
    · exact absurd hg (ne_of_gt hpos)
  have hodd : Even (m' + 1 + 0) := by
    refine heven ?_
    rw [show q - (m' * g + g + (0 : ℕ) * g) = -(g / 2) by push_cast; linarith, abs_neg,
      abs_of_pos (by linarith)]
    ring
  have heven' : Even m' := by
    refine heven' ?_
    rw [hmiddle, abs_of_pos (by linarith)]
    ring
  rw [Nat.add_zero, Nat.even_add_one] at hodd
  exact hodd heven'

/-- Zero is rounded to zero. -/
theorem IsNearest.eq_zero {m : ℕ} {e : ℤ} (h : IsNearest 0 m e) : m = 0 := by
  have hpos := ten_zpow_pos e
  have hnear := h.near
  rw [zero_sub, abs_neg, abs_of_nonneg (by positivity)] at hnear
  by_contra hm
  have hone : (1 : ℚ) ≤ m := by exact_mod_cast Nat.one_le_iff_ne_zero.2 hm
  have hle : (1 : ℚ) * 10 ^ e ≤ m * 10 ^ e := mul_le_mul_of_nonneg_right hone hpos.le
  linarith

/-- A number is rounded to one number only. -/
theorem RoundsTo.unique {q r r' : ℚ} (h : RoundsTo q r) (h' : RoundsTo q r') : r = r' := by
  obtain ⟨m, e, hm, rfl⟩ := h
  obtain ⟨m', e', hm', rfl⟩ := h'
  by_cases hq : q = 0
  · subst hq
    rw [hm.eq_zero, hm'.eq_zero, Nat.cast_zero, zero_mul, zero_mul]
  · obtain rfl : e = e' := le_antisymm (hm.exponent_le hq hm') (hm'.exponent_le hq hm)
    rw [le_antisymm (hm.le hm') (hm'.le hm)]

theorem RoundsTo.nonneg {q r : ℚ} (h : RoundsTo q r) : 0 ≤ r := by
  obtain ⟨m, e, -, rfl⟩ := h
  exact mul_nonneg (Nat.cast_nonneg m) (ten_zpow_pos e).le

/-- A number of more than 28 digits before the point is not rounded to one of fewer. -/
theorem RoundsTo.precision_le {q r : ℚ} (h : RoundsTo q r) (hq : 10 ^ Amount.precision ≤ q) :
    10 ^ Amount.precision ≤ r := by
  obtain ⟨m, e, hm, rfl⟩ := h
  have hne : q ≠ 0 := by
    rintro rfl
    exact absurd hq (not_le.2 (by positivity))
  obtain ⟨hlow, hhigh⟩ := hm.leading hne
  have hpos := ten_zpow_pos e
  have he : (10 : ℚ) ≤ 10 ^ e := by
    have hone : (1 : ℚ) < 10 ^ e := by
      by_contra hle
      have hbound : (10 : ℚ) ^ Amount.precision * 10 ^ e ≤ 10 ^ Amount.precision * 1 :=
        mul_le_mul_of_nonneg_left (not_lt.1 hle) (by positivity)
      linarith
    have hexponent : 0 < e := (one_lt_zpow_iff_right₀ (by norm_num)).1 hone
    calc (10 : ℚ) = 10 ^ (1 : ℤ) := (zpow_one _).symm
      _ ≤ 10 ^ e := zpow_le_zpow_right₀ (by norm_num) (by omega)
  -- the multiple is not smaller than the smallest number of 28 digits
  have hm : 10 ^ (Amount.precision - 1) ≤ m := by
    by_contra hlt
    have hsucc : (m : ℚ) + 1 ≤ 10 ^ (Amount.precision - 1) := by
      exact_mod_cast Nat.succ_le_of_lt (not_le.1 hlt)
    have hnear := le_trans (mul_le_mul_of_nonneg_left (le_abs_self _) (by norm_num)) hm.near
    have hbound : ((m : ℚ) + 1) * 10 ^ e ≤ 10 ^ (Amount.precision - 1) * 10 ^ e :=
      mul_le_mul_of_nonneg_right hsucc hpos.le
    rw [add_mul, one_mul] at hbound
    linarith
  calc (10 : ℚ) ^ Amount.precision = 10 ^ (Amount.precision - 1) * 10 := by
        rw [← pow_succ]
        rfl
    _ ≤ m * 10 ^ e := mul_le_mul (by exact_mod_cast hm) he (by norm_num) (Nat.cast_nonneg m)

/-! ### Numbers that are not changed -/

/-- The number can be written with at most 28 digits and a power of ten. -/
def IsShort (q : ℚ) : Prop := ∃ (c : ℕ) (e : ℤ), c < 10 ^ Amount.precision ∧ q = c * 10 ^ e

theorem isShort_natCast {n : ℕ} (h : n < 10 ^ Amount.precision) : IsShort n := by
  refine ⟨n, 0, h, ?_⟩
  rw [zpow_zero, mul_one]

/-- A short number is rounded to itself. -/
theorem roundsTo_self {q : ℚ} (h : IsShort q) : RoundsTo q q := by
  obtain ⟨c, e, hc, rfl⟩ := h
  have hlength : (Numeral.digits c).length ≤ Amount.precision :=
    (Numeral.length_digits_le_iff (by decide)).2 hc
  obtain ⟨k, hk⟩ : ∃ k, Amount.precision = (Numeral.digits c).length + k :=
    ⟨_, (Nat.add_sub_cancel' hlength).symm⟩
  -- with zeros behind its digits the number has 28 of them
  have hvalue : ((c * 10 ^ k : ℕ) : ℚ) * 10 ^ (e - k) = c * 10 ^ e := by
    rw [zpow_sub₀ (by norm_num), zpow_natCast]
    push_cast
    field_simp
  refine ⟨c * 10 ^ k, e - k, ⟨fun hne => ?_, ?_, fun heq => ?_⟩, hvalue.symm⟩
  · have hc : c ≠ 0 := by
      rintro rfl
      exact hne (by simp)
    have hpos := ten_zpow_pos (e - k)
    have hlength : 0 < (Numeral.digits c).length := List.length_pos_iff.2 (Numeral.digits_ne_nil c)
    have hlow : 10 ^ (Amount.precision - 1) ≤ c * 10 ^ k := by
      rw [show Amount.precision - 1 = (Numeral.digits c).length - 1 + k by omega, pow_add]
      exact Nat.mul_le_mul_right _ (Numeral.pow_le_of_ne_zero hc)
    have hhigh : c * 10 ^ k < 10 ^ Amount.precision := by
      rw [hk, pow_add]
      exact Nat.mul_lt_mul_of_pos_right (Numeral.lt_pow_length_digits c) (Nat.pow_pos (by decide))
    rw [← hvalue]
    exact ⟨mul_le_mul_of_nonneg_right (by exact_mod_cast hlow) hpos.le,
      mul_lt_mul_of_pos_right (by exact_mod_cast hhigh) hpos⟩
  · rw [hvalue, sub_self, abs_zero, mul_zero]
    exact (ten_zpow_pos _).le
  · rw [hvalue, sub_self, abs_zero, mul_zero] at heq
    exact absurd heq (ten_zpow_pos _).ne

theorem RoundsTo.eq_of_isShort {q r : ℚ} (h : RoundsTo q r) (hq : IsShort q) : r = q :=
  h.unique (roundsTo_self hq)

/-! ### Amounts -/

/-- What is left of a number of more than 28 digits without the last ones. -/
theorem isNearest_roundDiv {c k : ℕ}
    (h : (Numeral.digits c).length = Amount.precision + k) (e : ℤ) :
    IsNearest (c * 10 ^ e) (Binary64.roundDiv c (10 ^ k)) (e + k) := by
  have hpos := ten_zpow_pos e
  -- everything in units of the last digit
  have hgrain : (10 : ℚ) ^ (e + k) = (10 ^ k : ℕ) * 10 ^ e := by
    rw [zpow_add₀ (by norm_num), zpow_natCast, Nat.cast_pow, Nat.cast_ofNat, mul_comm]
  have hdistance : |(c : ℚ) * 10 ^ e
      - (Binary64.roundDiv c (10 ^ k) : ℚ) * ((10 ^ k : ℕ) * 10 ^ e)|
      = (((Binary64.roundDiv c (10 ^ k) * 10 ^ k : ℕ) - c : ℤ).natAbs : ℚ) * 10 ^ e := by
    rw [abs_sub_comm, ← mul_assoc, ← sub_mul, abs_mul, abs_of_pos hpos, Nat.cast_natAbs]
    push_cast
    rfl
  constructor
  · intro hne
    have hc : c ≠ 0 := by
      rintro rfl
      exact hne (by rw [Nat.cast_zero, zero_mul])
    have hlow : 10 ^ (Amount.precision - 1) * 10 ^ k ≤ c := by
      have hlength : Amount.precision - 1 + k = (Numeral.digits c).length - 1 := by
        rw [h, Amount.precision]
        omega
      rw [← pow_add, hlength]
      exact Numeral.pow_le_of_ne_zero hc
    have hhigh : c < 10 ^ Amount.precision * 10 ^ k := by
      rw [← pow_add, ← h]
      exact Numeral.lt_pow_length_digits c
    rw [hgrain, ← mul_assoc, ← mul_assoc]
    exact ⟨mul_le_mul_of_nonneg_right (by exact_mod_cast hlow) hpos.le,
      mul_lt_mul_of_pos_right (by exact_mod_cast hhigh) hpos⟩
  · have hnear := Binary64.natAbs_roundDiv_mul_sub_le c (d := 10 ^ k) (Nat.pow_pos (by decide))
    rw [hgrain, hdistance, ← mul_assoc]
    exact mul_le_mul_of_nonneg_right (by exact_mod_cast hnear) hpos.le
  · intro heq
    rw [hgrain, hdistance, ← mul_assoc] at heq
    refine Binary64.even_roundDiv (Nat.pow_pos (by decide)) ?_
    exact_mod_cast mul_right_cancel₀ hpos.ne' heq

namespace Amount

/-- The number that an amount stands for. -/
def value (a : Amount) : ℚ := a.coefficient * 10 ^ a.exponent

/-- An amount that is not longer than the precision stays as it is. -/
theorem round_of_length_le {a : Amount} (h : (Numeral.digits a.coefficient).length ≤ precision) :
    a.round = a := by
  have hround : Binary64.roundDiv a.coefficient 1 = a.coefficient := by
    simpa using Binary64.roundDiv_mul a.coefficient (d := 1) (by decide)
  rw [round, Nat.sub_eq_zero_of_le h, Nat.pow_eq, pow_zero, hround]
  exact congrArg _ (Int.add_zero _)

/-- The amount is rounded as the number that it stands for. -/
theorem roundsTo_round (a : Amount) : RoundsTo a.value a.round.value := by
  rcases Nat.lt_or_ge precision (Numeral.digits a.coefficient).length with hlong | hshort
  · obtain ⟨k, hk⟩ : ∃ k, (Numeral.digits a.coefficient).length = precision + k :=
      ⟨_, (Nat.add_sub_cancel' hlong.le).symm⟩
    refine ⟨_, _, isNearest_roundDiv hk a.exponent, ?_⟩
    rw [round, value, hk, Nat.add_sub_cancel_left, Nat.pow_eq]
  · have hlt : a.coefficient < 10 ^ precision := (Numeral.length_digits_le_iff (by decide)).1 hshort
    rw [round_of_length_le hshort]
    exact roundsTo_self ⟨a.coefficient, a.exponent, hlt, rfl⟩

theorem scaledTo_mul_zpow {a : Amount} {e : ℤ} (h : e ≤ a.exponent) :
    (a.scaledTo e : ℚ) * 10 ^ e = a.value := by
  obtain ⟨j, hj⟩ : ∃ j : ℕ, a.exponent = e + j := ⟨(a.exponent - e).toNat, by omega⟩
  have htoNat : (a.exponent - e).toNat = j := by omega
  rw [scaledTo, value, htoNat, hj, zpow_add₀ (by norm_num), zpow_natCast, Nat.pow_eq]
  push_cast
  ring

theorem roundsTo_add (a b : Amount) : RoundsTo (a.value + b.value) (a.add b).value := by
  have hsum : Amount.value ⟨a.scaledTo (min a.exponent b.exponent)
      + b.scaledTo (min a.exponent b.exponent), min a.exponent b.exponent⟩
      = a.value + b.value := by
    rw [← scaledTo_mul_zpow (min_le_left a.exponent b.exponent),
      ← scaledTo_mul_zpow (min_le_right a.exponent b.exponent), value]
    push_cast
    ring
  rw [add, ← hsum]
  exact roundsTo_round _

theorem roundsTo_mul (a b : Amount) : RoundsTo (a.value * b.value) (a.mul b).value := by
  have hproduct : Amount.value ⟨a.coefficient * b.coefficient, a.exponent + b.exponent⟩
      = a.value * b.value := by
    rw [value, value, value, zpow_add₀ (by norm_num)]
    push_cast
    ring
  rw [mul, ← hproduct]
  exact roundsTo_round _

end Amount

end Trialnet.Duration
