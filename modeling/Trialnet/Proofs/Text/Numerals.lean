import Mathlib.Data.List.Induction
import Mathlib.Tactic.Ring
import Trialnet.Text.Numeral

/-!
# Numerals and their values

The value of a run of digits is computed from the left.  This file supplies what the readers of
numerals need: the value of runs that are joined, the effect of zeros at either end, and the
number of digits that a number has.
-/

namespace Trialnet

theorem Text.toNat_of_isDigit {c : Char} (h : c.isDigit = true) :
    0x30 ≤ c.toNat ∧ c.toNat < 0x3A := by
  simp only [Char.isDigit, Bool.and_eq_true, decide_eq_true_eq] at h
  have hlow : (0x30 : Nat) ≤ c.toNat := h.1
  have hhigh : c.toNat ≤ (0x39 : Nat) := h.2
  omega

namespace Numeral

/-! ### Values of joined runs -/

@[simp] theorem value_nil : value [] = 0 := rfl

theorem value_append (as bs : List Char) :
    value (as ++ bs) = value as * 10 ^ bs.length + value bs := by
  simp only [value, Nat.ofDigitChars_append]
  rw [Nat.ofDigitChars_eq_ofDigitChars_zero, Nat.mul_comm]

@[simp] theorem value_replicate_zero (n : Nat) : value (List.replicate n '0') = 0 := by
  simp [value]

/-- Zeros in front of a run do not change its value. -/
theorem value_zeros_append (n : Nat) (cs : List Char) :
    value (List.replicate n '0' ++ cs) = value cs := by
  simp [value_append]

/-- Each zero after a run multiplies its value by ten. -/
theorem value_append_zeros (cs : List Char) (n : Nat) :
    value (cs ++ List.replicate n '0') = value cs * 10 ^ n := by
  simp [value_append]

theorem value_zero_cons (cs : List Char) : value ('0' :: cs) = value cs :=
  value_zeros_append 1 cs

theorem value_singleton_lt {c : Char} (h : c.isDigit = true) : value [c] < 10 := by
  have := Text.toNat_of_isDigit h
  simp only [value, Nat.ofDigitChars_cons, Nat.ofDigitChars_nil, Char.reduceToNat]
  omega

/-- A run of digits denotes a number of at most as many digits. -/
theorem value_lt {cs : List Char} (h : ∀ c ∈ cs, c.isDigit = true) : value cs < 10 ^ cs.length := by
  induction cs using List.reverseRecOn with
  | nil => simp
  | append_singleton cs c ih =>
    have hcs : value cs < 10 ^ cs.length := ih fun d hd => h d (by simp [hd])
    have hc : value [c] < 10 := value_singleton_lt (h c (by simp))
    rw [value_append, List.length_append, List.length_singleton, pow_one, pow_succ]
    omega

/-! ### How many digits a number has -/

theorem length_digits_le_iff {n k : Nat} (hk : 0 < k) : (digits n).length ≤ k ↔ n < 10 ^ k :=
  Nat.length_toDigits_le_iff (by decide) hk

theorem lt_pow_length_digits (n : Nat) : n < 10 ^ (digits n).length :=
  (length_digits_le_iff (List.length_pos_iff.2 (digits_ne_nil n))).1 Nat.le.refl

/-- The first digit of a number is not zero. -/
theorem pow_le_of_ne_zero {n : Nat} (h : n ≠ 0) : 10 ^ ((digits n).length - 1) ≤ n := by
  rcases Nat.eq_zero_or_pos ((digits n).length - 1) with hlength | hlength
  · rw [hlength]
    exact Nat.one_le_iff_ne_zero.2 h
  · by_contra hlt
    have hle := (length_digits_le_iff hlength).2 (Nat.not_le.1 hlt)
    omega

/-- Multiplying by ten writes a zero behind the digits. -/
theorem digits_mul_ten {n : Nat} (hn : n ≠ 0) : digits (n * 10) = digits n ++ ['0'] := by
  have h := Nat.toDigits_append_toDigits (b := 10) (n := n) (d := 0) (by decide) (by omega)
    (by decide)
  rw [Nat.add_zero, Nat.mul_comm] at h
  exact h.symm

theorem length_digits_mul_pow {n : Nat} (hn : n ≠ 0) (k : Nat) :
    (digits (n * 10 ^ k)).length = (digits n).length + k := by
  induction k with
  | zero => simp
  | succ k ih =>
    have hne : n * 10 ^ k ≠ 0 := Nat.mul_ne_zero hn (pow_ne_zero k (by decide))
    rw [pow_succ, ← Nat.mul_assoc, digits_mul_ten hne, List.length_append, ih]
    simp [Nat.add_assoc]

/-- An integer may be written out if it has at most as many digits as may be read. -/
theorem isWritable_iff_length_le {n : Int} :
    isWritable n = true ↔ (digits n.natAbs).length ≤ maxDigits := by
  have hk : 0 < maxDigits := by decide
  rw [isWritable]
  -- the power is not to be computed
  generalize maxDigits = k at hk ⊢
  exact decide_eq_true_iff.trans (length_digits_le_iff hk).symm

/-- An integer of at most 64 bits is short enough to be written. -/
theorem isWritable_of_natAbs_lt {n : Int} (h : n.natAbs < 2 ^ 64) :
    isWritable n = true := by
  have h20 : n.natAbs < Nat.pow 10 20 := Nat.lt_trans h (by decide)
  have hk : 20 ≤ maxDigits := by decide
  rw [isWritable]
  -- the power is not to be computed
  generalize maxDigits = k at hk ⊢
  exact decide_eq_true (Nat.lt_of_lt_of_le h20 (Nat.pow_le_pow_right (by decide) hk))

/-- A run of at most as many digits as may be read denotes a number that may be written out. -/
theorem isWritable_of_natAbs_eq_value {n : Int} {cs : List Char}
    (hdigits : ∀ c ∈ cs, c.isDigit = true) (hlength : cs.length ≤ maxDigits)
    (hn : n.natAbs = value cs) : isWritable n = true := by
  have hvalue := value_lt hdigits
  rw [isWritable, hn]
  -- the power is not to be computed
  generalize maxDigits = k at hlength ⊢
  exact decide_eq_true (Nat.lt_of_lt_of_le hvalue (Nat.pow_le_pow_right (by decide) hlength))

/-! ### Numerals of natural numbers -/

@[simp] theorem chars_natCast (n : Nat) : chars n = digits n := rfl

@[simp] theorem toList_text (n : Int) : (text n).toList = chars n := by simp [text]

end Numeral

end Trialnet
