import Mathlib.Tactic.Linarith
import Mathlib.Tactic.Ring
import Trialnet.Proofs.Binary64.Decimals
import Trialnet.Proofs.Binary64.Sums

/-!
# Rounding to 53 binary digits

In units a finite number is an integer of at most 53 binary digits and some zeros, and rounding
goes to the nearest of these: to a multiple of a power of two that is as small as the digits in
front of it allow.  All that is used of rounding later on is said by `IsRoundedTo`: the rounded
number is such a multiple, not further away than half of the power.  From this follow

* `IsRoundedTo.natAbs_sub_le`: no integer of 53 digits is nearer;
* `IsRoundedTo.dvd_of_dvd`: zeros at the end are kept;
* `add_exact`, `sub_exact`: a sum or difference of 53 digits is not rounded at all.
-/

namespace Trialnet.Binary64

theorem unitsPerOne_eq : unitsPerOne = 2 ^ 1074 := by decide +kernel

theorem units_one : one.units = ((2 ^ 1074 : ℕ) : ℤ) := by decide +kernel

/-! ### Numbers of 53 binary digits -/

/-- At most 53 binary digits, zeros at the end not counted. -/
def IsRepresentable (n : ℤ) : Prop := ∃ k : ℕ, 2 ^ k ∣ n ∧ n.natAbs < 2 ^ (53 + k)

theorem isRepresentable_zero : IsRepresentable 0 := ⟨0, dvd_zero _, by decide⟩

/-- A number that has a 54th digit because it is a power of two is short, too. -/
theorem isRepresentable_of_le {n : ℤ} {k : ℕ} (hdvd : 2 ^ k ∣ n) (hle : n.natAbs ≤ 2 ^ (53 + k)) :
    IsRepresentable n := by
  rcases Nat.lt_or_eq_of_le hle with hlt | heq
  · exact ⟨k, hdvd, hlt⟩
  · refine ⟨k + 1, ?_, heq ▸ Nat.pow_lt_pow_right (by decide) (by omega)⟩
    have hpow : 2 ^ (k + 1) ∣ n.natAbs := heq ▸ Nat.pow_dvd_pow 2 (by omega)
    exact_mod_cast Int.natCast_dvd.2 hpow

/-- The units of a place: a number of 53 digits and a power of two. -/
theorem unitsAt_eq (p : ℕ) : ∃ m k, unitsAt p = m * 2 ^ k ∧ m < 2 ^ 53 ∧ (k = 0 ∨ 2 ^ 52 ≤ m) := by
  refine ⟨p - (p / blockSize - 1) * blockSize, p / blockSize - 1, rfl, ?_, ?_⟩
  · simp only [blockSize]
    omega
  · simp only [blockSize]
    omega

theorem unitsAt_le {p q : ℕ} (h : p ≤ q) : unitsAt p ≤ unitsAt q := by
  simp only [unitsAt, blockSize, Nat.pow_eq]
  generalize hj : p / 0x10000000000000 - 1 = j
  generalize hk : q / 0x10000000000000 - 1 = k
  rcases Nat.lt_or_ge j k with hlt | hge
  · -- a later block begins where the blocks before it end
    have hp : p - j * 0x10000000000000 ≤ 2 ^ 53 := by norm_num; omega
    have hq : 2 ^ 52 ≤ q - k * 0x10000000000000 := by norm_num; omega
    calc (p - j * 0x10000000000000) * 2 ^ j
        ≤ 2 ^ 53 * 2 ^ j := Nat.mul_le_mul_right _ hp
      _ = 2 ^ 52 * 2 ^ (j + 1) := by ring
      _ ≤ (q - k * 0x10000000000000) * 2 ^ k :=
        Nat.mul_le_mul hq (Nat.pow_le_pow_right (by decide) hlt)
  · obtain rfl : j = k := by omega
    exact Nat.mul_le_mul_right _ (by omega)

theorem natAbs_units {x : Binary64} (h : x.isFinite = true) :
    ∃ p < placeCount, x.units.natAbs = unitsAt p := by
  obtain ⟨s, p, rfl⟩ := exists_eq_finite h
  refine ⟨p, p.isLt, ?_⟩
  cases s with
  | true => rw [units, Int.natAbs_neg, Int.natAbs_natCast]
  | false => rw [units, Int.natAbs_natCast]

theorem isRepresentable_units {x : Binary64} (h : x.isFinite = true) : IsRepresentable x.units := by
  obtain ⟨p, -, hp⟩ := natAbs_units h
  obtain ⟨m, k, heq, hm, -⟩ := unitsAt_eq p
  refine ⟨k, ?_, ?_⟩
  · have hpow : 2 ^ k ∣ x.units.natAbs := hp ▸ heq ▸ Dvd.intro_left m rfl
    exact_mod_cast Int.natCast_dvd.2 hpow
  · rw [hp, heq, pow_add]
    exact Nat.mul_lt_mul_of_pos_right hm (Nat.pow_pos (by decide))

/-- A finite number with at least `2 ^ (52 + k)` units is a multiple of `2 ^ k` units. -/
theorem two_pow_dvd_units {x : Binary64} {k : ℕ} (h : x.isFinite = true)
    (hle : 2 ^ (52 + k) ≤ x.units.natAbs) : 2 ^ k ∣ x.units := by
  obtain ⟨j, hdvd, hlt⟩ := isRepresentable_units h
  have hpow : 52 + k < 53 + j := (Nat.pow_lt_pow_iff_right (by decide)).1 (hle.trans_lt hlt)
  exact (pow_dvd_pow 2 (by omega)).trans hdvd

/-- The greatest finite number falls short of `2 ^ 1024` by `2 ^ 971`. -/
theorem natAbs_units_add_le {x : Binary64} (h : x.isFinite = true) :
    x.units.natAbs + 2 ^ 2045 ≤ 2 ^ 2098 := by
  obtain ⟨p, hp, hunits⟩ := natAbs_units h
  rw [hunits]
  simp only [unitsAt, blockSize, placeCount, Nat.pow_eq] at hp ⊢
  generalize hk : p / 0x10000000000000 - 1 = k
  have hm : p - k * 0x10000000000000 ≤ 2 ^ 53 - 1 := by norm_num; omega
  have hpow : 2 ^ k ≤ 2 ^ 2045 := pow_le_pow_right₀ (by decide) (by omega)
  have hmul := Nat.mul_le_mul hm hpow
  omega

/-! ### Rounding -/

/-- Below a power of two, a multiple of a smaller one is that much below. -/
theorem natAbs_add_le_of_dvd {n : ℤ} {i j : ℕ} (hdvd : 2 ^ j ∣ n) (hji : j ≤ i)
    (hlt : n.natAbs < 2 ^ i) : n.natAbs + 2 ^ j ≤ 2 ^ i := by
  have hn : 2 ^ j ∣ n.natAbs := by
    rw [← Int.natCast_dvd]
    exact_mod_cast hdvd
  have hpos : 0 < 2 ^ i - n.natAbs := by omega
  have hle := Nat.le_of_dvd hpos (Nat.dvd_sub (Nat.pow_dvd_pow 2 hji) hn)
  omega

/-- `r` is a multiple of `2 ^ k` next to `u`, and `u` has just as many digits as such multiples
may have. -/
structure IsRoundedTo (k : ℕ) (u r : ℤ) : Prop where
  dvd : 2 ^ k ∣ r
  near : 2 * (r - u).natAbs ≤ 2 ^ k
  lt : u.natAbs < 2 ^ (53 + k)
  le : k = 0 ∨ 2 ^ (52 + k) ≤ u.natAbs

namespace IsRoundedTo

variable {k j : ℕ} {u r v : ℤ}

theorem eq_of_dvd (h : IsRoundedTo k u r) (hu : 2 ^ k ∣ u) : r = u := by
  have hsmall : (r - u).natAbs < ((2 : ℤ) ^ k).natAbs := by
    have hpos : 0 < 2 ^ k := Nat.pow_pos (by decide)
    have hnear := h.near
    rw [Int.natAbs_pow]
    exact show _ < 2 ^ k by omega
  have hzero := Int.eq_zero_of_dvd_of_natAbs_lt_natAbs (Int.dvd_sub h.dvd hu) hsmall
  omega

/-- Rounding keeps zeros at the end. -/
theorem dvd_of_dvd (h : IsRoundedTo k u r) (hu : 2 ^ j ∣ u) : 2 ^ j ∣ r := by
  rcases le_total j k with hjk | hkj
  · exact (pow_dvd_pow 2 hjk).trans h.dvd
  · rw [h.eq_of_dvd ((pow_dvd_pow 2 hkj).trans hu)]
    exact hu

/-- The rounded number has as many digits. -/
theorem two_pow_le_rounded (h : IsRoundedTo k u r) : k = 0 ∨ 2 ^ (52 + k) ≤ r.natAbs := by
  refine h.le.imp_right fun hu => ?_
  by_contra hlt
  have hgap := natAbs_add_le_of_dvd h.dvd (show k ≤ 52 + k by omega) (Nat.lt_of_not_le hlt)
  have hpos : 0 < 2 ^ k := Nat.pow_pos (by decide)
  have hnear := h.near
  omega

/-- No multiple of the power is nearer. -/
theorem natAbs_sub_le_of_dvd (h : IsRoundedTo k u r) (hv : 2 ^ k ∣ v) :
    (r - u).natAbs ≤ (v - u).natAbs := by
  by_contra hlt
  -- two multiples that are so near to each other are the same
  have hsmall : (v - r).natAbs < ((2 : ℤ) ^ k).natAbs := by
    have hnear := h.near
    rw [Int.natAbs_pow]
    exact show _ < 2 ^ k by omega
  have hzero := Int.eq_zero_of_dvd_of_natAbs_lt_natAbs (Int.dvd_sub hv h.dvd) hsmall
  omega

/-- No number of 53 digits is nearer. -/
theorem natAbs_sub_le (h : IsRoundedTo k u r) (hv : IsRepresentable v) :
    (r - u).natAbs ≤ (v - u).natAbs := by
  obtain ⟨j, hdvd, hlt⟩ := hv
  by_cases hkj : k ≤ j
  · exact h.natAbs_sub_le_of_dvd ((pow_dvd_pow 2 hkj).trans hdvd)
  · -- `v` has fewer digits, and so has the power that `u` has just reached
    have hv' : v.natAbs ≤ 2 ^ (52 + k) :=
      hlt.le.trans (Nat.pow_le_pow_right (by decide) (by omega))
    have hu : 2 ^ (52 + k) ≤ u.natAbs := h.le.resolve_left (by omega)
    have hpow : (2 : ℤ) ^ k ∣ 2 ^ (52 + k) := pow_dvd_pow 2 (by omega)
    have hcast : ((2 : ℤ) ^ (52 + k)).natAbs = 2 ^ (52 + k) := Int.natAbs_pow 2 (52 + k)
    have hnonneg : (0 : ℤ) ≤ 2 ^ (52 + k) := by positivity
    have habove := h.natAbs_sub_le_of_dvd hpow
    have hbelow := h.natAbs_sub_le_of_dvd ((Int.dvd_neg).2 hpow)
    omega

/-- What has 53 digits is not changed. -/
theorem eq_of_isRepresentable (h : IsRoundedTo k u r) (hu : IsRepresentable u) : r = u := by
  have hle := h.natAbs_sub_le hu
  omega

end IsRoundedTo

/-! ### Nearest places -/

theorem roundDiv_le {n d m : Nat} (hd : 0 < d) (h : n ≤ m * d) : roundDiv n d ≤ m := by
  have hdiv := Nat.div_add_mod n d
  have hle : n / d ≤ m := Nat.div_le_of_le_mul (Nat.mul_comm m d ▸ h)
  simp only [roundDiv]
  rcases Nat.lt_or_eq_of_le hle with hlt | heq
  · split
    · exact hle
    · split <;> omega
  · -- nothing is left over, so there is nothing to round up
    have hmod : n % d = 0 := by
      rw [heq, Nat.mul_comm] at hdiv
      omega
    rw [hmod, Nat.mul_zero, if_pos hd]
    exact hle

/-- What is bounded by a power of two is rounded to a place up to that of the power. -/
theorem nearestPlace_le {n k : Nat} (hk : 52 ≤ k) (hn : n ≤ 2 ^ k) :
    nearestPlace n 1 ≤ (k - 51) * blockSize := by
  have hlog : n.log2 ≤ k := by
    by_cases h0 : n = 0
    · rw [h0]
      exact Nat.zero_le k
    · exact Nat.lt_succ_iff.1 ((Nat.log2_lt h0).2 (hn.trans_lt (Nat.pow_lt_pow_succ (by decide))))
  have hself : n < 2 ^ (n.log2 + 1) := Nat.lt_log2_self
  simp only [nearestPlace, Nat.div_one, Nat.one_mul, Nat.pow_eq]
  generalize hj : n.log2 - 52 = j
  have hjk : j ≤ k - 52 := by omega
  have hround : roundDiv n (2 ^ j) ≤ (k - 51 - j) * blockSize := by
    refine roundDiv_le (pow_pos (by decide) j) ?_
    rcases Nat.lt_or_eq_of_le hjk with hlt | heq
    · have htwo : 2 ≤ k - 51 - j := by omega
      calc n ≤ 2 ^ (53 + j) := hself.le.trans (Nat.pow_le_pow_right (by decide) (by omega))
        _ = 2 * blockSize * 2 ^ j := by rw [pow_add]; rfl
        _ ≤ (k - 51 - j) * blockSize * 2 ^ j :=
          Nat.mul_le_mul_right _ (Nat.mul_le_mul_right _ htwo)
    · have hone : k - 51 - j = 1 := by omega
      calc n ≤ 2 ^ (52 + j) := hn.trans (Nat.pow_le_pow_right (by decide) (by omega))
        _ = (k - 51 - j) * blockSize * 2 ^ j := by rw [hone, Nat.one_mul, pow_add]; rfl
  calc j * blockSize + roundDiv n (2 ^ j)
      ≤ j * blockSize + (k - 51 - j) * blockSize := Nat.add_le_add_left hround _
    _ = (k - 51) * blockSize := by rw [← Nat.add_mul, Nat.add_sub_cancel' (by omega)]

/-- Twice the distance to the rounded quotient is at most the divisor. -/
theorem natAbs_roundDiv_mul_sub_le (n : ℕ) {d : ℕ} (hd : 0 < d) :
    2 * ((roundDiv n d * d : ℕ) - n : ℤ).natAbs ≤ d := by
  have hdiv := Nat.div_add_mod n d
  have hmod := Nat.mod_lt n hd
  have hsucc : (n / d + 1) * d = d * (n / d) + d := by ring
  have hsame : n / d * d = d * (n / d) := Nat.mul_comm _ _
  simp only [roundDiv]
  split
  · omega
  · split
    · omega
    · rcases Nat.mod_two_eq_zero_or_one (n / d) with heven | hodd
      · rw [heven, Nat.add_zero]
        omega
      · rw [hodd]
        omega

/-- The nearest quotient is even if it is as near as its neighbour. -/
theorem even_roundDiv {n d : ℕ} (hd : 0 < d)
    (h : 2 * ((roundDiv n d * d : ℕ) - n : ℤ).natAbs = d) : Even (roundDiv n d) := by
  have hdiv : n % d + d * (n / d) = n := Nat.mod_add_div n d
  have hmod : n % d < d := Nat.mod_lt n hd
  have hup : (n / d + 1) * d = d * (n / d) + d := by ring
  have hdown : n / d * d = d * (n / d) := Nat.mul_comm _ _
  rw [roundDiv] at h ⊢
  split at h
  · rw [hdown] at h
    omega
  · split at h
    · rw [hup] at h
      omega
    · rw [if_neg ‹_›, if_neg ‹_›, Nat.even_iff]
      omega

/-- The units of the place that is nearest to a number. -/
theorem unitsAt_nearestPlace (n : ℕ) :
    unitsAt (nearestPlace n 1) = roundDiv n (2 ^ (n.log2 - 52)) * 2 ^ (n.log2 - 52) := by
  have hself : n < 2 ^ (n.log2 + 1) := Nat.lt_log2_self
  simp only [nearestPlace, Nat.div_one, Nat.one_mul, Nat.pow_eq]
  generalize hk : n.log2 - 52 = k
  have hpos : 0 < 2 ^ k := Nat.pow_pos (by decide)
  generalize hq : roundDiv n (2 ^ k) = q
  have hle : q ≤ 2 ^ 53 := by
    rw [← hq]
    refine roundDiv_le hpos ?_
    rw [← pow_add]
    exact hself.le.trans (Nat.pow_le_pow_right (by decide) (by omega))
  have hge : k = 0 ∨ 2 ^ 52 ≤ q := by
    by_cases h0 : k = 0
    · exact Or.inl h0
    · have hn : n ≠ 0 := by
        rintro rfl
        exact h0 hk.symm
      have hdiv : 2 ^ 52 ≤ n / 2 ^ k := by
        rw [Nat.le_div_iff_mul_le hpos, ← pow_add, show 52 + k = n.log2 by omega]
        exact Nat.log2_self_le hn
      rcases roundDiv_eq_or n (2 ^ k) with h | h <;> omega
  simp only [unitsAt, blockSize, Nat.pow_eq]
  rcases Nat.lt_or_eq_of_le hle with hlt | heq
  · have hblock : (k * 0x10000000000000 + q) / 0x10000000000000 - 1 = k := by omega
    rw [hblock, Nat.add_sub_cancel_left]
  · -- rounding up to a power of two ends in the next block
    have hblock : (k * 0x10000000000000 + q) / 0x10000000000000 - 1 = k + 1 := by omega
    have hfirst : k * 0x10000000000000 + q - (k + 1) * 0x10000000000000 = 2 ^ 52 := by omega
    rw [hblock, hfirst, heq, ← pow_add, ← pow_add]
    congr 1
    omega

theorem units_ofUnits {u : ℤ} (h : (ofUnits u).isFinite = true) :
    (ofUnits u).units = if u < 0 then -(unitsAt (nearestPlace u.natAbs 1) : ℤ)
      else unitsAt (nearestPlace u.natAbs 1) := by
  rw [ofUnits, ofQuotient, ofPlace] at h ⊢
  split at h
  · rename_i hlt
    rw [dif_pos hlt]
    by_cases hneg : u < 0
    · rw [decide_eq_true hneg, if_pos hneg, units]
    · rw [decide_eq_false hneg, if_neg hneg, units]
  · cases h

/-- The double nearest to a number of units is next to it. -/
theorem isRoundedTo_ofUnits {u : ℤ} (h : (ofUnits u).isFinite = true) :
    IsRoundedTo (u.natAbs.log2 - 52) u (ofUnits u).units := by
  have hself : u.natAbs < 2 ^ (u.natAbs.log2 + 1) := Nat.lt_log2_self
  have hround := natAbs_roundDiv_mul_sub_le u.natAbs
    (Nat.pow_pos (n := u.natAbs.log2 - 52) (show 0 < 2 by decide))
  rw [units_ofUnits h, unitsAt_nearestPlace]
  generalize hk : u.natAbs.log2 - 52 = k at hround
  generalize hm : roundDiv u.natAbs (2 ^ k) * 2 ^ k = m at hround
  have hdvd : (2 : ℤ) ^ k ∣ m := by
    rw [← hm]
    exact_mod_cast Dvd.intro_left _ rfl
  refine ⟨?_, ?_, hself.trans_le (Nat.pow_le_pow_right (by decide) (by omega)), ?_⟩
  · split
    · exact Int.dvd_neg.2 hdvd
    · exact hdvd
  · split <;> omega
  · by_cases h0 : k = 0
    · exact Or.inl h0
    · have hne : u.natAbs ≠ 0 := by
        intro hzero
        rw [hzero] at hk
        exact h0 hk.symm
      rw [show 52 + k = u.natAbs.log2 by omega]
      exact Or.inr (Nat.log2_self_le hne)

/-- A number that is not rounded up to `2 ^ 1024` has a nearest double. -/
theorem isFinite_ofUnits {u : ℤ} (h : u.natAbs + 2 ^ 2044 < 2 ^ 2098) :
    (ofUnits u).isFinite = true := by
  have hle : nearestPlace u.natAbs 1 ≤ placeCount :=
    nearestPlace_le (k := 2098) (by decide) (by omega)
  have hlt : nearestPlace u.natAbs 1 < placeCount := by
    refine Nat.lt_of_le_of_ne hle fun heq => ?_
    have hunits : unitsAt placeCount = 2 ^ 2098 := by decide +kernel
    have hround := natAbs_roundDiv_mul_sub_le u.natAbs
      (Nat.pow_pos (n := u.natAbs.log2 - 52) (show 0 < 2 by decide))
    rw [← unitsAt_nearestPlace, heq, hunits] at hround
    have hlog : u.natAbs.log2 < 2098 := by
      by_cases h0 : u.natAbs = 0
      · rw [h0]
        decide
      · exact (Nat.log2_lt h0).2 (by omega)
    have hpow : 2 ^ (u.natAbs.log2 - 52) ≤ 2 ^ 2045 :=
      pow_le_pow_right₀ (by decide) (by omega)
    omega
  rw [ofUnits, ofQuotient, ofPlace, dif_pos hlt]
  rfl

/-! ### Sums of two -/

theorem IsRepresentable.natAbs_add_lt {n : ℤ} (h : IsRepresentable n)
    (hlt : n.natAbs < 2 ^ 2098) : n.natAbs + 2 ^ 2044 < 2 ^ 2098 := by
  obtain ⟨k, hdvd, hk⟩ := h
  rcases Nat.lt_or_ge k 2045 with hlow | hhigh
  · have hpow : 2 ^ (53 + k) ≤ 2 ^ 2097 := pow_le_pow_right₀ (by decide) (by omega)
    omega
  · have hmul : (2 : ℤ) ^ 2045 ∣ n := (pow_dvd_pow 2 hhigh).trans hdvd
    omega

variable {x y : Binary64}

theorem add_eq (hx : x.isFinite = true) (hy : y.isFinite = true) :
    x.add y = ofUnits (x.units + y.units)
      ∨ x.units + y.units = 0 ∧ ∃ s, x.add y = signedZero s := by
  obtain ⟨s, p, rfl⟩ := exists_eq_finite hx
  obtain ⟨t, q, rfl⟩ := exists_eq_finite hy
  rw [add]
  split
  · rename_i hzero
    exact Or.inr ⟨hzero, s && t, rfl⟩
  · exact Or.inl rfl

theorem exists_isRoundedTo_add (hx : x.isFinite = true) (hy : y.isFinite = true)
    (h : (x.add y).isFinite = true) : ∃ k, IsRoundedTo k (x.units + y.units) (x.add y).units := by
  rcases add_eq hx hy with heq | ⟨hzero, s, heq⟩
  · rw [heq] at h ⊢
    exact ⟨_, isRoundedTo_ofUnits h⟩
  · have hunits : (signedZero s).units = 0 := by cases s <;> rfl
    rw [heq, hunits, hzero]
    exact ⟨0, dvd_zero _, Nat.zero_le _, by decide, Or.inl rfl⟩

theorem isFinite_add (hx : x.isFinite = true) (hy : y.isFinite = true)
    (h : (x.units + y.units).natAbs + 2 ^ 2044 < 2 ^ 2098) : (x.add y).isFinite = true := by
  rcases add_eq hx hy with heq | ⟨-, s, heq⟩
  · rw [heq]
    exact isFinite_ofUnits h
  · rw [heq]
    rfl

/-- A sum that has 53 digits is exact. -/
theorem add_exact (hx : x.isFinite = true) (hy : y.isFinite = true)
    (hrep : IsRepresentable (x.units + y.units)) (hlt : (x.units + y.units).natAbs < 2 ^ 2098) :
    (x.add y).isFinite = true ∧ (x.add y).units = x.units + y.units := by
  have hfinite := isFinite_add hx hy (hrep.natAbs_add_lt hlt)
  obtain ⟨k, hk⟩ := exists_isRoundedTo_add hx hy hfinite
  exact ⟨hfinite, hk.eq_of_isRepresentable hrep⟩

theorem isFinite_neg : x.neg.isFinite = x.isFinite := by
  cases x <;> rfl

theorem units_neg : x.neg.units = -x.units := by
  match x with
  | .nan => rfl
  | .infinite _ => rfl
  | .finite true p => exact (Int.neg_neg _).symm
  | .finite false p => rfl

theorem sub_exact (hx : x.isFinite = true) (hy : y.isFinite = true)
    (hrep : IsRepresentable (x.units - y.units)) (hlt : (x.units - y.units).natAbs < 2 ^ 2098) :
    (x.sub y).isFinite = true ∧ (x.sub y).units = x.units - y.units := by
  rw [sub_eq_add_neg, ← units_neg] at hrep hlt ⊢
  exact add_exact hx (isFinite_neg.trans hy) hrep hlt

theorem add_comm (x y : Binary64) : x.add y = y.add x := by
  match x, y with
  | .nan, .nan | .nan, .infinite _ | .nan, .finite .. | .infinite _, .nan | .finite .., .nan => rfl
  | .infinite s, .infinite t => cases s <;> cases t <;> rfl
  | .infinite _, .finite .. | .finite .., .infinite _ => rfl
  | .finite s p, .finite t q => rw [add, add, Int.add_comm, Bool.and_comm]

end Trialnet.Binary64
