import Trialnet.Proofs.Text.Numerals
import Trialnet.Binary64.Text

/-!
# Decimals that are read back

The nearest double to a decimal depends on the value of the decimal only, not on how its digits
are divided between coefficient and exponent.  Together with the exact value that ends the
search for the shortest decimal this shows that whatever `shortest` finds is read back:

* `ofDecimal_mul_pow`: zeros behind the coefficient count as a larger exponent;
* `ofDecimal_shortest`: the decimal of a place is read back as the number at that place.
-/

namespace Trialnet.Binary64

/-! ### Quotients -/

theorem roundDiv_mul_right (n d : Nat) {c : Nat} (hc : 0 < c) :
    roundDiv (n * c) (d * c) = roundDiv n d := by
  have hlt : 2 * (n % d * c) < d * c ↔ 2 * (n % d) < d := by
    rw [← Nat.mul_assoc, Nat.mul_lt_mul_right hc]
  have hgt : d * c < 2 * (n % d * c) ↔ d < 2 * (n % d) := by
    rw [← Nat.mul_assoc, Nat.mul_lt_mul_right hc]
  simp only [roundDiv, Nat.mul_div_mul_right _ _ hc, Nat.mul_mod_mul_right, hlt, hgt]

theorem nearestPlace_mul_right (n d : Nat) {c : Nat} (hc : 0 < c) :
    nearestPlace (n * c) (d * c) = nearestPlace n d := by
  simp only [nearestPlace, Nat.mul_div_mul_right _ _ hc]
  rw [Nat.mul_right_comm, roundDiv_mul_right _ _ hc]

theorem ofQuotient_mul_right (s : Bool) (n d : Nat) {c : Nat} (hc : 0 < c) :
    ofQuotient s (n * c) (d * c) = ofQuotient s n d := by
  rw [ofQuotient, ofQuotient, nearestPlace_mul_right _ _ hc]

/-- Two quotients of one value have one nearest number. -/
theorem ofQuotient_congr (s : Bool) {n d n' d' : Nat} (hd : 0 < d) (hd' : 0 < d')
    (h : n * d' = n' * d) : ofQuotient s n d = ofQuotient s n' d' := by
  rw [← ofQuotient_mul_right s n d hd', ← ofQuotient_mul_right s n' d' hd, h, Nat.mul_comm d]

/-- The number at a place is the nearest to its units. -/
theorem ofQuotient_unitsAt (s : Bool) (p : Nat) : ofQuotient s (unitsAt p) 1 = ofPlace s p := by
  rw [ofQuotient, nearestPlace_unitsAt]

/-! ### Decimals -/

/-- A decimal `m * 10 ^ e` as a quotient of naturals. -/
def decimalQuotient (m : Nat) (e : Int) : Nat × Nat :=
  (m * Nat.pow 10 e.toNat * unitsPerOne, Nat.pow 10 (-e).toNat)

theorem decimalQuotient_pos (m : Nat) (e : Int) : 0 < (decimalQuotient m e).2 :=
  Nat.pow_pos (by decide)

/-- A decimal within reach is rounded as a quotient. -/
theorem ofDecimal_eq_ofQuotient (s : Bool) {m : Nat} {e : Int} (hm : m ≠ 0)
    (hlow : -(decimalReach : Int) ≤ (Numeral.digits m).length + e)
    (hhigh : (Numeral.digits m).length + e ≤ (decimalReach : Int)) :
    ofDecimal s m e = ofQuotient s (decimalQuotient m e).1 (decimalQuotient m e).2 := by
  have hlow' : ¬ ((Numeral.digits m).length + e < -(decimalReach : Int)) := by omega
  have hhigh' : ¬ ((decimalReach : Int) < (Numeral.digits m).length + e) := by omega
  simp only [ofDecimal, hm, hlow', hhigh', or_self, if_false, decimalQuotient]
  split
  · rename_i he
    rw [show (-e).toNat = 0 by omega]
  · rename_i he
    rw [show e.toNat = 0 by omega, show Nat.pow 10 0 = 1 from rfl, Nat.mul_one]

/-- Zeros behind the coefficient count as a larger exponent. -/
theorem ofDecimal_mul_pow (s : Bool) (m z : Nat) (e : Int) :
    ofDecimal s (m * 10 ^ z) e = ofDecimal s m (e + z) := by
  by_cases hm : m = 0
  · simp [hm, ofDecimal]
  have hm' : m * 10 ^ z ≠ 0 := Nat.mul_ne_zero hm (pow_ne_zero z (by decide))
  have hlen : ((Numeral.digits (m * 10 ^ z)).length : Int) = (Numeral.digits m).length + z := by
    rw [Numeral.length_digits_mul_pow hm]
    simp
  -- both sides are out of reach together, since only the width counts for that
  by_cases hlow : (Numeral.digits m).length + (e + z) < -(decimalReach : Int)
  · have hlow' : (Numeral.digits (m * 10 ^ z)).length + e < -(decimalReach : Int) := by omega
    simp only [ofDecimal, hlow, hlow', or_true, if_true]
  by_cases hhigh : (decimalReach : Int) < (Numeral.digits m).length + (e + z)
  · have hhigh' : (decimalReach : Int) < (Numeral.digits (m * 10 ^ z)).length + e := by omega
    have hlow' : ¬ ((Numeral.digits (m * 10 ^ z)).length + e < -(decimalReach : Int)) := by omega
    simp only [ofDecimal, hm, hm', hlow, hlow', hhigh, hhigh', or_self, if_false, if_true]
  rw [ofDecimal_eq_ofQuotient s hm' (by omega) (by omega),
    ofDecimal_eq_ofQuotient s hm (by omega) (by omega)]
  refine ofQuotient_congr s (decimalQuotient_pos _ _) (decimalQuotient_pos _ _) ?_
  -- within reach both are the same quotient, whichever signs the exponents have
  have hpow : 10 ^ z * 10 ^ e.toNat * 10 ^ (-(e + z)).toNat
      = 10 ^ (e + z).toNat * 10 ^ (-e).toNat := by
    rw [← pow_add, ← pow_add, ← pow_add]
    congr 1
    omega
  simp only [decimalQuotient, Nat.pow_eq]
  calc m * 10 ^ z * 10 ^ e.toNat * unitsPerOne * 10 ^ (-(e + z)).toNat
      = m * (10 ^ z * 10 ^ e.toNat * 10 ^ (-(e + z)).toNat) * unitsPerOne := by ring
    _ = m * 10 ^ (e + z).toNat * unitsPerOne * 10 ^ (-e).toNat := by rw [hpow]; ring

/-- The sign of a decimal is the sign of its number. -/
theorem ofDecimal_true (m : Nat) (e : Int) : ofDecimal true m e = (ofDecimal false m e).neg := by
  have hplace : ∀ p, ofPlace true p = (ofPlace false p).neg := by
    intro p
    by_cases hp : p < placeCount <;> simp [ofPlace, hp, neg]
  simp only [ofDecimal]
  split
  · rfl
  · split
    · rfl
    · split <;> exact hplace _

/-! ### The decimal of a place -/

theorem unitsAt_lt {p n : Nat} (h : p < placeCount) (hn : 2098 ≤ n) : unitsAt p < 2 ^ n := by
  simp only [placeCount] at h
  simp only [unitsAt, blockSize, Nat.pow_eq]
  generalize hk : p / 0x10000000000000 - 1 = k
  have hm : p - k * 0x10000000000000 < 2 ^ 53 := by norm_num; omega
  calc (p - k * 0x10000000000000) * 2 ^ k
      < 2 ^ 53 * 2 ^ k := Nat.mul_lt_mul_of_pos_right hm (pow_pos (by decide) k)
    _ = 2 ^ (53 + k) := (pow_add 2 53 k).symm
    _ ≤ 2 ^ n := Nat.pow_le_pow_right (by decide) (by omega)

/-- The value of a place over a power of ten is read back, provided it is within reach. -/
theorem ofDecimal_unitsAt_mul {p a k : Nat} (h0 : p ≠ 0) (ha : a * unitsPerOne = Nat.pow 10 k)
    (hlow : k ≤ (Numeral.digits (unitsAt p * a)).length + decimalReach)
    (hhigh : (Numeral.digits (unitsAt p * a)).length ≤ k + decimalReach) :
    ofDecimal false (unitsAt p * a) (-k) = ofPlace false p := by
  have ha0 : a ≠ 0 := by
    rintro rfl
    rw [Nat.zero_mul] at ha
    exact absurd ha (Nat.ne_of_lt (Nat.pow_pos (by decide)))
  have hm : unitsAt p * a ≠ 0 := Nat.mul_ne_zero (Nat.ne_of_gt (unitsAt_pos h0)) ha0
  rw [ofDecimal_eq_ofQuotient false hm (by omega) (by omega), ← ofQuotient_unitsAt]
  refine ofQuotient_congr false (decimalQuotient_pos _ _) Nat.one_pos ?_
  have hneg : (-(k : Int)).toNat = 0 := by omega
  have hpos : (-(-(k : Int))).toNat = k := by omega
  simp only [decimalQuotient, hneg, hpos, ← ha, Nat.pow_eq, pow_zero, Nat.mul_one, Nat.mul_assoc]

theorem ten_pow_le_five_pow : 10 ^ 674 ≤ Nat.pow 5 1074 := by decide +kernel

theorem two_pow_mul_five_pow_lt : 2 ^ 2098 * Nat.pow 5 1074 < 10 ^ 1474 := by decide +kernel

/-- The exponent has a name, so that no power of ten with it is computed where it is used. -/
theorem exists_five_pow_mul_unitsPerOne :
    ∃ k : ℕ, k = 1074 ∧ Nat.pow 5 1074 * unitsPerOne = Nat.pow 10 k :=
  ⟨_, rfl, by decide +kernel⟩

/-- The exact value of a place is read back. -/
theorem ofDecimal_exact {p : Nat} (h0 : p ≠ 0) (h : p < placeCount) :
    ofDecimal false (unitsAt p * Nat.pow 5 1074) (-1074) = ofPlace false p := by
  obtain ⟨k, hk, h5⟩ := exists_five_pow_mul_unitsPerOne
  have hlow := ten_pow_le_five_pow
  have hhigh := two_pow_mul_five_pow_lt
  have hlt := unitsAt_lt h (Nat.le_refl 2098)
  -- the powers are not to be computed
  generalize Nat.pow 5 1074 = a at h5 hlow hhigh ⊢
  generalize (2 : Nat) ^ 2098 = b at hhigh hlt
  have hexponent : (-1074 : Int) = -(k : Int) := by omega
  rw [hexponent]
  refine ofDecimal_unitsAt_mul h0 h5 ?_ ?_
  · have hlen : ¬ (Numeral.digits (unitsAt p * a)).length ≤ 674 := by
      rw [Numeral.length_digits_le_iff (by decide), Nat.not_lt]
      exact le_trans hlow (Nat.le_mul_of_pos_left a (unitsAt_pos h0))
    simp only [decimalReach]
    omega
  · have hreach : k + decimalReach = 1474 := by
      simp only [decimalReach]
      omega
    rw [hreach, Numeral.length_digits_le_iff (by decide)]
    generalize (10 : Nat) ^ 1474 = c at hhigh ⊢
    exact lt_of_le_of_lt (Nat.mul_le_mul_right a (Nat.le_of_lt hlt)) hhigh

/-- Rounding a quotient gives one of its two neighbours. -/
theorem roundDiv_eq_or (n d : Nat) : roundDiv n d = n / d ∨ roundDiv n d = n / d + 1 := by
  simp only [roundDiv]
  split
  · exact Or.inl rfl
  · split
    · exact Or.inr rfl
    · omega

/-- What is found on a grid is read back. -/
theorem readsBack_of_onGrid {p m : Nat} {e e' : Int} (h : onGrid p e' = some (m, e)) :
    readsBack p m e = true := by
  simp only [onGrid] at h
  split at h
  · rename_i hlow
    split at h
    · -- both neighbours are read back, and the nearer is one of them
      rename_i hhigh
      simp only [Option.some.injEq, Prod.mk.injEq] at h
      obtain ⟨rfl, rfl⟩ := h
      rcases roundDiv_eq_or (inSteps p e').1 (inSteps p e').2 with hr | hr
      · rw [hr]
        exact hlow
      · rw [hr]
        exact hhigh
    · simp only [Option.some.injEq, Prod.mk.injEq] at h
      obtain ⟨rfl, rfl⟩ := h
      exact hlow
  · split at h
    · rename_i hhigh
      simp only [Option.some.injEq, Prod.mk.injEq] at h
      obtain ⟨rfl, rfl⟩ := h
      exact hhigh
    · exact absurd h (by simp)

/-- The definition of `shortest` as an equation of functions: with a place that is not known,
the search would be run to compare the two sides. -/
theorem shortest_eq : shortest = fun place =>
    match (List.range 17).findSome? fun k => withDigits place (k + 1) with
    | some (m, e) => (m, e)
    | none => (unitsAt place * Nat.pow 5 1074, -1074) := by
  delta shortest
  rfl

theorem ofDecimal_of_eq {x : Nat × Int} {m : Nat} {e : Int} {y : Binary64} (hx : x = (m, e))
    (h : ofDecimal false m e = y) : ofDecimal false x.1 x.2 = y := by
  rw [hx]
  exact h

/-- The decimal of a place is read back as the number at that place. -/
theorem ofDecimal_shortest {p : Nat} (h0 : p ≠ 0) (h : p < placeCount) :
    ofDecimal false (shortest p).1 (shortest p).2 = ofPlace false p := by
  have hshortest := congrFun shortest_eq p
  beta_reduce at hshortest
  cases hfind : (List.range 17).findSome? fun k => withDigits p (k + 1) with
  | some found =>
    obtain ⟨m, e⟩ := found
    obtain ⟨k, -, hk⟩ := List.exists_of_findSome?_eq_some hfind
    rw [hfind] at hshortest
    exact ofDecimal_of_eq hshortest (eq_of_beq (readsBack_of_onGrid hk))
  | none =>
    rw [hfind] at hshortest
    exact ofDecimal_of_eq hshortest (ofDecimal_exact h0 h)

end Trialnet.Binary64
