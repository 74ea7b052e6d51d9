import Mathlib.Data.Nat.Size
import Trialnet.Proofs.Binary64.Rounding

/-!
# Expansions

The running total of a summation is kept as an expansion: finite numbers, each with its digits in
front of those before it.  Adding two doubles loses the end of the sum, but what is lost is a
double again and is found by two subtractions (`lost_eq`).  So a number can be carried through an
expansion without any loss, and what is left over at the terms is an expansion below the rounded
total: `isCarried`.

What is left over is at most half a unit in the last place of a double, hence the terms below the
greatest do not add up to a whole one (`IsExpansion.natAbs_exactUnits_lt`), and the exact total
alone tells whether the rounded one is finite, but for totals next to the end of the finite
numbers: `Tally.Holds.natAbs_lt` and `Tally.Holds.isFinite_carry`.  The end is at `2 ^ 1024`, which
is `2 ^ 2098` units.
-/

namespace Trialnet.Binary64

variable {x y : Binary64}

/-! ### What a sum loses -/

namespace IsRoundedTo

variable {k : ℕ} {a b r : ℤ}

/-- Both summands are multiples of a power of two that leaves the smaller one 53 digits. -/
theorem exists_common_power (ha : IsRepresentable a) (hb : IsRepresentable b)
    (hle : b.natAbs ≤ a.natAbs) :
    ∃ g : ℕ, 2 ^ g ∣ a ∧ 2 ^ g ∣ b ∧ b.natAbs < 2 ^ (53 + g) := by
  obtain ⟨i, hai, hilt⟩ := ha
  obtain ⟨j, hbj, hjlt⟩ := hb
  rcases le_total i j with hij | hji
  · exact ⟨i, hai, (pow_dvd_pow 2 hij).trans hbj, hle.trans_lt hilt⟩
  · exact ⟨j, (pow_dvd_pow 2 hji).trans hai, hbj, hjlt⟩

/-- What is lost has 53 digits. -/
theorem isRepresentable_lost (h : IsRoundedTo k (a + b) r) (ha : IsRepresentable a)
    (hb : IsRepresentable b) (hle : b.natAbs ≤ a.natAbs) : IsRepresentable (a + b - r) := by
  obtain ⟨g, hag, hbg, hlt⟩ := exists_common_power ha hb hle
  have hsum : (2 : ℤ) ^ g ∣ a + b := Int.dvd_add hag hbg
  have hnear := h.natAbs_sub_le ha
  exact ⟨g, Int.dvd_sub hsum (h.dvd_of_dvd hsum), by omega⟩

/-- What the greater summand gains has 53 digits. -/
theorem isRepresentable_gained (h : IsRoundedTo k (a + b) r) (ha : IsRepresentable a)
    (hb : IsRepresentable b) (hle : b.natAbs ≤ a.natAbs) : IsRepresentable (r - a) := by
  obtain ⟨g, hag, hbg, hblt⟩ := exists_common_power ha hb hle
  have hnear := h.near
  rcases Nat.lt_or_ge g k with hgk | hkg
  · have hb53 : b.natAbs < 2 ^ (52 + k) :=
      hblt.trans_le (Nat.pow_le_pow_right (by decide) (by omega))
    have hsplit : 2 ^ (53 + k) = 2 ^ (52 + k) + 2 ^ (52 + k) := by ring
    have hk52 : 2 ^ k ≤ 2 ^ (52 + k) := Nat.pow_le_pow_right (by decide) (by omega)
    by_cases hak : (2 : ℤ) ^ k ∣ a
    · exact ⟨k, Int.dvd_sub h.dvd hak, by omega⟩
    · -- the sum has one digit more than the greater summand
      obtain ⟨j, haj, hjlt⟩ := ha
      have hjk : j < k := by
        by_contra hkj
        exact hak ((pow_dvd_pow 2 (by omega)).trans haj)
      have hsum : 2 ^ (52 + k) ≤ (a + b).natAbs := h.le.resolve_left (by omega)
      have hdouble : 2 ^ (54 + j) = 2 ^ (53 + j) + 2 ^ (53 + j) := by ring
      have hkj : 52 + k < 54 + j := (Nat.pow_lt_pow_iff_right (a := 2) (by decide)).1 (by omega)
      obtain rfl : k = j + 1 := by omega
      have hhalf : 2 ^ (j + 1) = 2 ^ j + 2 ^ j := by ring
      have hmul : (2 : ℤ) ^ j ∣ r - a := Int.dvd_sub ((pow_dvd_pow 2 (by omega)).trans h.dvd) haj
      have ha' := natAbs_add_le_of_dvd haj (by omega) hjlt
      exact isRepresentable_of_le hmul (by omega)
  · rw [h.eq_of_dvd (Int.dvd_add ((pow_dvd_pow 2 hkg).trans hag) ((pow_dvd_pow 2 hkg).trans hbg)),
      add_sub_cancel_left]
    exact hb

/-- A sum is rounded to the side of the greater summand. -/
theorem natAbs_gained_lt {n : ℕ} (h : IsRoundedTo k (a + b) r) (hle : b.natAbs ≤ a.natAbs)
    (ha : a.natAbs < n) (hr : r.natAbs < n) : (r - a).natAbs < n := by
  have hzero := h.natAbs_sub_le isRepresentable_zero
  omega

end IsRoundedTo

/-- What the rounded sum of two numbers lacks, found by taking the greater one off first. -/
def lost (x y : Binary64) : Binary64 :=
  if isSmaller x y then sub x (sub (add x y) y) else sub y (sub (add x y) x)

theorem lost_of_le {big small : Binary64} (hbig : big.isFinite = true)
    (hsmall : small.isFinite = true) (hle : small.units.natAbs ≤ big.units.natAbs)
    (hhigh : (big.add small).isFinite = true) :
    (small.sub ((big.add small).sub big)).isFinite = true
      ∧ (small.sub ((big.add small).sub big)).units
        = big.units + small.units - (big.add small).units := by
  obtain ⟨k, hk⟩ := exists_isRoundedTo_add hbig hsmall hhigh
  have hbigrep := isRepresentable_units hbig
  have hsmallrep := isRepresentable_units hsmall
  have hbiglt := natAbs_units_add_le hbig
  have hhighlt := natAbs_units_add_le hhigh
  obtain ⟨hgain, hgainunits⟩ := sub_exact hhigh hbig
    (hk.isRepresentable_gained hbigrep hsmallrep hle)
    (hk.natAbs_gained_lt hle (by omega) (by omega))
  have hlost : small.units - ((big.add small).sub big).units
      = big.units + small.units - (big.add small).units := by
    rw [hgainunits]
    ring
  have hnear := hk.natAbs_sub_le hbigrep
  rw [← hlost]
  refine sub_exact hsmall hgain ?_ ?_
  · rw [hlost]
    exact hk.isRepresentable_lost hbigrep hsmallrep hle
  · omega

/-- The rounded sum and what it lacks are the exact sum. -/
theorem lost_eq (hx : x.isFinite = true) (hy : y.isFinite = true)
    (hsum : (x.add y).isFinite = true) :
    (lost x y).isFinite = true ∧ (lost x y).units = x.units + y.units - (x.add y).units := by
  have hsmaller : isSmaller x y = true ∧ x.units.natAbs ≤ y.units.natAbs
      ∨ isSmaller x y = false ∧ y.units.natAbs ≤ x.units.natAbs := by
    obtain ⟨s, p, rfl⟩ := exists_eq_finite hx
    obtain ⟨t, q, rfl⟩ := exists_eq_finite hy
    have hp : (units (finite s p)).natAbs = unitsAt p := by
      cases s <;> simp [units]
    have hq : (units (finite t q)).natAbs = unitsAt q := by
      cases t <;> simp [units]
    rw [isSmaller, decide_eq_true_eq, decide_eq_false_iff_not, hp, hq]
    rcases Nat.lt_or_ge p.val q.val with hlt | hge
    · exact Or.inl ⟨hlt, unitsAt_le (Nat.le_of_lt hlt)⟩
    · exact Or.inr ⟨Nat.not_lt.2 hge, unitsAt_le hge⟩
  rw [lost]
  rcases hsmaller with ⟨hlt, hle⟩ | ⟨hge, hle⟩
  · rw [if_pos hlt, Int.add_comm]
    rw [add_comm] at hsum ⊢
    exact lost_of_le hy hx hle hsum
  · rw [hge, if_neg Bool.false_ne_true]
    exact lost_of_le hx hy hle hsum

/-! ### Expansions -/

/-- The second number is a multiple of a power of two that exceeds the first: its digits are in
front of those of the first. -/
def IsBelow (a b : Binary64) : Prop := 2 ^ a.units.natAbs.size ∣ b.units

theorem IsBelow.of_lt {a b : Binary64} {k : ℕ} (ha : a.units.natAbs < 2 ^ k)
    (hb : 2 ^ k ∣ b.units) :
    IsBelow a b := (pow_dvd_pow 2 (Nat.size_le.2 ha)).trans hb

theorem exactUnits_cons (x : Binary64) (xs : List Binary64) :
    exactUnits (x :: xs) = x.units + exactUnits xs := rfl

theorem exactUnits_append (xs ys : List Binary64) :
    exactUnits (xs ++ ys) = exactUnits xs + exactUnits ys := by
  induction xs with
  | nil => exact (Int.zero_add _).symm
  | cons x xs ih => rw [List.cons_append, exactUnits_cons, exactUnits_cons, ih, Int.add_assoc]

theorem exactUnits_concat (xs : List Binary64) (x : Binary64) :
    exactUnits (xs ++ [x]) = exactUnits xs + x.units := by
  rw [exactUnits_append, exactUnits_cons]
  exact congrArg _ (Int.add_zero _)

theorem dvd_exactUnits {xs : List Binary64} {d : ℤ} (h : ∀ x ∈ xs, d ∣ x.units) :
    d ∣ exactUnits xs := by
  induction xs with
  | nil => exact dvd_zero d
  | cons x xs ih =>
    rw [List.forall_mem_cons] at h
    exact Int.dvd_add h.1 (ih h.2)

/-- Numbers whose digits do not overlap add up to less than any power of two above all of them. -/
theorem natAbs_exactUnits_lt {xs : List Binary64} {k : ℕ} (h : xs.Pairwise IsBelow)
    (hlt : ∀ x ∈ xs, x.units.natAbs < 2 ^ k) : (exactUnits xs).natAbs < 2 ^ k := by
  induction xs with
  | nil => exact Nat.pow_pos (by decide)
  | cons x xs ih =>
    rw [List.pairwise_cons] at h
    rw [List.forall_mem_cons] at hlt
    have hrest := ih h.2 hlt.2
    have hgap := natAbs_add_le_of_dvd (dvd_exactUnits h.1) (Nat.size_le.2 hlt.1) hrest
    have hself := Nat.lt_size_self x.units.natAbs
    rw [exactUnits_cons]
    omega

/-- The numbers are finite, and each has its digits in front of those before it. -/
structure IsExpansion (xs : List Binary64) : Prop where
  isFinite : ∀ x ∈ xs, x.isFinite = true
  isBelow : xs.Pairwise IsBelow

theorem isFinite_add_of_not {x : Binary64} (y : Binary64) (h : x.isFinite = false) :
    (x.add y).isFinite = false := by
  match x, y with
  | .nan, _ => rfl
  | .infinite _, .nan => rfl
  | .infinite s, .infinite t => cases s <;> cases t <;> rfl
  | .infinite _, .finite .. => rfl

theorem carry_cons (x y : Binary64) (ys : List Binary64) :
    carry x (y :: ys) = (if (lost x y).isZero then (carry (add x y) ys).1
      else lost x y :: (carry (add x y) ys).1, (carry (add x y) ys).2) := by
  rw [carry, lost]
  cases isSmaller x y with
  | true =>
    simp only [if_true, add_comm y x]
  | false => rfl

/-- What is not finite does not become finite by what it is added to. -/
theorem isFinite_of_carry {x : Binary64} {ys : List Binary64}
    (h : (carry x ys).2.isFinite = true) : x.isFinite = true := by
  induction ys generalizing x with
  | nil => exact h
  | cons y ys ih =>
    by_contra hx
    rw [Bool.not_eq_true] at hx
    rw [carry_cons] at h
    have hsum := ih h
    rw [isFinite_add_of_not y hx] at hsum
    cases hsum

theorem isFinite_of_isZero {x : Binary64} (h : x.isZero = true) : x.isFinite = true := by
  cases x with
  | finite => rfl
  | nan | infinite => cases h

theorem units_of_isZero {x : Binary64} (h : x.isZero = true) : x.units = 0 := by
  match x, h with
  | .finite s p, h =>
    have hp : p.val = 0 := by simpa [isZero] using h
    cases s <;> simp [units, hp, unitsAt]

/-- What carrying a number through an expansion makes of it, if no total on the way is too great:
an expansion again, with the same exact sum. -/
structure IsCarried (x : Binary64) (ys low : List Binary64) (top : Binary64) : Prop where
  isExpansion : IsExpansion (low ++ [top])
  exactUnits_eq : exactUnits (low ++ [top]) = x.units + exactUnits ys
  dvd : ∀ k : ℕ, 2 ^ k ∣ x.units → (∀ y ∈ ys, 2 ^ k ∣ y.units) → ∀ z ∈ low ++ [top], 2 ^ k ∣ z.units
  /-- A double is rounded by half a unit in its last place at most. -/
  small : ∀ z ∈ low, z.units.natAbs ≤ 2 ^ 2044

/-- A zero that is left over may be left out. -/
theorem IsCarried.of_isZero {x z top : Binary64} {ys low : List Binary64}
    (h : IsCarried x ys (z :: low) top) (hz : z.isZero = true) : IsCarried x ys low top := by
  have hunits : z.units = 0 := units_of_isZero hz
  refine ⟨⟨fun w hw => h.isExpansion.isFinite w (List.mem_cons_of_mem z hw),
    h.isExpansion.isBelow.of_cons⟩, ?_, fun k hx hys w hw => ?_, fun w hw => ?_⟩
  · rw [← h.exactUnits_eq, List.cons_append, exactUnits_cons, hunits, Int.zero_add]
  · exact h.dvd k hx hys w (List.mem_cons_of_mem z hw)
  · exact h.small w (List.mem_cons_of_mem z hw)

/-- One more term is added at the bottom of an expansion that is carried already. -/
theorem IsCarried.cons {x y top : Binary64} {ys low : List Binary64} (hx : x.isFinite = true)
    (hy : y.isFinite = true) (hys : ∀ z ∈ ys, IsBelow y z) (hsum : (x.add y).isFinite = true)
    (h : IsCarried (x.add y) ys low top) : IsCarried x (y :: ys) (lost x y :: low) top := by
  obtain ⟨hlost, hunits⟩ := lost_eq hx hy hsum
  obtain ⟨k, hk⟩ := exists_isRoundedTo_add hx hy hsum
  have hsumle := natAbs_units_add_le hsum
  have hpos : 0 < 2 ^ k := Nat.pow_pos (by decide)
  have hhalf := hk.near
  have hnear := hk.natAbs_sub_le (isRepresentable_units hx)
  -- what is lost is below the sum, and it is not greater than the term, which is below the others
  have hlostsum : IsBelow (lost x y) (x.add y) := by
    refine .of_lt ?_ hk.dvd
    omega
  have hlostys : ∀ z ∈ ys, IsBelow (lost x y) z := by
    intro z hz
    refine .of_lt (Nat.lt_of_le_of_lt ?_ (Nat.lt_size_self _)) (hys z hz)
    omega
  refine ⟨⟨List.forall_mem_cons.2 ⟨hlost, h.isExpansion.isFinite⟩,
    List.pairwise_cons.2 ⟨h.dvd _ hlostsum hlostys, h.isExpansion.isBelow⟩⟩, ?_, ?_, ?_⟩
  · rw [List.cons_append, exactUnits_cons, h.exactUnits_eq, exactUnits_cons, hunits]
    ring
  · intro j hjx hjys
    rw [List.forall_mem_cons] at hjys
    have hjsum : (2 : ℤ) ^ j ∣ (x.add y).units := hk.dvd_of_dvd (Int.dvd_add hjx hjys.1)
    refine List.forall_mem_cons.2 ⟨?_, h.dvd j hjsum hjys.2⟩
    rw [hunits]
    exact Int.dvd_sub (Int.dvd_add hjx hjys.1) hjsum
  · refine List.forall_mem_cons.2 ⟨?_, h.small⟩
    rcases hk.two_pow_le_rounded with rfl | hle
    · omega
    · have hk' : 52 + k < 2098 := (Nat.pow_lt_pow_iff_right (a := 2) (by decide)).1 (by omega)
      have hpow : 2 ^ k ≤ 2 ^ 2045 := pow_le_pow_right₀ (by decide) (by omega)
      omega

theorem isCarried {x : Binary64} {ys : List Binary64} (hx : x.isFinite = true)
    (hys : IsExpansion ys) (htop : (carry x ys).2.isFinite = true) :
    IsCarried x ys (carry x ys).1 (carry x ys).2 := by
  induction ys generalizing x with
  | nil =>
    exact ⟨⟨List.forall_mem_singleton.2 hx, List.pairwise_singleton _ _⟩, rfl,
      fun k hk _ => List.forall_mem_singleton.2 hk, fun z hz => absurd hz List.not_mem_nil⟩
  | cons y ys ih =>
    obtain ⟨hy, hysfinite⟩ := List.forall_mem_cons.1 hys.isFinite
    obtain ⟨hybelow, hysbelow⟩ := List.pairwise_cons.1 hys.isBelow
    rw [carry_cons] at htop ⊢
    have hsum := isFinite_of_carry htop
    have hcons := (ih hsum ⟨hysfinite, hysbelow⟩ htop).cons hx hy hybelow hsum
    split
    · rename_i hzero
      exact hcons.of_isZero hzero
    · exact hcons

theorem carry_append_singleton_snd (x y : Binary64) (ys : List Binary64) :
    (carry x (ys ++ [y])).2 = (carry x ys).2.add y := by
  induction ys generalizing x with
  | nil => rw [List.nil_append, carry_cons, carry, carry]
  | cons z ys ih => rw [List.cons_append, carry_cons, carry_cons, ih]

/-- Numbers that are left over add up to less than a unit in the last place of the greatest
double. -/
theorem IsExpansion.natAbs_exactUnits_lt {zs : List Binary64} (h : IsExpansion zs)
    (hsmall : ∀ z ∈ zs, z.units.natAbs ≤ 2 ^ 2044) : (exactUnits zs).natAbs < 2 ^ 2045 := by
  refine Binary64.natAbs_exactUnits_lt h.isBelow fun z hz => ?_
  have hle := hsmall z hz
  omega

theorem IsExpansion.left {xs ys : List Binary64} (h : IsExpansion (xs ++ ys)) : IsExpansion xs :=
  ⟨fun x hx => h.isFinite x (List.mem_append_left ys hx), (List.pairwise_append.1 h.isBelow).1⟩

/-- If no exact total on the way comes near the end of the finite numbers, no rounded one leaves
them. -/
theorem isFinite_carry {x : Binary64} {ys : List Binary64} (hx : x.isFinite = true)
    (hys : IsExpansion ys)
    (hle : ∀ zs, zs <+: ys → (x.units + exactUnits zs).natAbs + 2 ^ 2046 ≤ 2 ^ 2098) :
    (carry x ys).2.isFinite = true := by
  induction ys using List.reverseRecOn with
  | nil => exact hx
  | append_singleton ys y ih =>
    have htop := ih hys.left fun zs hzs => hle zs (hzs.trans (List.prefix_append ys [y]))
    have hcarried := isCarried hx hys.left htop
    have hlow := hcarried.isExpansion.left.natAbs_exactUnits_lt hcarried.small
    have htotal := hcarried.exactUnits_eq
    have hall := hle (ys ++ [y]) (List.prefix_refl _)
    rw [exactUnits_concat] at htotal hall
    rw [carry_append_singleton_snd]
    refine isFinite_add htop (hys.isFinite y (by simp)) ?_
    omega

namespace Tally

/-- The expansion of a tally holds a total: it is its exact sum, and all its terms but the greatest
are what was left over in rounding. -/
structure Holds (t : Tally) (total : ℤ) : Prop where
  isExpansion : IsExpansion t.expansion
  exactUnits_eq : exactUnits t.expansion = total
  small : ∀ z ∈ t.expansion.dropLast, z.units.natAbs ≤ 2 ^ 2044

variable {t t' : Tally} {total : ℤ} {x : Binary64}

/-- A total that is held is less than `2 ^ 1024`. -/
theorem Holds.natAbs_lt (h : t.Holds total) : total.natAbs < 2 ^ 2098 := by
  obtain ⟨hexpansion, rfl, hsmall⟩ := h
  generalize t.expansion = zs at hexpansion hsmall ⊢
  cases zs using List.reverseRecOn with
  | nil =>
    show (0 : ℤ).natAbs < 2 ^ 2098
    omega
  | append_singleton zs z =>
    rw [List.dropLast_concat] at hsmall
    have hrest := hexpansion.left.natAbs_exactUnits_lt hsmall
    have hlast := natAbs_units_add_le (hexpansion.isFinite z (by simp))
    rw [exactUnits_concat]
    omega

theorem holds_zero (infinities specials : Binary64) : Holds ⟨[], infinities, specials⟩ 0 :=
  ⟨⟨fun _ h => absurd h List.not_mem_nil, List.Pairwise.nil⟩, rfl,
    fun _ h => absurd h List.not_mem_nil⟩

/-- A number that is not finite ends the total. -/
theorem push_of_not_finite (t : Tally) (hx : x.isFinite = false) :
    t.push x = .ok ⟨[], if x = .nan then t.infinities else t.infinities.add x,
      t.specials.add x⟩ := by
  have htop : (carry x t.expansion).2.isFinite = false := by
    by_contra h
    rw [Bool.not_eq_false] at h
    rw [isFinite_of_carry h] at hx
    cases hx
  rw [push]
  generalize carry x t.expansion = r at htop
  obtain ⟨low, top⟩ := r
  dsimp only at htop ⊢
  rw [htop, hx, if_neg Bool.false_ne_true, if_neg Bool.false_ne_true]

/-- A finite number is added to the total. -/
theorem Holds.grown (h : t.Holds total) (hx : x.isFinite = true)
    (htop : (carry x t.expansion).2.isFinite = true) : (t.grown x).Holds (total + x.units) := by
  have hcarried := isCarried hx h.isExpansion htop
  have htotal := hcarried.exactUnits_eq
  rw [h.exactUnits_eq] at htotal
  cases hzero : (carry x t.expansion).2.isZero with
  | true =>
    have hgrown : (t.grown x).expansion = (carry x t.expansion).1 := if_pos hzero
    rw [exactUnits_concat, units_of_isZero hzero] at htotal
    constructor
    · rw [hgrown]
      exact hcarried.isExpansion.left
    · rw [hgrown]
      omega
    · rw [hgrown]
      exact fun z hz => hcarried.small z (List.dropLast_subset _ hz)
  | false =>
    have hgrown : (t.grown x).expansion
        = (carry x t.expansion).1 ++ [(carry x t.expansion).2] := by
      rw [Tally.grown, hzero]
      rfl
    constructor
    · rw [hgrown]
      exact hcarried.isExpansion
    · rw [hgrown, htotal, Int.add_comm]
    · rw [hgrown, List.dropLast_concat]
      exact hcarried.small

/-- A number and a total that stay within `2 ^ 1023` do not lead out of the finite numbers. -/
theorem Holds.isFinite_carry (h : t.Holds total) (hx : x.isFinite = true)
    (hxle : x.units.natAbs ≤ 2 ^ 2097) (hle : (total + x.units).natAbs ≤ 2 ^ 2097) :
    (carry x t.expansion).2.isFinite = true := by
  obtain ⟨hexpansion, rfl, hsmall⟩ := h
  refine Binary64.isFinite_carry hx hexpansion fun zs hzs => ?_
  have hx' : ∀ u : ℤ, u.natAbs < 2 ^ 2045 → (x.units + u).natAbs + 2 ^ 2046 ≤ 2 ^ 2098 := by
    intro u hu
    omega
  generalize t.expansion = ys at hexpansion hle hsmall hzs
  cases ys using List.reverseRecOn with
  | nil =>
    obtain rfl := List.prefix_nil.1 hzs
    exact hx' 0 (by omega)
  | append_singleton ys y =>
    rw [List.dropLast_concat] at hsmall
    rcases List.prefix_concat_iff.1 hzs with rfl | hzs
    · omega
    · -- what was left over does not matter beside the number
      obtain ⟨ws, rfl⟩ := hzs
      exact hx' _ (hexpansion.left.left.natAbs_exactUnits_lt fun z hz =>
        hsmall z (List.mem_append_left ws hz))

end Tally

end Trialnet.Binary64
