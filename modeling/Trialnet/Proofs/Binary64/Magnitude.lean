import Trialnet.Proofs.Binary64.Expansions

/-!
# Sums that exist

A summation breaks off for one reason: the rounded total of finite numbers is not finite any more.
The exact totals on the way tell whether this happens, however many summands there are.  With
numbers and totals within `2 ^ 1023` there is a sum (`IsModerate.exists_sum`), unless both
infinities occur, which are found at the end (`exists_sum_eq_error`); with one of `2 ^ 1024` there
is none (`sum_eq_overflow`).
-/

namespace Trialnet.Binary64

/-! ### Running totals -/

/-- The exact totals while numbers are added up, in units.  A number that is not finite begins a
new total. -/
def runningTotals (total : ℤ) : List Binary64 → List ℤ
  | [] => []
  | x :: xs =>
    if x.isFinite then (total + x.units) :: runningTotals (total + x.units) xs
    else runningTotals 0 xs

namespace Tally

variable {t t' : Tally} {total : ℤ} {xs : List Binary64}

/-- A list is added up if its numbers and its running totals stay within `2 ^ 1023`. -/
theorem Holds.exists_foldlM (h : t.Holds total)
    (hxs : ∀ x ∈ xs, x.isFinite = true → x.units.natAbs ≤ 2 ^ 2097)
    (htotals : ∀ u ∈ runningTotals total xs, u.natAbs ≤ 2 ^ 2097) :
    ∃ t', xs.foldlM Tally.push t = .ok t' := by
  induction xs generalizing t total with
  | nil => exact ⟨t, rfl⟩
  | cons x xs ih =>
    rw [List.forall_mem_cons] at hxs
    rw [runningTotals] at htotals
    rw [List.foldlM_cons]
    cases hx : x.isFinite with
    | true =>
      rw [hx, if_pos rfl, List.forall_mem_cons] at htotals
      have htop := h.isFinite_carry hx (hxs.1 hx) htotals.1
      rw [(push_eq_ok hx).2 ⟨htop, rfl⟩]
      exact ih (h.grown hx htop) hxs.2 htotals.2
    | false =>
      rw [hx, if_neg Bool.false_ne_true] at htotals
      rw [t.push_of_not_finite hx]
      exact ih (holds_zero _ _) hxs.2 htotals

/-- Where a list is added up, its running totals are less than `2 ^ 1024`. -/
theorem Holds.natAbs_lt_of_foldlM (h : t.Holds total) (hfold : xs.foldlM Tally.push t = .ok t') :
    ∀ u ∈ runningTotals total xs, u.natAbs < 2 ^ 2098 := by
  induction xs generalizing t total with
  | nil => exact fun u hu => absurd hu List.not_mem_nil
  | cons x xs ih =>
    rw [List.foldlM_cons] at hfold
    obtain ⟨u, hu, hfold⟩ := bind_eq_ok.1 hfold
    rw [runningTotals]
    cases hx : x.isFinite with
    | true =>
      obtain ⟨htop, rfl⟩ := (push_eq_ok hx).1 hu
      have hholds := h.grown hx htop
      rw [if_pos rfl, List.forall_mem_cons]
      exact ⟨hholds.natAbs_lt, ih hholds hfold⟩
    | false =>
      obtain rfl := Except.ok.inj (hu.symm.trans (t.push_of_not_finite hx))
      rw [if_neg Bool.false_ne_true]
      exact ih (holds_zero _ _) hfold

/-! ### Infinities -/

/-- An infinity of the sign has been added. -/
def Meets (t : Tally) (negative : Bool) : Prop :=
  t.infinities = .nan ∨ t.infinities = .infinite negative

theorem meets_push {x : Binary64} {s : Bool} (h : t.push x = .ok t') :
    t'.Meets s ↔ t.Meets s ∨ x = .infinite s := by
  rw [Meets, Meets]
  cases hx : x.isFinite with
  | true =>
    obtain ⟨-, rfl⟩ := (push_eq_ok hx).1 h
    obtain ⟨r, p, rfl⟩ := exists_eq_finite hx
    simp [grown]
  | false =>
    obtain rfl := Except.ok.inj ((t.push_of_not_finite hx).symm.trans h)
    cases x with
    | finite => cases hx
    | nan => simp
    | infinite r =>
      cases hinf : t.infinities with
      | nan => simp [add]
      | finite => simp [add]
      | infinite q => cases q <;> cases r <;> cases s <;> simp [add]

theorem meets_foldlM {s : Bool} (h : xs.foldlM Tally.push t = .ok t') :
    t'.Meets s ↔ t.Meets s ∨ .infinite s ∈ xs := by
  induction xs generalizing t with
  | nil =>
    obtain rfl := Except.ok.inj h
    simp
  | cons x xs ih =>
    rw [List.foldlM_cons] at h
    obtain ⟨u, hu, h⟩ := bind_eq_ok.1 h
    rw [ih h, meets_push hu, List.mem_cons, or_assoc, eq_comm]

/-- Both infinities have been added exactly if their sum is not a number. -/
theorem infinities_eq_nan_iff : t.infinities = .nan ↔ t.Meets true ∧ t.Meets false := by
  rw [Meets, Meets]
  cases t.infinities with
  | nan => simp
  | finite => simp
  | infinite s => cases s <;> simp

theorem isFinite_of_specials_push {x : Binary64} (h : t.push x = .ok t')
    (hfinite : t'.specials.isFinite = true) : t.specials.isFinite = true ∧ x.isFinite = true := by
  cases hx : x.isFinite with
  | true =>
    rw [specials_push hx h] at hfinite
    exact ⟨hfinite, rfl⟩
  | false =>
    obtain rfl := Except.ok.inj ((t.push_of_not_finite hx).symm.trans h)
    have hadd : (t.specials.add x).isFinite = true := hfinite
    rw [Binary64.add_comm, isFinite_add_of_not _ hx] at hadd
    cases hadd

/-- Nothing but finite numbers has been added if their sum is finite. -/
theorem isFinite_of_specials_foldlM (h : xs.foldlM Tally.push t = .ok t')
    (hfinite : t'.specials.isFinite = true) :
    t.specials.isFinite = true ∧ ∀ x ∈ xs, x.isFinite = true := by
  induction xs generalizing t with
  | nil =>
    obtain rfl := Except.ok.inj h
    exact ⟨hfinite, fun x hx => absurd hx List.not_mem_nil⟩
  | cons x xs ih =>
    rw [List.foldlM_cons] at h
    obtain ⟨u, hu, h⟩ := bind_eq_ok.1 h
    obtain ⟨hspecials, hxs⟩ := ih h
    obtain ⟨hspecials, hx⟩ := isFinite_of_specials_push hu hspecials
    exact ⟨hspecials, List.forall_mem_cons.2 ⟨hx, hxs⟩⟩

theorem eq_overflow_of_push {x : Binary64} {e : SumError} (h : t.push x = .error e) :
    e = .overflow := by
  cases hx : x.isFinite with
  | true =>
    rw [t.push_of_isFinite hx] at h
    split at h
    · cases h
    · exact (Except.error.inj h).symm
  | false =>
    rw [t.push_of_not_finite hx] at h
    cases h

/-- A summation breaks off for one reason only. -/
theorem eq_overflow_of_foldlM {e : SumError} (h : xs.foldlM Tally.push t = .error e) :
    e = .overflow := by
  induction xs generalizing t with
  | nil => cases h
  | cons x xs ih =>
    rw [List.foldlM_cons] at h
    cases hu : t.push x with
    | error e' =>
      rw [hu] at h
      obtain rfl := Except.error.inj h
      exact eq_overflow_of_push hu
    | ok u =>
      rw [hu] at h
      exact ih h

end Tally

/-! ### When there is a sum -/

variable {xs : List Binary64}

/-- The empty tally. -/
theorem holds_start : Tally.Holds ⟨[], zero, zero⟩ 0 := Tally.holds_zero zero zero

/-- Numbers that can be added up have a sum unless both infinities are among them. -/
theorem sum_of_foldlM {t : Tally} (h : xs.foldlM Tally.push ⟨[], zero, zero⟩ = .ok t) :
    if Binary64.infinite true ∈ xs ∧ Binary64.infinite false ∈ xs then
      sum xs = .error .opposedInfinities
    else ∃ total, sum xs = .ok total := by
  have hnan : t.infinities = .nan
      ↔ Binary64.infinite true ∈ xs ∧ Binary64.infinite false ∈ xs := by
    rw [Tally.infinities_eq_nan_iff, Tally.meets_foldlM h, Tally.meets_foldlM h]
    simp [Tally.Meets, zero, signedZero]
  have hsum : sum xs = if t.specials.isZero then .ok (ofUnits (exactUnits xs))
      else if t.infinities = .nan then .error .opposedInfinities else .ok t.specials := by
    rw [sum, h]
    rfl
  rw [hsum]
  split
  · rename_i hboth
    have hspecials : ¬ t.specials.isZero = true := by
      intro hzero
      obtain ⟨s, p, heq⟩ := exists_eq_finite (isFinite_of_isZero hzero)
      have hfinite := (Tally.isFinite_of_specials_foldlM h (isFinite_of_isZero hzero)).2 _ hboth.1
      cases hfinite
    rw [if_neg hspecials, if_pos (hnan.2 hboth)]
  · rename_i hboth
    split
    · exact ⟨_, rfl⟩
    · rw [if_neg (mt hnan.1 hboth)]
      exact ⟨_, rfl⟩

theorem two_pow_mul_unitsPerOne {k n : ℕ} (h : k + 1074 = n) : 2 ^ k * unitsPerOne = 2 ^ n := by
  rw [← h, pow_add, unitsPerOne_eq]

/-- The numbers and their running totals stay within `2 ^ 1023`, and the infinities among them have
one sign. -/
structure IsModerate (xs : List Binary64) : Prop where
  unopposed : ¬ (Binary64.infinite true ∈ xs ∧ Binary64.infinite false ∈ xs)
  number_le : ∀ x ∈ xs, x.isFinite = true → x.units.natAbs ≤ 2 ^ 1023 * unitsPerOne
  total_le : ∀ u ∈ runningTotals 0 xs, u.natAbs ≤ 2 ^ 1023 * unitsPerOne

theorem IsModerate.exists_sum (h : IsModerate xs) : ∃ total, sum xs = .ok total := by
  obtain ⟨hunopposed, hnumbers, htotals⟩ := h
  rw [two_pow_mul_unitsPerOne (show 1023 + 1074 = 2097 from rfl)] at hnumbers htotals
  obtain ⟨t, ht⟩ := holds_start.exists_foldlM hnumbers htotals
  have hsum := sum_of_foldlM ht
  rwa [if_neg hunopposed] at hsum

/-- A running total that reaches `2 ^ 1024` ends the summation. -/
theorem sum_eq_overflow {u : ℤ} (hu : u ∈ runningTotals 0 xs)
    (hle : 2 ^ 1024 * unitsPerOne ≤ u.natAbs) : sum xs = .error .overflow := by
  rw [two_pow_mul_unitsPerOne (show 1024 + 1074 = 2098 from rfl)] at hle
  cases hfold : xs.foldlM Tally.push ⟨[], zero, zero⟩ with
  | error e =>
    obtain rfl := Tally.eq_overflow_of_foldlM hfold
    rw [sum, hfold]
    rfl
  | ok t => exact absurd (holds_start.natAbs_lt_of_foldlM hfold u hu) (not_lt.2 hle)

theorem exists_sum_eq_error (hneg : Binary64.infinite true ∈ xs)
    (hpos : Binary64.infinite false ∈ xs) : ∃ e, sum xs = .error e := by
  cases hfold : xs.foldlM Tally.push ⟨[], zero, zero⟩ with
  | error e =>
    refine ⟨e, ?_⟩
    rw [sum, hfold]
    rfl
  | ok t =>
    have hsum := sum_of_foldlM hfold
    rw [if_pos ⟨hneg, hpos⟩] at hsum
    exact ⟨_, hsum⟩

/-! ### Numbers of one size -/

/-- A finite number of at most `2 ^ k` units, of either sign. -/
structure IsWithin (k : Nat) (x : Binary64) : Prop where
  isFinite : x.isFinite = true
  le : x.units.natAbs ≤ 2 ^ k

/-- A running total exceeds the one before it by one summand. -/
theorem natAbs_le_of_mem_runningTotals {k : ℕ} {total u : ℤ} (hxs : ∀ x ∈ xs, x.IsWithin k)
    (hu : u ∈ runningTotals total xs) : u.natAbs ≤ total.natAbs + xs.length * 2 ^ k := by
  induction xs generalizing total with
  | nil => cases hu
  | cons x xs ih =>
    obtain ⟨hx, hxs⟩ := List.forall_mem_cons.1 hxs
    have hle := hx.le
    have hlength : (x :: xs).length * 2 ^ k = xs.length * 2 ^ k + 2 ^ k := Nat.succ_mul _ _
    rw [runningTotals, hx.isFinite, if_pos rfl] at hu
    rcases List.mem_cons.1 hu with rfl | hu
    · omega
    · have hrest := ih hxs hu
      omega

/-- Numbers of one size have a sum if there are not too many of them. -/
theorem exists_sum {k : ℕ} (hxs : ∀ x ∈ xs, x.IsWithin k) (hlength : xs.length * 2 ^ k ≤ 2 ^ 2097) :
    ∃ total, sum xs = .ok total := by
  have hbound : 2 ^ 1023 * unitsPerOne = 2 ^ 2097 := two_pow_mul_unitsPerOne rfl
  refine IsModerate.exists_sum ⟨?_, ?_, ?_⟩
  · rintro ⟨hmem, -⟩
    cases (hxs _ hmem).isFinite
  · intro x hx _
    have hone := Nat.mul_le_mul_right (2 ^ k) (List.length_pos_of_mem hx)
    have hle := (hxs x hx).le
    rw [hbound]
    omega
  · intro u hu
    rw [hbound]
    exact (natAbs_le_of_mem_runningTotals hxs hu).trans ((Nat.zero_add _).trans_le hlength)

end Trialnet.Binary64
