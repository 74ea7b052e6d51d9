import Mathlib.Algebra.BigOperators.Group.List.Basic
import Trialnet.Proofs.Binary64.Magnitude

/-!
# Totals without the order of the summands

A summation goes through its numbers one after the other, and whether it comes to an end may depend
on their order.  What it ends with does not.  `IsTotal` says what the total is without going
through the numbers: they are finite, and it is the double nearest to their exact sum; or there are
infinities of one sign among them, or a NaN.  A total is all of this (`isTotal_of_sum`), and two
orders of the same numbers have one total at most (`sum_eq_of_perm`).
-/

namespace Trialnet.Binary64

variable {xs ys : List Binary64} {total total' : Binary64}

/-- What numbers add up to, in any order. -/
inductive IsTotal (xs : List Binary64) : Binary64 → Prop where
  | finite (finite : ∀ x ∈ xs, x.isFinite = true) : IsTotal xs (ofUnits (exactUnits xs))
  | infinite {s : Bool} (mem : Binary64.infinite s ∈ xs) (unopposed : Binary64.infinite (!s) ∉ xs)
    (numbers : Binary64.nan ∉ xs) : IsTotal xs (.infinite s)
  | nan (mem : Binary64.nan ∈ xs) : IsTotal xs .nan

/-! ### Infinities and NaNs on the way -/

namespace Tally

variable {t t' : Tally}

theorem specials_push_of_eq_nan {x : Binary64} (hpush : t.push x = .ok t')
    (h : t.specials = .nan) : t'.specials = .nan := by
  cases hx : x.isFinite with
  | true => rw [specials_push hx hpush, h]
  | false =>
    obtain rfl := Except.ok.inj ((t.push_of_not_finite hx).symm.trans hpush)
    show t.specials.add x = .nan
    rw [h, add]

/-- A NaN stays. -/
theorem specials_foldlM_of_eq_nan (hfold : xs.foldlM Tally.push t = .ok t')
    (h : t.specials = .nan) : t'.specials = .nan := by
  induction xs generalizing t with
  | nil => rw [← Except.ok.inj hfold, h]
  | cons x xs ih =>
    rw [List.foldlM_cons] at hfold
    obtain ⟨u, hu, hfold⟩ := bind_eq_ok.1 hfold
    exact ih hfold (specials_push_of_eq_nan hu h)

/-- Before the first NaN the sum of the special values is that of the infinities. -/
theorem specials_push_of_eq_infinities {x : Binary64} (hpush : t.push x = .ok t')
    (hx : x ≠ .nan) (h : t.specials = t.infinities) : t'.specials = t'.infinities := by
  cases hfinite : x.isFinite with
  | true =>
    obtain ⟨-, rfl⟩ := (push_eq_ok hfinite).1 hpush
    exact h
  | false =>
    obtain rfl := Except.ok.inj ((t.push_of_not_finite hfinite).symm.trans hpush)
    show t.specials.add x = if x = .nan then t.infinities else t.infinities.add x
    rw [if_neg hx, h]

theorem specials_push_nan (hpush : t.push .nan = .ok t') : t'.specials = .nan := by
  obtain rfl := Except.ok.inj ((t.push_of_not_finite (x := .nan) rfl).symm.trans hpush)
  show t.specials.add .nan = .nan
  cases t.specials <;> rfl

/-- The sum of the special values is a NaN from the first NaN on, and otherwise that of the
infinities. -/
theorem specials_foldlM_eq (hfold : xs.foldlM Tally.push t = .ok t')
    (h : t.specials = t.infinities) :
    t'.specials = if Binary64.nan ∈ xs then .nan else t'.infinities := by
  induction xs generalizing t with
  | nil =>
    obtain rfl := Except.ok.inj hfold
    rw [if_neg List.not_mem_nil, h]
  | cons x xs ih =>
    rw [List.foldlM_cons] at hfold
    obtain ⟨u, hu, hrest⟩ := bind_eq_ok.1 hfold
    by_cases hx : x = .nan
    · subst hx
      rw [if_pos List.mem_cons_self, specials_foldlM_of_eq_nan hrest (specials_push_nan hu)]
    · have hmem : Binary64.nan ∈ x :: xs ↔ Binary64.nan ∈ xs := by
        rw [List.mem_cons, or_iff_right (fun heq => hx heq.symm)]
      rw [ih hrest (specials_push_of_eq_infinities hu hx h)]
      simp only [hmem]

end Tally

/-! ### The total -/

/-- The infinity that is left over is the only one among the numbers. -/
theorem isTotal_infinities {t : Tally} (hfold : xs.foldlM Tally.push ⟨[], zero, zero⟩ = .ok t)
    (hnan : Binary64.nan ∉ xs) {s : Bool} (h : t.infinities = .infinite s) :
    IsTotal xs (.infinite s) := by
  have hmeets : ∀ r, t.Meets r ↔ Binary64.infinite r ∈ xs := by
    intro r
    rw [Tally.meets_foldlM hfold]
    simp [Tally.Meets, zero, signedZero]
  refine .infinite ((hmeets s).1 (Or.inr h)) (fun hmem => ?_) hnan
  have hopposed := (hmeets (!s)).2 hmem
  rw [Tally.Meets, h] at hopposed
  cases s <;> simp at hopposed

theorem isTotal_of_sum (h : sum xs = .ok total) : IsTotal xs total := by
  rw [sum] at h
  obtain ⟨t, hfold, h⟩ := bind_eq_ok.1 h
  have hspecials := Tally.specials_foldlM_eq hfold rfl
  split at h
  · -- no special value has been added
    rename_i hzero
    obtain rfl := Except.ok.inj h
    exact .finite (Tally.isFinite_of_specials_foldlM hfold (isFinite_of_isZero hzero)).2
  · rename_i hzero
    split at h
    · cases h
    · rename_i hunopposed
      obtain rfl := Except.ok.inj h
      by_cases hnan : Binary64.nan ∈ xs
      · rw [hspecials, if_pos hnan]
        exact .nan hnan
      · rw [if_neg hnan] at hspecials
        rw [hspecials]
        cases hinfinities : t.infinities with
        | nan => exact absurd hinfinities hunopposed
        | infinite s => exact isTotal_infinities hfold hnan hinfinities
        | finite s p =>
          -- then all numbers were finite, and nothing special has been added
          have hfinite : t.specials.isFinite = true := by rw [hspecials, hinfinities]; rfl
          have hxs := (Tally.isFinite_of_specials_foldlM hfold hfinite).2
          rw [Tally.specials_foldlM hxs hfold] at hzero
          exact absurd rfl hzero

theorem exactUnits_eq_sum (xs : List Binary64) : exactUnits xs = (xs.map units).sum := by
  rw [exactUnits, List.sum, List.foldr_map]

theorem IsTotal.perm (h : IsTotal xs total) (hperm : xs.Perm ys) : IsTotal ys total := by
  cases h with
  | finite hfinite =>
    have hunits : exactUnits xs = exactUnits ys := by
      rw [exactUnits_eq_sum, exactUnits_eq_sum, (hperm.map units).sum_eq]
    rw [hunits]
    exact .finite fun x hx => hfinite x (hperm.symm.subset hx)
  | infinite hmem hunopposed hnumbers =>
    exact .infinite (hperm.subset hmem) (fun h => hunopposed (hperm.symm.subset h))
      (fun h => hnumbers (hperm.symm.subset h))
  | nan hmem => exact .nan (hperm.subset hmem)

theorem IsTotal.unique (h : IsTotal xs total) (h' : IsTotal xs total') : total = total' := by
  cases h with
  | finite hfinite =>
    cases h' with
    | finite => rfl
    | infinite hmem => cases hfinite _ hmem
    | nan hmem => cases hfinite _ hmem
  | @infinite s hmem hunopposed hnumbers =>
    cases h' with
    | finite hfinite => cases hfinite _ hmem
    | @infinite r hmem' =>
      by_cases hsign : r = s
      · rw [hsign]
      · rw [Bool.eq_not.2 hsign] at hmem'
        exact absurd hmem' hunopposed
    | nan hmem' => exact absurd hmem' hnumbers
  | nan hmem =>
    cases h' with
    | finite hfinite => cases hfinite _ hmem
    | infinite _ _ hnumbers => exact absurd hmem hnumbers
    | nan => rfl

/-- Numbers that can be added up in two orders have one total. -/
theorem sum_eq_of_perm (hperm : xs.Perm ys) (hxs : sum xs = .ok total) (hys : sum ys = .ok total') :
    total = total' :=
  ((isTotal_of_sum hxs).perm hperm).unique (isTotal_of_sum hys)

end Trialnet.Binary64
