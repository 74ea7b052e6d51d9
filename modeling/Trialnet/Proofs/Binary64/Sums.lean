import Trialnet.Proofs.Payload.Success
import Trialnet.Binary64.Sum

/-!
# Sums and comparisons of finite numbers

Among finite numbers the order is that of their units, and a sum that exists is the double
nearest to the exact sum: no infinity or NaN can enter a running total unless a summand brings
it in, since a total that overflows ends the summation.
-/

namespace Trialnet.Binary64

theorem exists_eq_finite {x : Binary64} (h : x.isFinite = true) : ∃ s p, x = .finite s p := by
  cases x with
  | nan => cases h
  | infinite s => cases h
  | finite s p => exact ⟨s, p, rfl⟩

/-! ### Comparisons -/

theorem lt_eq_decide {x y : Binary64} (hx : x.isFinite = true) (hy : y.isFinite = true) :
    x.lt y = decide (x.units < y.units) := by
  obtain ⟨s, p, rfl⟩ := exists_eq_finite hx
  obtain ⟨t, q, rfl⟩ := exists_eq_finite hy
  rfl

theorem le_iff {x y : Binary64} (hx : x.isFinite = true) (hy : y.isFinite = true) :
    x.le y = true ↔ x.units ≤ y.units := by
  rw [le, Bool.or_eq_true, lt_eq_decide hx hy, decide_eq_true_eq, Int.le_iff_lt_or_eq]
  obtain ⟨s, p, rfl⟩ := exists_eq_finite hx
  obtain ⟨t, q, rfl⟩ := exists_eq_finite hy
  rw [sameValue, decide_eq_true_eq]

/-- A number between two finite ones is finite. -/
theorem isFinite_of_lt_of_le {x y z : Binary64} (hx : x.isFinite = true) (hz : z.isFinite = true)
    (hlt : x.lt y = true) (hle : y.le z = true) : y.isFinite = true := by
  obtain ⟨s, p, rfl⟩ := exists_eq_finite hx
  obtain ⟨t, q, rfl⟩ := exists_eq_finite hz
  cases y with
  | nan => cases hlt
  | finite => rfl
  | infinite u =>
    -- an infinity above the lower bound is positive, and then not below the upper one
    cases u with
    | true => cases hlt
    | false => cases hle

/-! ### Sums -/

/-- The tally after a finite number has been carried through its expansion. -/
def Tally.grown (t : Tally) (x : Binary64) : Tally :=
  { t with expansion := if (carry x t.expansion).2.isZero then (carry x t.expansion).1
      else (carry x t.expansion).1 ++ [(carry x t.expansion).2] }

/-- A finite summand is carried through the expansion, or its rounded total is not finite. -/
theorem Tally.push_of_isFinite (t : Tally) {x : Binary64} (hx : x.isFinite = true) :
    t.push x = if (carry x t.expansion).2.isFinite then .ok (t.grown x) else .error .overflow := by
  rw [push, hx]
  rfl

theorem Tally.push_eq_ok {t t' : Tally} {x : Binary64} (hx : x.isFinite = true) :
    t.push x = .ok t' ↔ (carry x t.expansion).2.isFinite = true ∧ t.grown x = t' := by
  rw [t.push_of_isFinite hx]
  split
  · rename_i htop
    exact ⟨fun h => ⟨htop, Except.ok.inj h⟩, fun h => congrArg _ h.2⟩
  · rename_i htop
    constructor
    · intro h
      cases h
    · exact fun h => absurd h.1 htop

/-- A finite summand leaves the infinities and NaNs of the running total alone. -/
theorem Tally.specials_push {t t' : Tally} {x : Binary64} (hx : x.isFinite = true)
    (h : t.push x = .ok t') : t'.specials = t.specials := by
  rw [← ((push_eq_ok hx).1 h).2, grown]

theorem Tally.specials_foldlM {xs : List Binary64} {t t' : Tally}
    (hxs : ∀ x ∈ xs, x.isFinite = true) (h : xs.foldlM push t = .ok t') :
    t'.specials = t.specials := by
  induction xs generalizing t with
  | nil =>
    rw [Except.ok.inj h]
  | cons x xs ih =>
    rw [List.foldlM_cons] at h
    obtain ⟨u, hu, h⟩ := bind_eq_ok.1 h
    rw [ih (fun y hy => hxs y (by simp [hy])) h, specials_push (hxs x (by simp)) hu]

/-- The sum of finite numbers, if there is one, is the double nearest to their exact sum. -/
theorem eq_ofUnits_of_sum {xs : List Binary64} {total : Binary64}
    (hxs : ∀ x ∈ xs, x.isFinite = true) (h : sum xs = .ok total) :
    total = ofUnits (exactUnits xs) := by
  rw [sum] at h
  obtain ⟨t, ht, h⟩ := bind_eq_ok.1 h
  have hzero : t.specials.isZero = true := by
    rw [Tally.specials_foldlM hxs ht]
    rfl
  rw [if_pos hzero] at h
  exact (Except.ok.inj h).symm

end Trialnet.Binary64
