import Mathlib.Data.List.Forall2
import Trialnet.EncodeError
import Trialnet.Payload.Record

/-!
# When encoding succeeds

An encoder is put together from readings of its numbers and from the encoders of its parts.  The
lemmas here say what it means that such a combination succeeds, one for each way to combine, so
that the success of a whole encoder comes down to that of its parts.
-/

namespace Trialnet

section Except

variable {ε ε' α β : Type}

theorem bind_eq_ok {x : Except ε α} {f : α → Except ε β} {b : β} :
    x >>= f = .ok b ↔ ∃ a, x = .ok a ∧ f a = .ok b := by
  cases x with
  | error e =>
    constructor
    · intro h
      cases h
    · rintro ⟨a, h, -⟩
      cases h
  | ok a => exact ⟨fun h => ⟨a, rfl, h⟩, fun ⟨_, h, hf⟩ => Except.ok.inj h ▸ hf⟩

theorem bind_eq_error {x : Except ε α} {f : α → Except ε β} {e : ε} :
    x >>= f = .error e ↔ x = .error e ∨ ∃ a, x = .ok a ∧ f a = .error e := by
  cases x with
  | error e' =>
    constructor
    · exact fun h => Or.inl (congrArg _ (Except.error.inj h))
    · rintro (h | ⟨a, h, -⟩)
      · exact congrArg _ (Except.error.inj h)
      · cases h
  | ok a =>
    constructor
    · exact fun h => Or.inr ⟨a, rfl, h⟩
    · rintro (h | ⟨a', h, hf⟩)
      · cases h
      · exact Except.ok.inj h ▸ hf

theorem map_eq_ok {x : Except ε α} {f : α → β} {b : β} :
    x.map f = .ok b ↔ ∃ a, x = .ok a ∧ f a = b := by
  cases x with
  | error e =>
    constructor
    · intro h
      cases h
    · rintro ⟨a, h, -⟩
      cases h
  | ok a =>
    refine ⟨fun h => ⟨a, rfl, Except.ok.inj h⟩, ?_⟩
    rintro ⟨a', h, rfl⟩
    rw [Except.ok.inj h]
    rfl

theorem mapError_eq_ok {x : Except ε α} {f : ε → ε'} {a : α} :
    x.mapError f = .ok a ↔ x = .ok a := by
  cases x with
  | error e =>
    constructor
    · intro h
      cases h
    · intro h
      cases h
  | ok b => exact ⟨fun h => Except.ok.inj h ▸ rfl, fun h => Except.ok.inj h ▸ rfl⟩

/-- What does not succeed fails. -/
theorem not_exists_eq_ok_iff {x : Except ε α} : (¬ ∃ a, x = .ok a) ↔ ∃ e, x = .error e := by
  cases x with
  | error e => exact ⟨fun _ => ⟨e, rfl⟩, fun _ ⟨_, h⟩ => by cases h⟩
  | ok a => exact ⟨fun h => absurd ⟨a, rfl⟩ h, fun ⟨_, h⟩ => by cases h⟩

/-- A step that cannot fail leaves open only whether the one before it does. -/
theorem exists_bind_pure_eq_ok {x : Except ε α} {f : α → β} :
    (∃ b, (x >>= fun a => pure (f a)) = .ok b) ↔ ∃ a, x = .ok a := by
  constructor
  · rintro ⟨b, h⟩
    obtain ⟨a, ha, -⟩ := bind_eq_ok.1 h
    exact ⟨a, ha⟩
  · rintro ⟨a, rfl⟩
    exact ⟨f a, rfl⟩

/-- A list is encoded if each of its items is. -/
theorem mapM_eq_ok {f : α → Except ε β} {xs : List α} {ys : List β} :
    xs.mapM f = .ok ys ↔ List.Forall₂ (fun x y => f x = .ok y) xs ys := by
  induction xs generalizing ys with
  | nil =>
    rw [List.mapM_nil, List.forall₂_nil_left_iff]
    exact ⟨fun h => (Except.ok.inj h).symm, fun h => h ▸ rfl⟩
  | cons x xs ih =>
    rw [List.mapM_cons, List.forall₂_cons_left_iff, bind_eq_ok]
    refine exists_congr fun y => ?_
    constructor
    · rintro ⟨hx, h⟩
      obtain ⟨zs, hzs, h⟩ := bind_eq_ok.1 h
      exact ⟨zs, hx, ih.1 hzs, (Except.ok.inj h).symm⟩
    · rintro ⟨zs, hx, hzs, rfl⟩
      exact ⟨hx, bind_eq_ok.2 ⟨zs, ih.2 hzs, rfl⟩⟩

end Except

/-- Every item has a partner in its place if each item has one. -/
theorem exists_forall₂_iff {α β : Type} {R : α → β → Prop} {xs : List α} :
    (∃ ys, List.Forall₂ R xs ys) ↔ ∀ x ∈ xs, ∃ y, R x y := by
  induction xs with
  | nil => exact ⟨fun _ x hx => absurd hx List.not_mem_nil, fun _ => ⟨[], List.Forall₂.nil⟩⟩
  | cons x xs ih =>
    rw [List.forall_mem_cons, ← ih]
    constructor
    · rintro ⟨_, _ | ⟨hx, hxs⟩⟩
      exact ⟨⟨_, hx⟩, _, hxs⟩
    · rintro ⟨⟨y, hx⟩, ys, hxs⟩
      exact ⟨y :: ys, List.Forall₂.cons hx hxs⟩

namespace Payload

variable {α β : Type}

theorem Reading.map_eq_ok {f : α → β} {x : Reading α} {b : β} :
    x.map f = .ok b ↔ ∃ a, x = .ok a ∧ f a = b := by
  cases x with
  | bad cs =>
    constructor
    · intro h
      cases h
    · rintro ⟨a, h, -⟩
      cases h
  | ok a =>
    refine ⟨fun h => ⟨a, rfl, Reading.ok.inj h⟩, ?_⟩
    rintro ⟨a', h, rfl⟩
    rw [Reading.ok.inj h]
    rfl

theorem Reading.functorMap_eq_ok {f : α → β} {x : Reading α} {b : β} :
    f <$> x = .ok b ↔ ∃ a, x = .ok a ∧ f a = b := map_eq_ok

theorem Reading.seq_eq_ok {f : Reading (α → β)} {x : Reading α} {b : β} :
    f <*> x = .ok b ↔ ∃ g, f = .ok g ∧ ∃ a, x = .ok a ∧ g a = b := by
  cases f with
  | bad cs =>
    constructor
    · intro h
      cases x with
      | bad ds => cases h
      | ok a => cases h
    · rintro ⟨g, h, -⟩
      cases h
  | ok g =>
    cases x with
    | bad cs =>
      constructor
      · intro h
        cases h
      · rintro ⟨g', -, a, h, -⟩
        cases h
    | ok a =>
      refine ⟨fun h => ⟨g, rfl, a, rfl, Reading.ok.inj h⟩, ?_⟩
      rintro ⟨g', hg, a', ha, rfl⟩
      rw [Reading.ok.inj hg, Reading.ok.inj ha]
      rfl

theorem Reading.under_eq_ok {step : Step} {x : Reading α} {a : α} :
    x.under step = .ok a ↔ x = .ok a := by
  cases x with
  | bad cs =>
    constructor
    · intro h
      cases h
    · intro h
      cases h
  | ok b => exact Iff.rfl

theorem Reading.toExcept_eq_ok {schema : String} {x : Reading α} {a : α} :
    x.toExcept schema = .ok a ↔ x = .ok a := by
  cases x with
  | bad cs =>
    constructor
    · intro h
      cases h
    · intro h
      cases h
  | ok b => exact ⟨fun h => Except.ok.inj h ▸ rfl, fun h => Reading.ok.inj h ▸ rfl⟩

theorem Reading.fit_eq_ok {schema : String} {x : Reading α} {a : α} :
    x.fit schema = .ok a ↔ x = .ok a := by
  rw [Reading.fit, mapError_eq_ok, toExcept_eq_ok]

/-- A number is accepted as the one of its range with the same value. -/
theorem inRange_eq_ok {lo hi n : Int} {r : Ranged lo hi} : inRange lo hi n = .ok r ↔ r.val = n := by
  constructor
  · intro h
    rw [inRange] at h
    split at h
    · cases h
    · split at h
      · cases h
      · rw [← Reading.ok.inj h]
  · rintro rfl
    exact inRange_val r

theorem exists_ranged_iff {lo hi n : Int} : (∃ r : Ranged lo hi, r.val = n) ↔ lo ≤ n ∧ n ≤ hi := by
  constructor
  · rintro ⟨r, rfl⟩
    exact ⟨r.lo_le, r.le_hi⟩
  · rintro ⟨hlo, hhi⟩
    exact ⟨⟨n, hlo, hhi⟩, rfl⟩

/-- Two numbers are accepted together if each is. -/
theorem both_eq_ok {lo hi lo' hi' m n : Int} {step step' : Step}
    {f : Ranged lo hi → Ranged lo' hi' → α} {a : α} :
    (f <$> (inRange lo hi m).under step <*> (inRange lo' hi' n).under step') = .ok a
      ↔ ∃ x y, x.val = m ∧ y.val = n ∧ f x y = a := by
  rw [Reading.seq_eq_ok]
  constructor
  · rintro ⟨g, hg, y, hy, rfl⟩
    obtain ⟨x, hx, rfl⟩ := Reading.functorMap_eq_ok.1 hg
    exact ⟨x, y, inRange_eq_ok.1 (Reading.under_eq_ok.1 hx),
      inRange_eq_ok.1 (Reading.under_eq_ok.1 hy), rfl⟩
  · rintro ⟨x, y, hx, hy, rfl⟩
    refine ⟨f x, Reading.functorMap_eq_ok.2 ⟨x, ?_, rfl⟩, y, ?_, rfl⟩
    · exact Reading.under_eq_ok.2 (inRange_eq_ok.2 hx)
    · exact Reading.under_eq_ok.2 (inRange_eq_ok.2 hy)

end Payload

end Trialnet
