import Trialnet.Proofs.Binary64.Sums
import Trialnet.LoadTest.Editing

/-!
# Which load tests are valid

The four rules are checked one after the other, and a load test passes if none of them finds a
violation.  Here each rule is stated by itself, and the checks are shown to decide the rules.
-/

namespace Trialnet

/-- Above 0 and at most 1. -/
structure Binary64.IsShare (x : Binary64) : Prop where
  isFinite : x.isFinite = true
  pos : 0 < x.units
  le_one : x.units ≤ Binary64.one.units

theorem Binary64.isFinite_one : Binary64.one.isFinite = true := by decide +kernel

theorem Binary64.units_zero : Binary64.zero.units = 0 := by decide

theorem Binary64.isShare_iff {x : Binary64} :
    (Binary64.zero.lt x && x.le .one) = true ↔ x.IsShare := by
  rw [Bool.and_eq_true]
  constructor
  · rintro ⟨hlt, hle⟩
    have hx : x.isFinite = true := isFinite_of_lt_of_le rfl isFinite_one hlt hle
    rw [lt_eq_decide rfl hx, decide_eq_true_eq, units_zero] at hlt
    exact ⟨hx, hlt, (le_iff hx isFinite_one).1 hle⟩
  · rintro ⟨hx, hpos, hle⟩
    rw [lt_eq_decide rfl hx, decide_eq_true_eq, units_zero]
    exact ⟨hpos, (le_iff hx isFinite_one).2 hle⟩

/-- What the fourth rule asks of a message. -/
structure Message.Complete (m : Message) : Prop where
  contained : m.kind = .array → ∃ k, m.contained = some k ∧ k ≠ .array
  count : m.kind = .array → ∃ n, m.count = some n ∧ 0 < n
  recipients : m.kind = .multiSend → ∀ n, m.recipients = some n → 0 < n

namespace LoadTest

/-- What the first rule asks of a mix that is not empty: the sum exists and is close to 1. -/
def HasTotal (ms : List Message) : Prop :=
  ∃ total, Binary64.sum (ms.map (·.weight)) = .ok total ∧ isCloseToOne total = true

/-- The four rules. -/
structure Valid (t : LoadTest) : Prop where
  total : t.messages = [] ∨ HasTotal t.messages
  slots : (t.messages.map Message.slot).Nodup
  weight : ∀ m ∈ t.messages, m.weight.IsShare
  complete : ∀ m ∈ t.messages, m.Complete

/-- The rules but that of the sum, which is looked at only when the mix is complete. -/
structure WellFormed (t : LoadTest) : Prop where
  slots : (t.messages.map Message.slot).Nodup
  weight : ∀ m ∈ t.messages, m.weight.IsShare
  complete : ∀ m ∈ t.messages, m.Complete

theorem Valid.wellFormed {t : LoadTest} (h : t.Valid) : t.WellFormed :=
  ⟨h.slots, h.weight, h.complete⟩

/-! ### One rule at a time -/

theorem weightSumViolation?_eq_none {ms : List Message} :
    weightSumViolation? ms = .ok none ↔ ms = [] ∨ HasTotal ms := by
  cases ms with
  | nil => exact ⟨fun _ => Or.inl rfl, fun _ => rfl⟩
  | cons m ms =>
    have hcons : ¬ m :: ms = [] := List.cons_ne_nil m ms
    rw [weightSumViolation?, if_neg (by simp), bind_eq_ok, or_iff_right hcons]
    refine exists_congr fun total => and_congr_right fun _ => ?_
    by_cases hclose : isCloseToOne total = true
    · rw [if_pos hclose]
      exact ⟨fun _ => hclose, fun _ => rfl⟩
    · rw [if_neg hclose]
      constructor
      · intro h
        cases Except.ok.inj h
      · exact fun h => absurd h hclose

/-- No duplicate is found among messages whose slots are pairwise different and not among those
seen before. -/
theorem duplicate?_eq_none {seen : List (MessageKind × Option MessageKind)} {ms : List Message} :
    duplicate? seen ms = none
      ↔ (∀ m ∈ ms, m.slot ∉ seen) ∧ (ms.map Message.slot).Nodup := by
  induction ms generalizing seen with
  | nil => simp [duplicate?]
  | cons m ms ih =>
    by_cases hseen : m.slot ∈ seen
    · rw [duplicate?, if_pos (by simpa using hseen)]
      exact ⟨nofun, fun h => absurd hseen (h.1 m (by simp))⟩
    · rw [duplicate?, if_neg (by simpa using hseen), ih, List.map_cons, List.nodup_cons,
        List.forall_mem_cons]
      -- the later messages avoid the first slot, seen from either side
      have hfirst : (∀ x ∈ ms, x.slot ∉ m.slot :: seen)
          ↔ m.slot ∉ ms.map Message.slot ∧ ∀ x ∈ ms, x.slot ∉ seen := by
        constructor
        · intro h
          refine ⟨fun hm => ?_, fun x hx hmem => h x hx (List.mem_cons_of_mem _ hmem)⟩
          obtain ⟨x, hx, heq⟩ := List.mem_map.1 hm
          exact h x hx (heq ▸ List.mem_cons_self)
        · rintro ⟨hm, h⟩ x hx hmem
          rcases List.mem_cons.1 hmem with heq | hmem
          · exact hm (heq ▸ List.mem_map_of_mem hx)
          · exact h x hx hmem
      rw [hfirst]
      constructor
      · rintro ⟨⟨hm, h⟩, hnodup⟩
        exact ⟨⟨hseen, h⟩, hm, hnodup⟩
      · rintro ⟨⟨-, h⟩, hm, hnodup⟩
        exact ⟨⟨hm, h⟩, hnodup⟩

theorem weightViolation?_eq_none {m : Message} :
    weightViolation? m = none ↔ m.weight.IsShare := by
  rw [weightViolation?, ← Binary64.isShare_iff]
  split
  · rename_i h
    exact ⟨fun _ => h, fun _ => rfl⟩
  · rename_i h
    exact ⟨nofun, fun h' => absurd h' h⟩

theorem isPositive_iff {n : Option Int} : isPositive n = true ↔ ∃ k, n = some k ∧ 0 < k := by
  cases n with
  | none =>
    constructor
    · intro h
      cases h
    · rintro ⟨k, h, -⟩
      cases h
  | some k =>
    rw [isPositive, decide_eq_true_eq]
    constructor
    · exact fun h => ⟨k, rfl, h⟩
    · rintro ⟨k', h, hpos⟩
      rwa [Option.some.inj h]

theorem complete_array_iff {m : Message} (h : m.kind = .array) :
    m.Complete
      ↔ ¬ (m.contained = none ∨ m.contained = some .array) ∧ isPositive m.count = true := by
  constructor
  · rintro ⟨hcontained, hcount, -⟩
    obtain ⟨k, hk, hne⟩ := hcontained h
    refine ⟨?_, isPositive_iff.2 (hcount h)⟩
    rw [hk]
    rintro (hnone | harray)
    · cases hnone
    · exact hne (Option.some.inj harray)
  · rintro ⟨hcontained, hcount⟩
    rw [not_or] at hcontained
    obtain ⟨k, hk⟩ := Option.ne_none_iff_exists'.1 hcontained.1
    refine ⟨fun _ => ⟨k, hk, fun harray => hcontained.2 (harray ▸ hk)⟩,
      fun _ => isPositive_iff.1 hcount, fun hmulti => ?_⟩
    rw [h] at hmulti
    cases hmulti

theorem complete_multiSend_iff {m : Message} (h : m.kind = .multiSend) :
    m.Complete ↔ m.recipients = none ∨ isPositive m.recipients = true := by
  have hkind : m.kind ≠ .array := by simp [h]
  constructor
  · rintro ⟨-, -, hrecipients⟩
    cases hn : m.recipients with
    | none => exact Or.inl rfl
    | some n => exact Or.inr (isPositive_iff.2 ⟨n, rfl, hrecipients h n hn⟩)
  · intro hrecipients
    refine ⟨fun harray => absurd harray hkind, fun harray => absurd harray hkind, ?_⟩
    intro _ n hn
    rcases hrecipients with hnone | hpositive
    · rw [hn] at hnone
      cases hnone
    · obtain ⟨k, hk, hpos⟩ := isPositive_iff.1 hpositive
      rwa [Option.some.inj (hn.symm.trans hk)]

theorem complete_of_ne {m : Message} (harray : m.kind ≠ .array) (hmulti : m.kind ≠ .multiSend) :
    m.Complete :=
  ⟨fun h => absurd h harray, fun h => absurd h harray, fun h => absurd h hmulti⟩

/-- The fourth rule has something to say about two kinds only. -/
theorem fieldViolation?_eq_none {m : Message} : fieldViolation? m = none ↔ m.Complete := by
  rw [fieldViolation?]
  cases hkind : m.kind with
  | array =>
    rw [complete_array_iff hkind]
    dsimp only
    split
    · rename_i hcontained
      exact ⟨nofun, fun h => absurd hcontained h.1⟩
    · rename_i hcontained
      split
      · rename_i hcount
        exact ⟨fun _ => ⟨hcontained, hcount⟩, fun _ => rfl⟩
      · rename_i hcount
        exact ⟨nofun, fun h => absurd h.2 hcount⟩
  | multiSend =>
    rw [complete_multiSend_iff hkind]
    dsimp only
    split
    · rename_i hrecipients
      exact ⟨fun _ => hrecipients, fun _ => rfl⟩
    · rename_i hrecipients
      exact ⟨nofun, fun h => absurd h hrecipients⟩
  | send | createContract | writeTo | crossContractCall | callDataBlast | nativeTransfer =>
    exact ⟨fun _ => complete_of_ne (by simp [hkind]) (by simp [hkind]), fun _ => rfl⟩

/-! ### All rules -/

theorem violation?_eq_none {t : LoadTest} : t.violation? = .ok none ↔ t.Valid := by
  rw [violation?, bind_eq_ok]
  constructor
  · rintro ⟨v, hv, h⟩
    cases v with
    | some v => cases Except.ok.inj h
    | none =>
      -- the other rules are looked at only if the sum is right
      have hrest := Except.ok.inj h
      simp only [Option.orElse_eq_orElse, Option.orElse_eq_or, Option.or_eq_none_iff] at hrest
      obtain ⟨hslots, hweights, hfields⟩ := hrest
      refine ⟨weightSumViolation?_eq_none.1 hv, (duplicate?_eq_none.1 hslots).2, ?_, ?_⟩
      · exact fun m hm => weightViolation?_eq_none.1 (List.findSome?_eq_none_iff.1 hweights m hm)
      · exact fun m hm => fieldViolation?_eq_none.1 (List.findSome?_eq_none_iff.1 hfields m hm)
  · rintro ⟨htotal, hslots, hweights, hcomplete⟩
    have hduplicate : duplicate? [] t.messages = none :=
      duplicate?_eq_none.2 ⟨fun _ _ => List.not_mem_nil, hslots⟩
    have hweight : t.messages.findSome? weightViolation? = none :=
      List.findSome?_eq_none_iff.2 fun m hm => weightViolation?_eq_none.2 (hweights m hm)
    have hfield : t.messages.findSome? fieldViolation? = none :=
      List.findSome?_eq_none_iff.2 fun m hm => fieldViolation?_eq_none.2 (hcomplete m hm)
    refine ⟨none, weightSumViolation?_eq_none.2 htotal, ?_⟩
    simp only [hduplicate, hweight, hfield]
    rfl

theorem check_eq_ok {t : LoadTest} : t.check = .ok () ↔ t.Valid := by
  rw [← violation?_eq_none, check]
  split
  · rename_i h
    rw [h]
    exact ⟨nofun, nofun⟩
  · rename_i h
    rw [h]
    exact ⟨nofun, nofun⟩
  · rename_i h
    exact ⟨fun _ => h, fun _ => rfl⟩

/-- A load test is made ready for submission exactly if it is valid. -/
theorem checked_eq_ok {t t' : LoadTest} : t.checked = .ok t' ↔ t.Valid ∧ t' = t.normalize := by
  rw [checked, bind_eq_ok]
  constructor
  · rintro ⟨u, hu, h⟩
    exact ⟨check_eq_ok.1 hu, (Except.ok.inj h).symm⟩
  · rintro ⟨hvalid, rfl⟩
    exact ⟨(), check_eq_ok.2 hvalid, rfl⟩

end LoadTest

end Trialnet
