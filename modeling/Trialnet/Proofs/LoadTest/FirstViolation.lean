import Mathlib.Algebra.Order.Field.Basic
import Trialnet.Proofs.Binary64.Rounding
import Trialnet.Proofs.LoadTest.Validity

/-!
# The violation that is reported

The rules are looked at one after the other, each over the whole mix, and the first message that
breaks one ends the search.  `Breaks` says what is reported without the search: a rule is broken
at some message, the messages before it obey that rule, and the rules before it are obeyed by all.
`LoadTest.violation?_eq_first` shows that the check decides exactly this.

Two rules are not stated in the words of the check.  The sum is compared with 1 in exact fractions:
a double next to 1 is a multiple of `2 ^ -53`, and no such multiple lies between a thousandth and
the double that stands for it.  And messages are compared pairwise, while the scan for duplicates
remembers the slots that it has passed.
-/

namespace Trialnet

/-- The value of a finite number. -/
def Binary64.value (x : Binary64) : ℚ := x.units / unitsPerOne

/-- A finite number that differs from 1 by a thousandth at most. -/
structure Binary64.IsNearOne (x : Binary64) : Prop where
  isFinite : x.isFinite = true
  near : |x.value - 1| ≤ 1 / 1000

/-- Two messages agree in their kind and, if they are bundles, in what they contain. -/
def Message.Agrees (a b : Message) : Prop :=
  a.kind = b.kind ∧ (a.kind = .array → a.contained = b.contained)

theorem Message.slot_eq_iff {a b : Message} : a.slot = b.slot ↔ a.Agrees b := by
  rw [slot, slot, Prod.mk.injEq, Agrees]
  refine and_congr_right fun hkind => ?_
  rw [← hkind]
  by_cases harray : a.kind = .array
  · simp [harray]
  · simp [harray]

namespace LoadTest

/-! ### The total -/

theorem abs_div_sub_one_le_iff (u : ℤ) {n : ℕ} (hn : 0 < n) :
    |(u : ℚ) / n - 1| ≤ 1 / 1000 ↔ 1000 * (u - n).natAbs ≤ n := by
  have hpos : (0 : ℚ) < n := by exact_mod_cast hn
  have habs : |(u : ℚ) / n - 1| = (u - n).natAbs / n := by
    rw [div_sub_one hpos.ne', abs_div, abs_of_pos hpos, Nat.cast_natAbs]
    push_cast
    rfl
  rw [habs, div_le_div_iff₀ hpos (by norm_num), one_mul, mul_comm]
  exact_mod_cast Iff.rfl

theorem isCloseToOne_iff {total : Binary64} : isCloseToOne total = true ↔ total.IsNearOne := by
  have hnear : |total.value - 1| ≤ 1 / 1000
      ↔ 1000 * (total.units - (2 ^ 1074 : ℕ)).natAbs ≤ 2 ^ 1074 := by
    rw [Binary64.value, Binary64.unitsPerOne_eq]
    exact abs_div_sub_one_le_iff total.units (by decide +kernel)
  have hlow : 2 ^ 1074 ≤ 1000 * tolerance.units.natAbs := by decide +kernel
  have hhigh : tolerance.units.natAbs < 9007199254741 * 2 ^ 1021 := by decide +kernel
  rw [isCloseToOne, Bool.and_eq_true, decide_eq_true_eq, Binary64.units_one]
  constructor
  · rintro ⟨hfinite, hle⟩
    refine ⟨hfinite, hnear.2 ?_⟩
    -- so near to 1, doubles are multiples of a unit that divides 1
    have hdvd : (2 : ℤ) ^ 1021 ∣ total.units :=
      Binary64.two_pow_dvd_units hfinite (by omega)
    obtain ⟨m, hm⟩ := hdvd
    omega
  · rintro ⟨hfinite, hle⟩
    refine ⟨hfinite, ?_⟩
    have hle := hnear.1 hle
    omega

/-! ### The rules in order -/

/-- The total is right, or there is nothing to add up. -/
def Balanced (ms : List Message) (total : Binary64) : Prop := ms = [] ∨ total.IsNearOne

/-- No two messages agree. -/
def Distinct (ms : List Message) : Prop := ms.Pairwise fun a b => ¬ a.Agrees b

/-- The rules, for messages whose weights add up to the total. -/
structure Obeys (ms : List Message) (total : Binary64) : Prop where
  balanced : Balanced ms total
  distinct : Distinct ms
  weight : ∀ m ∈ ms, m.weight.IsShare
  complete : ∀ m ∈ ms, m.Complete

/-- The message agrees with one before it, and none before it does. -/
def IsFirstRepeated (ms : List Message) (m : Message) : Prop :=
  ∃ before after, ms = before ++ m :: after ∧ Distinct before ∧ ∃ x ∈ before, x.Agrees m

/-- The message breaks a rule that those before it obey. -/
def IsFirstAgainst (Rule : Message → Prop) (ms : List Message) (m : Message) : Prop :=
  ∃ before after, ms = before ++ m :: after ∧ (∀ x ∈ before, Rule x) ∧ ¬ Rule m

/-- What a message lacks: a bundle, what it contains before its count. -/
inductive Lacks (m : Message) : Violation → Prop where
  | contained (kind : m.kind = .array) (contained : ∀ k, m.contained = some k → k = .array) :
    Lacks m .noContained
  | count {k : MessageKind} (kind : m.kind = .array) (contained : m.contained = some k)
    (other : k ≠ .array) (count : ∀ n, m.count = some n → n ≤ 0) : Lacks m .noCount
  | recipients {n : ℤ} (kind : m.kind = .multiSend) (recipients : m.recipients = some n)
    (nonpos : n ≤ 0) : Lacks m .noRecipients

/-- What is reported of messages whose weights add up to the total: the first rule that is broken,
at the first message that breaks it.  A rule is looked at over the whole mix before the next. -/
inductive Breaks (ms : List Message) (total : Binary64) : Violation → Prop where
  | weightSum (unbalanced : ¬ Balanced ms total) : Breaks ms total (.weightSum total)
  | duplicate {m : Message} (balanced : Balanced ms total) (first : IsFirstRepeated ms m) :
    Breaks ms total (.duplicate m.kind (if m.kind = .array then m.contained else none))
  | weight {m : Message} (balanced : Balanced ms total) (distinct : Distinct ms)
    (first : IsFirstAgainst (·.weight.IsShare) ms m) : Breaks ms total (.weight m.weight)
  | field {m : Message} {v : Violation} (balanced : Balanced ms total) (distinct : Distinct ms)
    (weight : ∀ m ∈ ms, m.weight.IsShare) (first : IsFirstAgainst Message.Complete ms m)
    (lacks : Lacks m v) : Breaks ms total v

/-! ### One rule at a time -/

variable {ms : List Message} {m : Message} {total : Binary64} {v : Violation}

theorem weightSumViolation?_of_balanced (hsum : Binary64.sum (ms.map (·.weight)) = .ok total)
    (h : Balanced ms total) : weightSumViolation? ms = .ok none :=
  weightSumViolation?_eq_none.2 (h.imp_right fun hnear => ⟨total, hsum, isCloseToOne_iff.2 hnear⟩)

theorem weightSumViolation?_of_not_balanced
    (hsum : Binary64.sum (ms.map (·.weight)) = .ok total) (h : ¬ Balanced ms total) :
    weightSumViolation? ms = .ok (some (.weightSum total)) := by
  rw [Balanced, not_or, ← isCloseToOne_iff] at h
  rw [weightSumViolation?, if_neg (by simpa using h.1), hsum]
  exact congrArg Except.ok (if_neg h.2)

theorem nodup_slots_iff : (ms.map Message.slot).Nodup ↔ Distinct ms := by
  rw [List.Nodup, List.pairwise_map, Distinct]
  simp only [ne_eq, Message.slot_eq_iff]

theorem slot_mem_iff : m.slot ∈ ms.map Message.slot ↔ ∃ x ∈ ms, x.Agrees m := by
  simp only [List.mem_map, Message.slot_eq_iff]

theorem distinct_concat_iff :
    Distinct (ms ++ [m]) ↔ Distinct ms ∧ ∀ x ∈ ms, ¬ x.Agrees m := by
  simp [Distinct, List.pairwise_append]

/-- The scan remembers the slots of the messages that it has passed, and they are distinct. -/
theorem duplicate?_eq_some_iff {passed : List Message} (h : Distinct passed) :
    duplicate? (passed.map Message.slot).reverse ms = some v
      ↔ ∃ before m after, ms = before ++ m :: after ∧ Distinct (passed ++ before)
        ∧ (∃ x ∈ passed ++ before, x.Agrees m)
        ∧ v = .duplicate m.kind (if m.kind = .array then m.contained else none) := by
  induction ms generalizing passed with
  | nil => simp [duplicate?]
  | cons m ms ih =>
    have hmem : (passed.map Message.slot).reverse.contains m.slot = true
        ↔ ∃ x ∈ passed, x.Agrees m := by
      rw [List.contains_iff_mem, List.mem_reverse, slot_mem_iff]
    rw [duplicate?]
    by_cases hseen : ∃ x ∈ passed, x.Agrees m
    · rw [if_pos (hmem.2 hseen)]
      constructor
      · intro heq
        refine ⟨[], m, ms, rfl, by rwa [List.append_nil], by rwa [List.append_nil], ?_⟩
        exact (Option.some.inj heq).symm
      · rintro ⟨before, m', after, hsplit, hdistinct, -, rfl⟩
        cases before with
        | nil =>
          obtain ⟨rfl, -⟩ := List.cons.inj hsplit
          rfl
        | cons y before =>
          -- a message that agrees with one that was passed is not among distinct ones
          obtain ⟨rfl, -⟩ := List.cons.inj hsplit
          obtain ⟨x, hx, hagrees⟩ := hseen
          rw [Distinct, List.pairwise_append] at hdistinct
          exact absurd hagrees (hdistinct.2.2 x hx m List.mem_cons_self)
    · rw [if_neg (mt hmem.1 hseen)]
      have hpassed : Distinct (passed ++ [m]) :=
        distinct_concat_iff.2 ⟨h, fun x hx hagrees => hseen ⟨x, hx, hagrees⟩⟩
      have hslots : m.slot :: (passed.map Message.slot).reverse
          = ((passed ++ [m]).map Message.slot).reverse := by
        rw [List.map_append, List.reverse_append]
        rfl
      rw [hslots, ih hpassed]
      constructor
      · rintro ⟨before, m', after, rfl, hdistinct, hrepeated, hv⟩
        rw [List.append_assoc] at hdistinct hrepeated
        exact ⟨m :: before, m', after, rfl, hdistinct, hrepeated, hv⟩
      · rintro ⟨before, m', after, hsplit, hdistinct, hrepeated, hv⟩
        cases before with
        | nil =>
          obtain ⟨rfl, -⟩ := List.cons.inj hsplit
          rw [List.append_nil] at hrepeated
          exact absurd hrepeated hseen
        | cons y before =>
          obtain ⟨rfl, hms⟩ := List.cons.inj hsplit
          refine ⟨before, m', after, hms, ?_, ?_, hv⟩
          · rwa [List.append_assoc]
          · rwa [List.append_assoc]

theorem duplicate?_nil_eq_some :
    duplicate? [] ms = some v ↔ ∃ m, IsFirstRepeated ms m
      ∧ v = .duplicate m.kind (if m.kind = .array then m.contained else none) := by
  have hnil : Distinct [] := List.Pairwise.nil
  have hscan : duplicate? [] ms = some v ↔ _ := duplicate?_eq_some_iff hnil
  rw [hscan]
  simp only [List.nil_append, IsFirstRepeated]
  constructor
  · rintro ⟨before, m, after, hsplit, hdistinct, hrepeated, hv⟩
    exact ⟨m, ⟨before, after, hsplit, hdistinct, hrepeated⟩, hv⟩
  · rintro ⟨m, ⟨before, after, hsplit, hdistinct, hrepeated⟩, hv⟩
    exact ⟨before, m, after, hsplit, hdistinct, hrepeated, hv⟩

theorem duplicate?_nil_eq_none : duplicate? [] ms = none ↔ Distinct ms := by
  rw [duplicate?_eq_none, nodup_slots_iff]
  exact and_iff_right fun _ _ => List.not_mem_nil

/-- What is found of a rule for single messages is found at the first message against it. -/
theorem findSome?_eq_some_iff_first {find : Message → Option Violation} {Rule : Message → Prop}
    (hrule : ∀ m, find m = none ↔ Rule m) :
    ms.findSome? find = some v ↔ ∃ m, IsFirstAgainst Rule ms m ∧ find m = some v := by
  rw [List.findSome?_eq_some_iff]
  constructor
  · rintro ⟨before, m, after, hsplit, hfound, hbefore⟩
    refine ⟨m, ⟨before, after, hsplit, fun x hx => (hrule x).1 (hbefore x hx), ?_⟩, hfound⟩
    rw [← hrule, hfound]
    exact Option.some_ne_none v
  · rintro ⟨m, ⟨before, after, hsplit, hbefore, -⟩, hfound⟩
    exact ⟨before, m, after, hsplit, hfound, fun x hx => (hrule x).2 (hbefore x hx)⟩

theorem weightViolation?_eq_some :
    weightViolation? m = some v ↔ ¬ m.weight.IsShare ∧ v = .weight m.weight := by
  rw [weightViolation?, ← Binary64.isShare_iff]
  split
  · rename_i h
    simp [h]
  · rename_i h
    simp [h, eq_comm]

theorem isPositive_eq_false {n : Option ℤ} : isPositive n = false ↔ ∀ k, n = some k → k ≤ 0 := by
  cases n with
  | none => simp [isPositive]
  | some k => simp [isPositive]

/-- The fourth rule reports what a message lacks. -/
theorem fieldViolation?_eq_some : fieldViolation? m = some v ↔ Lacks m v := by
  rw [fieldViolation?]
  constructor
  · intro h
    cases hkind : m.kind with
    | array =>
      simp only [hkind] at h
      split at h
      · rename_i hcontained
        obtain rfl := Option.some.inj h
        refine .contained hkind fun k hk => ?_
        rw [hk] at hcontained
        exact (hcontained.resolve_left (Option.some_ne_none k)) |> Option.some.inj
      · rename_i hcontained
        split at h
        · cases h
        · rename_i hcount
          obtain rfl := Option.some.inj h
          rw [not_or] at hcontained
          obtain ⟨k, hk⟩ := Option.ne_none_iff_exists'.1 hcontained.1
          rw [Bool.not_eq_true] at hcount
          exact .count hkind hk (fun harray => hcontained.2 (harray ▸ hk))
            (isPositive_eq_false.1 hcount)
    | multiSend =>
      simp only [hkind] at h
      split at h
      · cases h
      · rename_i hrecipients
        obtain rfl := Option.some.inj h
        rw [not_or, Bool.not_eq_true] at hrecipients
        obtain ⟨n, hn⟩ := Option.ne_none_iff_exists'.1 hrecipients.1
        exact .recipients hkind hn (isPositive_eq_false.1 hrecipients.2 n hn)
    | send | createContract | writeTo | crossContractCall | callDataBlast | nativeTransfer =>
      simp only [hkind] at h
      cases h
  · intro h
    cases h with
    | contained hkind hcontained =>
      simp only [hkind]
      refine if_pos ?_
      cases hk : m.contained with
      | none => exact Or.inl rfl
      | some k => exact Or.inr (congrArg some (hcontained k hk))
    | count hkind hcontained hother hcount =>
      simp only [hkind]
      rw [if_neg (by simp [hcontained, hother]), if_neg]
      rw [isPositive_eq_false.2 hcount]
      exact Bool.false_ne_true
    | recipients hkind hrecipients hnonpos =>
      simp only [hkind]
      refine if_neg ?_
      simp [hrecipients, isPositive, hnonpos]

/-! ### All rules -/

theorem violation?_of_balanced {t : LoadTest}
    (hsum : Binary64.sum (t.messages.map (·.weight)) = .ok total) (h : Balanced t.messages total) :
    t.violation? = .ok ((duplicate? [] t.messages).or
      ((t.messages.findSome? weightViolation?).or (t.messages.findSome? fieldViolation?))) := by
  rw [violation?, weightSumViolation?_of_balanced hsum h]
  simp only [Option.orElse_eq_orElse, Option.orElse_eq_or]
  rfl

/-- Where the sum is right, the other rules are looked at one after the other. -/
theorem found_eq_none_iff (h : Balanced ms total) :
    (duplicate? [] ms).or ((ms.findSome? weightViolation?).or (ms.findSome? fieldViolation?)) = none
      ↔ Obeys ms total := by
  rw [Option.or_eq_none_iff, Option.or_eq_none_iff, duplicate?_nil_eq_none,
    List.findSome?_eq_none_iff, List.findSome?_eq_none_iff]
  simp only [weightViolation?_eq_none, fieldViolation?_eq_none]
  exact ⟨fun ⟨hdistinct, hweight, hcomplete⟩ => ⟨h, hdistinct, hweight, hcomplete⟩,
    fun hobeys => ⟨hobeys.distinct, hobeys.weight, hobeys.complete⟩⟩

theorem found_eq_some_iff (h : Balanced ms total) :
    (duplicate? [] ms).or ((ms.findSome? weightViolation?).or (ms.findSome? fieldViolation?))
        = some v
      ↔ Breaks ms total v := by
  rw [Option.or_eq_some_iff, Option.or_eq_some_iff, duplicate?_nil_eq_none, duplicate?_nil_eq_some,
    findSome?_eq_some_iff_first fun _ => weightViolation?_eq_none,
    findSome?_eq_some_iff_first fun _ => fieldViolation?_eq_none, List.findSome?_eq_none_iff]
  simp only [weightViolation?_eq_none, weightViolation?_eq_some, fieldViolation?_eq_some]
  constructor
  · rintro (⟨m, hfirst, rfl⟩ | ⟨hdistinct, ⟨m, hfirst, -, rfl⟩ | ⟨hweight, m, hfirst, hlacks⟩⟩)
    · exact .duplicate h hfirst
    · exact .weight h hdistinct hfirst
    · exact .field h hdistinct hweight hfirst hlacks
  · intro hbreaks
    cases hbreaks with
    | weightSum hunbalanced => exact absurd h hunbalanced
    | duplicate _ hfirst => exact Or.inl ⟨_, hfirst, rfl⟩
    | weight _ hdistinct hfirst =>
      obtain ⟨-, -, -, -, hout⟩ := id hfirst
      exact Or.inr ⟨hdistinct, Or.inl ⟨_, hfirst, hout, rfl⟩⟩
    | field _ hdistinct hweight hfirst hlacks =>
      exact Or.inr ⟨hdistinct, Or.inr ⟨hweight, _, hfirst, hlacks⟩⟩

/-- Let the weights of a load test add up to some total.  Then the check comes to an end: it finds
nothing exactly if the messages obey the rules, and it reports a violation exactly if that is the
first one, in the order of the rules and then of the messages. -/
theorem violation?_eq_first {t : LoadTest}
    (hsum : Binary64.sum (t.messages.map (·.weight)) = .ok total) :
    ∃ found, t.violation? = .ok found ∧ (found = none ↔ Obeys t.messages total)
      ∧ ∀ v, found = some v ↔ Breaks t.messages total v := by
  by_cases hbalanced : Balanced t.messages total
  · exact ⟨_, violation?_of_balanced hsum hbalanced, found_eq_none_iff hbalanced,
      fun v => found_eq_some_iff hbalanced⟩
  · refine ⟨some (.weightSum total), ?_, ?_, fun v => ?_⟩
    · rw [violation?, weightSumViolation?_of_not_balanced hsum hbalanced]
      rfl
    · constructor
      · intro h
        cases h
      · exact fun hobeys => absurd hobeys.balanced hbalanced
    · constructor
      · intro h
        exact Option.some.inj h ▸ .weightSum hbalanced
      · intro hbreaks
        cases hbreaks with
        | weightSum => rfl
        | duplicate h | weight h | field h => exact absurd h hbalanced

/-- Two transfers in one mix are reported, and not that the bundle says nothing. -/
theorem violation?_twoTransfers :
    let quarter : Binary64 := .ofDecimal false 25 (-2)
    let half : Binary64 := .ofDecimal false 5 (-1)
    let t : LoadTest :=
      { messages := [{ kind := .nativeTransfer, weight := quarter },
          { kind := .nativeTransfer, weight := quarter }, { kind := .array, weight := half }] }
    Binary64.sum (t.messages.map (·.weight)) = .ok .one
      ∧ t.violation? = .ok (some (.duplicate .nativeTransfer none)) := by
  intro quarter half t
  have hsum : Binary64.sum (t.messages.map (·.weight)) = .ok .one := by decide +kernel
  have hbalanced : Balanced t.messages .one := Or.inr (isCloseToOne_iff.1 (by decide +kernel))
  have hfirst : IsFirstRepeated t.messages { kind := .nativeTransfer, weight := quarter } := by
    refine ⟨t.messages.take 1, t.messages.drop 2, rfl, List.pairwise_singleton _ _,
      { kind := .nativeTransfer, weight := quarter }, List.mem_singleton_self _, rfl, fun _ => rfl⟩
  obtain ⟨found, hfound, -, hbreaks⟩ := violation?_eq_first hsum
  exact ⟨hsum, hfound.trans (congrArg Except.ok ((hbreaks _).2 (.duplicate hbalanced hfirst)))⟩

end LoadTest

end Trialnet
