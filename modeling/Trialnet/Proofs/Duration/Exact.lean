import Mathlib.Data.List.Infix
import Trialnet.Proofs.Duration.Grammar
import Trialnet.Proofs.Duration.Rounding

/-!
# Durations that are added up exactly

A duration denotes a number of seconds: a plain number denotes itself, and parts denote the sum
of the products of their numbers and units, which is a rational number.  The reader rounds every
product and every running sum to 28 digits.  So a text is read as what it denotes as long as
none of these numbers has more than 28 digits, zeros at the ends not counted.
-/

namespace Trialnet.Duration

open Text

/-! ### What a duration denotes -/

/-- The number of seconds in a unit. -/
def Unit.exact : Unit → ℚ
  | .hour => 3600
  | .minute => 60
  | .second => 1
  | .millisecond => 1 / 1000

/-- The number of seconds of a part. -/
def Part.exact (p : Part) : ℚ :=
  digitsValue (p.whole ++ p.fraction) / 10 ^ p.fraction.length * p.unit.exact

/-- The number of seconds of parts. -/
def exactTotal (ps : List Part) : ℚ := (ps.map Part.exact).sum

/-- The text without the blanks around it. -/
def trimmed (raw : String) : List Char := trim isBlank raw.toList

/-- There is nothing but blanks. -/
def IsBlank (raw : String) : Prop := trimmed raw = []

/-- The characters are a plain number that is short enough to be read. -/
structure IsNumber (cs : List Char) (n : Nat) : Prop where
  ne_nil : cs ≠ []
  digits : ∀ c ∈ cs, isDecimalDigit c = true
  length_le : cs.length ≤ Numeral.maxDigits
  value : digitsValue cs = n

/-- The characters are parts, one after the other. -/
structure IsMadeOf (cs : List Char) (ps : List Part) : Prop where
  ne_nil : ps ≠ []
  written : ∀ p ∈ ps, p.IsWritten
  chars : ps.flatMap Part.chars = cs

/-- The text denotes so many whole seconds. -/
def Denotes (raw : String) (n : Nat) : Prop :=
  IsNumber (trimmed raw) n ∨ ∃ ps, IsMadeOf (trimmed raw) ps ∧ exactTotal ps = n

/-! ### Amounts -/

namespace Amount

theorem value_add {a b : Amount} (h : IsShort (a.value + b.value)) :
    (a.add b).value = a.value + b.value := (roundsTo_add a b).eq_of_isShort h

theorem value_mul {a b : Amount} (h : IsShort (a.value * b.value)) :
    (a.mul b).value = a.value * b.value := (roundsTo_mul a b).eq_of_isShort h

/-- An amount is the natural number that it stands for. -/
theorem toNat?_eq_some {a : Amount} {n : ℕ} : a.toNat? = some n ↔ a.value = n := by
  obtain ⟨c, e⟩ := a
  simp only [toNat?, value]
  rcases le_or_gt 0 e with he | he
  · obtain ⟨j, rfl⟩ : ∃ j : ℕ, e = j := ⟨e.toNat, by omega⟩
    rw [if_pos he, Option.some.injEq, Int.toNat_natCast, zpow_natCast, Nat.pow_eq]
    exact ⟨fun h => by exact_mod_cast h, fun h => by exact_mod_cast h⟩
  · obtain ⟨j, rfl⟩ : ∃ j : ℕ, e = -j := ⟨(-e).toNat, by omega⟩
    have hpow : (10 : ℚ) ^ j ≠ 0 := pow_ne_zero j (by norm_num)
    have hpos : 0 < 10 ^ j := Nat.pow_pos (by decide)
    rw [if_neg (not_le.2 he), neg_neg, Int.toNat_natCast, zpow_neg, zpow_natCast, Nat.pow_eq,
      ← div_eq_mul_inv, div_eq_iff hpow]
    have hcast : (c : ℚ) = n * 10 ^ j ↔ c = n * 10 ^ j := by
      exact ⟨fun h => by exact_mod_cast h, fun h => by exact_mod_cast h⟩
    rw [hcast]
    constructor
    · intro h
      split at h
      · rename_i hmod
        rw [← Option.some.inj h, Nat.div_mul_cancel (Nat.dvd_of_mod_eq_zero hmod)]
      · cases h
    · rintro rfl
      rw [if_pos (Nat.mul_mod_left n _), Nat.mul_div_cancel _ hpos]

end Amount

/-! ### Sums of parts -/

/-- No product and no running sum has to be rounded. -/
structure FitsPrecision (ps : List Part) : Prop where
  part : ∀ p ∈ ps, IsShort p.exact
  sum : ∀ qs, qs <+: ps → IsShort (exactTotal qs)

theorem Unit.value_seconds (u : Unit) : u.seconds.value = u.exact := by
  cases u <;> norm_num [Unit.seconds, Unit.exact, Amount.value]

theorem Part.value_amount (p : Part) :
    p.amount.value = digitsValue (p.whole ++ p.fraction) / 10 ^ p.fraction.length := by
  rw [Part.amount, Amount.value, zpow_neg, zpow_natCast, div_eq_mul_inv]

theorem Part.value_seconds {p : Part} (h : IsShort p.exact) : p.seconds.value = p.exact := by
  have hexact : p.amount.value * p.unit.seconds.value = p.exact := by
    rw [Part.value_amount, Unit.value_seconds, Part.exact]
  rw [Part.seconds, Amount.value_mul, hexact]
  rwa [hexact]

theorem exactTotal_append (ps qs : List Part) :
    exactTotal (ps ++ qs) = exactTotal ps + exactTotal qs := by
  rw [exactTotal, List.map_append, List.sum_append, exactTotal, exactTotal]

/-- The running sum is exact after each part, from the first to the last. -/
theorem value_total {ps : List Part} (h : FitsPrecision ps) : (total ps).value = exactTotal ps := by
  induction ps using List.reverseRecOn with
  | nil => norm_num [total, exactTotal, Amount.zero, Amount.value]
  | append_singleton ps p ih =>
    have hps : FitsPrecision ps :=
      ⟨fun q hq => h.part q (by simp [hq]), fun qs hqs => h.sum qs (hqs.trans (by simp))⟩
    have hp : p.seconds.value = p.exact := Part.value_seconds (h.part p (by simp))
    have hsum : (total ps).value + p.seconds.value = exactTotal (ps ++ [p]) := by
      rw [ih hps, hp, exactTotal_append, exactTotal, exactTotal, List.map_singleton,
        List.sum_singleton]
    have htotal : total (ps ++ [p]) = (total ps).add p.seconds := by
      rw [total, List.foldl_append]
      rfl
    rw [htotal, Amount.value_add, hsum]
    rw [hsum]
    exact h.sum _ (List.prefix_refl _)

section Grain

variable {k : ℕ}

/-- Multiples of a decimal place add up to a multiple of it. -/
theorem exists_natCast_exactTotal {ps : List Part} (h : ∀ p ∈ ps, ∃ n : ℕ, p.exact * 10 ^ k = n) :
    ∃ n : ℕ, exactTotal ps * 10 ^ k = n := by
  induction ps with
  | nil => exact ⟨0, by simp [exactTotal]⟩
  | cons p ps ih =>
    obtain ⟨n, hn⟩ := h p List.mem_cons_self
    obtain ⟨m, hm⟩ := ih fun q hq => h q (List.mem_cons_of_mem _ hq)
    refine ⟨n + m, ?_⟩
    rw [exactTotal] at hm
    rw [exactTotal, List.map_cons, List.sum_cons, add_mul, hn, hm, Nat.cast_add]

theorem isShort_of_mul_eq {q : ℚ} {n : ℕ} (hn : n < 10 ^ Amount.precision) (h : q * 10 ^ k = n) :
    IsShort q := by
  refine ⟨n, -k, hn, ?_⟩
  rw [← h, zpow_neg, zpow_natCast, mul_inv_cancel_right₀ (by positivity)]

/-- Parts that are multiples of a decimal place fit if their total does, since no part and no
running sum is greater than the total. -/
theorem fitsPrecision_of_grain {ps : List Part} (h : ∀ p ∈ ps, ∃ n : ℕ, p.exact * 10 ^ k = n)
    (htotal : exactTotal ps * 10 ^ k < 10 ^ Amount.precision) : FitsPrecision ps := by
  have hprefix : ∀ qs, qs <+: ps → IsShort (exactTotal qs) := by
    rintro qs ⟨rs, rfl⟩
    obtain ⟨n, hn⟩ := exists_natCast_exactTotal fun p hp => h p (List.mem_append_left rs hp)
    obtain ⟨m, hm⟩ := exists_natCast_exactTotal fun p hp => h p (List.mem_append_right qs hp)
    rw [exactTotal_append, add_mul, hn, hm] at htotal
    have hlt : n + m < 10 ^ Amount.precision := by exact_mod_cast htotal
    exact isShort_of_mul_eq (by omega) hn
  refine ⟨fun p hp => ?_, hprefix⟩
  obtain ⟨qs, rs, rfl⟩ := List.append_of_mem hp
  obtain ⟨n, hn⟩ := h p hp
  obtain ⟨l, hl⟩ := exists_natCast_exactTotal fun q hq => h q (List.mem_append_left _ hq)
  obtain ⟨m, hm⟩ := exists_natCast_exactTotal fun q hq =>
    h q (List.mem_append_right qs (List.mem_cons_of_mem p hq))
  have hsplit : exactTotal (qs ++ p :: rs) = exactTotal qs + (p.exact + exactTotal rs) := by
    rw [exactTotal_append, exactTotal, exactTotal, exactTotal, List.map_cons, List.sum_cons]
  rw [hsplit, add_mul, add_mul, hl, hn, hm] at htotal
  have hlt : l + (n + m) < 10 ^ Amount.precision := by exact_mod_cast htotal
  exact isShort_of_mul_eq (by omega) hn

end Grain

/-- Parts of whole seconds fit if their total does. -/
theorem fitsPrecision_of_natural {ps : List Part} (h : ∀ p ∈ ps, ∃ n : ℕ, p.exact = n)
    (htotal : exactTotal ps < 10 ^ Amount.precision) : FitsPrecision ps :=
  fitsPrecision_of_grain (k := 0) (by simpa using h) (by simpa using htotal)

/-! ### Reading -/

theorem all_chars {ps : List Part} (h : ps ≠ []) :
    (ps.flatMap Part.chars).all isDecimalDigit = false := by
  obtain ⟨p, ps, rfl⟩ := List.exists_cons_of_ne_nil h
  obtain ⟨c, tail, hchars, hdigit, -⟩ := unitChars_cons p.unit
  rw [List.all_eq_false]
  exact ⟨c, by simp [Part.chars, hchars], by simp [hdigit]⟩

/-- A part ends in a unit, so a plain number is not made of parts. -/
theorem IsMadeOf.not_all {cs : List Char} {ps : List Part} (h : IsMadeOf cs ps) :
    ¬ cs.all isDecimalDigit = true := by
  rw [← h.chars, all_chars h.ne_nil]
  exact Bool.false_ne_true

theorem IsMadeOf.parts? {cs : List Char} {ps : List Part} (h : IsMadeOf cs ps) :
    parts? cs = some ps := parts?_eq_some.2 ⟨h.written, h.chars⟩

theorem readTrimmed_eq_ok (raw : String) {cs : List Char} {n : Nat} (hne : cs ≠ []) :
    readTrimmed raw cs = .ok n
      ↔ IsNumber cs n ∨ ∃ ps, IsMadeOf cs ps ∧ (total ps).value = n := by
  rw [readTrimmed]
  by_cases hall : cs.all isDecimalDigit = true
  · have hdigits : ∀ c ∈ cs, isDecimalDigit c = true := List.all_eq_true.1 hall
    have hparts : ¬ ∃ ps, IsMadeOf cs ps ∧ (total ps).value = n := by
      rintro ⟨ps, hps, -⟩
      exact hps.not_all hall
    rw [if_pos hall, or_iff_left hparts]
    split
    · rename_i hlong
      exact ⟨nofun, fun h => absurd h.length_le (Nat.not_le.2 hlong)⟩
    · rename_i hshort
      exact ⟨fun h => ⟨hne, hdigits, Nat.not_lt.1 hshort, Except.ok.inj h⟩,
        fun h => congrArg _ h.value⟩
  · have hnumber : ¬ IsNumber cs n := fun h => hall (List.all_eq_true.2 h.digits)
    rw [if_neg hall, or_iff_right hnumber]
    cases hparts : parts? cs with
    | none =>
      refine ⟨nofun, ?_⟩
      rintro ⟨ps, hps, -⟩
      cases hparts.symm.trans hps.parts?
    | some ps =>
      obtain ⟨hwritten, hchars⟩ := parts?_eq_some.1 hparts
      have hmade : IsMadeOf cs ps := by
        refine ⟨?_, hwritten, hchars⟩
        rintro rfl
        exact hne hchars.symm
      dsimp only
      constructor
      · intro h
        refine ⟨ps, hmade, Amount.toNat?_eq_some.1 ?_⟩
        split at h
        · cases h
        · rename_i m hm
          rw [hm, Except.ok.inj h]
      · rintro ⟨qs, hqs, hsum⟩
        obtain rfl : qs = ps := Option.some.inj (hqs.parts?.symm.trans hparts)
        simp only [Amount.toNat?_eq_some.2 hsum]

theorem read_of_isBlank {raw : String} (h : IsBlank raw) : read raw = .ok none := by
  rw [read, ← trimmed, h]

theorem read_of_not_isBlank {raw : String} (h : ¬ IsBlank raw) :
    read raw = (readTrimmed raw (trimmed raw)).map some := by
  rw [read, ← trimmed]
  split
  · rename_i hnil
    exact absurd hnil h
  · rfl

theorem read_eq_none {raw : String} : read raw = .ok none ↔ IsBlank raw := by
  refine ⟨fun h => ?_, read_of_isBlank⟩
  by_contra hblank
  rw [read_of_not_isBlank hblank] at h
  cases hread : readTrimmed raw (trimmed raw) with
  | error e =>
    rw [hread] at h
    cases h
  | ok n =>
    rw [hread] at h
    cases Except.ok.inj h

/-- The sums of a duration never have to be rounded. -/
def IsExact (raw : String) : Prop := ∀ ps, IsMadeOf (trimmed raw) ps → FitsPrecision ps

/-- The parts of a text are those that are found in it. -/
theorem isExact_of_parts? {raw : String} {ps : List Part} (hparts : parts? (trimmed raw) = some ps)
    (h : FitsPrecision ps) : IsExact raw := by
  intro qs hqs
  obtain rfl : qs = ps := Option.some.inj (hqs.parts?.symm.trans hparts)
  exact h

theorem IsMadeOf.chars_ne_nil {cs : List Char} {ps : List Part} (h : IsMadeOf cs ps) :
    cs ≠ [] := by
  rintro rfl
  exact h.not_all rfl

/-- A text in parts is no number, and there is no other way to divide it. -/
theorem IsMadeOf.number_or_exists_iff {cs : List Char} {ps : List Part} {n : Nat}
    (h : IsMadeOf cs ps) (P : List Part → Prop) :
    (IsNumber cs n ∨ ∃ qs, IsMadeOf cs qs ∧ P qs) ↔ P ps := by
  constructor
  · rintro (hnumber | ⟨qs, hqs, hP⟩)
    · exact absurd (List.all_eq_true.2 hnumber.digits) h.not_all
    · obtain rfl : qs = ps := Option.some.inj (hqs.parts?.symm.trans h.parts?)
      exact hP
  · exact fun hP => Or.inr ⟨ps, h, hP⟩

/-- A text in parts denotes their total and nothing else. -/
theorem denotes_iff_of_parts? {raw : String} {ps : List Part} {n : Nat} (hne : ps ≠ [])
    (h : parts? (trimmed raw) = some ps) : Denotes raw n ↔ exactTotal ps = n := by
  obtain ⟨hwritten, hchars⟩ := parts?_eq_some.1 h
  exact IsMadeOf.number_or_exists_iff ⟨hne, hwritten, hchars⟩ fun qs => exactTotal qs = n

/-- A text is read as the number that it is, or as the total of its parts as it is added up. -/
theorem read_eq_some_total {raw : String} {n : Nat} :
    read raw = .ok (some n)
      ↔ IsNumber (trimmed raw) n ∨ ∃ ps, IsMadeOf (trimmed raw) ps ∧ (total ps).value = n := by
  by_cases hblank : IsBlank raw
  · rw [read_of_isBlank hblank]
    constructor
    · intro hread
      cases Except.ok.inj hread
    · rintro (hnumber | ⟨ps, hmade, -⟩)
      · exact absurd hblank hnumber.ne_nil
      · exact absurd hblank hmade.chars_ne_nil
  · rw [read_of_not_isBlank hblank, ← readTrimmed_eq_ok raw hblank]
    cases readTrimmed raw (trimmed raw) with
    | error e => exact ⟨nofun, nofun⟩
    | ok m =>
      constructor
      · intro hread
        exact congrArg _ (Option.some.inj (Except.ok.inj hread))
      · intro hread
        rw [Except.ok.inj hread]
        rfl

/-- A duration whose sums are not rounded is read as the whole seconds that it denotes. -/
theorem read_eq_some {raw : String} {n : Nat} (h : IsExact raw) :
    read raw = .ok (some n) ↔ Denotes raw n := by
  rw [read_eq_some_total, Denotes]
  refine or_congr_right (exists_congr fun ps => and_congr_right fun hps => ?_)
  rw [value_total (h ps hps)]

/-- The text is blank, or it denotes whole seconds that fit into 64 bits with a sign. -/
def IsSendable (raw : String) : Prop :=
  IsBlank raw ∨ ∃ n, Denotes raw n ∧ n ≤ 0x7FFFFFFFFFFFFFFF

theorem isSendable_iff {raw : String} (h : IsExact raw) :
    IsSendable raw
      ↔ read raw = .ok none ∨ ∃ n, read raw = .ok (some n) ∧ n ≤ 0x7FFFFFFFFFFFFFFF := by
  rw [IsSendable, read_eq_none]
  refine or_congr_right (exists_congr fun n => and_congr_left fun _ => ?_)
  exact (read_eq_some h).symm

end Trialnet.Duration
