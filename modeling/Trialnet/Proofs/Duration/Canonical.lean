import Trialnet.Proofs.Duration.Accuracy
import Trialnet.Proofs.Duration.Seconds

/-!
# The canonical form of a duration

A duration can be written in many ways: `90m`, `1.5h` and `5400` are the same.  The one in which
a number of seconds is written has hours, minutes and seconds in this order, leaves out what is
zero, and has fewer than sixty minutes and seconds.  There is just one such text for each number:
the parts of a clock are determined by their total, and a text in whole seconds that is read as a
number of few digits has been added up without rounding.
-/

namespace Trialnet.Duration

/-- Hours, minutes and seconds in this order, each of them at most once and not zero, and no more
minutes and seconds than a clock shows. -/
structure IsClock (ps : List (Nat × Unit)) : Prop where
  ordered : List.Sublist (ps.map (·.2)) [.hour, .minute, .second]
  pos : ∀ p ∈ ps, 0 < p.1
  lt_sixty : ∀ p ∈ ps, p.2 ≠ .hour → p.1 < 60

/-- The text is written as a clock shows it, each number without zeros in front. -/
def IsCanonical (t : String) : Prop :=
  ∃ ps, ps ≠ [] ∧ IsClock ps ∧ t.toList = ps.flatMap partChars

/-! ### Clocks and their totals -/

theorem isClock_clockParts (n : Nat) : IsClock (clockParts n) := by
  refine ⟨List.filter_sublist.map _, fun p hp => ?_, fun p hp hunit => ?_⟩
  · exact Nat.pos_of_ne_zero (of_decide_eq_true (List.mem_filter.1 hp).2)
  · have hmem := (List.mem_filter.1 hp).1
    simp only [List.mem_cons, List.not_mem_nil, or_false] at hmem
    rcases hmem with rfl | rfl | rfl
    · exact absurd rfl hunit
    · show n % 3600 / 60 < 60
      omega
    · exact Nat.mod_lt n (by decide)

/-- The parts begin with so many of the first unit, unless that is zero. -/
theorem exists_filter_append {ps : List (Nat × Unit)} {u : Unit} {us : List Unit}
    (h : List.Sublist (ps.map (·.2)) (u :: us)) (hpos : ∀ p ∈ ps, 0 < p.1) :
    ∃ n rest, ps = [(n, u)].filter (·.1 ≠ 0) ++ rest ∧ (n = 0 ∨ (n, u) ∈ ps)
      ∧ List.Sublist (rest.map (·.2)) us := by
  cases ps with
  | nil => exact ⟨0, [], rfl, Or.inl rfl, List.nil_sublist us⟩
  | cons p ps =>
    obtain ⟨n, v⟩ := p
    rcases List.cons_sublist_cons'.1 h with hskip | ⟨rfl, hrest⟩
    · exact ⟨0, (n, v) :: ps, rfl, Or.inl rfl, hskip⟩
    · have hne : n ≠ 0 := Nat.ne_of_gt (hpos _ List.mem_cons_self)
      exact ⟨n, ps, by simp [hne], Or.inr List.mem_cons_self, hrest⟩

/-- A clock has so many hours, minutes and seconds, those that are zero left out. -/
theorem IsClock.exists_eq_filter {ps : List (Nat × Unit)} (h : IsClock ps) :
    ∃ a b c, b < 60 ∧ c < 60
      ∧ ps = [(a, Unit.hour), (b, Unit.minute), (c, Unit.second)].filter (·.1 ≠ 0) := by
  have hlt : ∀ n u, u ≠ Unit.hour → n = 0 ∨ (n, u) ∈ ps → n < 60 := by
    rintro n u hunit (rfl | hmem)
    · decide
    · exact h.lt_sixty (n, u) hmem hunit
  obtain ⟨a, afterHours, hps, -, hordered⟩ := exists_filter_append h.ordered h.pos
  have hsub : ∀ p ∈ afterHours, p ∈ ps := fun p hp => hps ▸ List.mem_append_right _ hp
  obtain ⟨b, afterMinutes, hafter, hb, hordered'⟩ :=
    exists_filter_append hordered fun p hp => h.pos p (hsub p hp)
  have hsub' : ∀ p ∈ afterMinutes, p ∈ ps :=
    fun p hp => hsub p (hafter ▸ List.mem_append_right _ hp)
  obtain ⟨c, rest, hlast, hc, hnone⟩ :=
    exists_filter_append hordered' fun p hp => h.pos p (hsub' p hp)
  obtain rfl : rest = [] := List.map_eq_nil_iff.1 (List.sublist_nil.1 hnone)
  refine ⟨a, b, c, hlt b .minute (by decide) (hb.imp_right (hsub _)),
    hlt c .second (by decide) (hc.imp_right (hsub' _)), ?_⟩
  rw [hps, hafter, hlast, List.append_nil, ← List.filter_append, ← List.filter_append]
  rfl

/-- A clock is determined by its total. -/
theorem IsClock.eq_clockParts {ps : List (Nat × Unit)} (h : IsClock ps) :
    ps = clockParts (ps.map wholeSeconds).sum := by
  obtain ⟨a, b, c, hb, hc, rfl⟩ := h.exists_eq_filter
  rw [sum_wholeSeconds_filter]
  simp only [List.map_cons, List.map_nil, wholeSeconds, Unit.seconds, List.sum_cons, List.sum_nil,
    clockParts]
  have hhours : (a * 3600 + (b * 60 + (c * 1 + 0))) / 3600 = a := by omega
  have hminutes : (a * 3600 + (b * 60 + (c * 1 + 0))) % 3600 / 60 = b := by omega
  have hseconds : (a * 3600 + (b * 60 + (c * 1 + 0))) % 60 = c := by omega
  rw [hhours, hminutes, hseconds]

theorem IsClock.exponent_eq_zero {ps : List (Nat × Unit)} (h : IsClock ps) {p : Nat × Unit}
    (hp : p ∈ ps) : p.2.seconds.exponent = 0 := by
  have hmem := h.ordered.subset (List.mem_map_of_mem hp)
  simp only [List.mem_cons, List.not_mem_nil, or_false] at hmem
  rcases hmem with hunit | hunit | hunit <;> rw [hunit] <;> rfl

/-! ### Canonical texts -/

theorem isCanonical_text {n : Nat} (hpos : 0 < n) : IsCanonical (text n) :=
  ⟨clockParts n, clockParts_ne_nil hpos, isClock_clockParts n, toList_text hpos⟩

/-- A canonical text that is read as a number of at most 28 digits is the one in which the number
is written. -/
theorem IsCanonical.eq_text {t : String} {n : Nat} (h : IsCanonical t)
    (hlt : n < 10 ^ Amount.precision) (hread : read t = .ok (some n)) : t = text n := by
  obtain ⟨ps, hne, hclock, ht⟩ := h
  have hmade : IsMadeOf (trimmed t) (ps.map writtenPart) := isMadeOf_of_chars hne ht
  have haccumulates : Accumulates (ps.map writtenPart) n :=
    (hmade.number_or_exists_iff (n := n) fun qs => Accumulates qs n).1
      (read_eq_some_accumulated.1 hread)
  have hnatural : ∀ p ∈ ps.map writtenPart, ∃ k : ℕ, p.exact = k := by
    intro p hp
    obtain ⟨q, hq, rfl⟩ := List.mem_map.1 hp
    exact ⟨_, exact_writtenPart (hclock.exponent_eq_zero hq)⟩
  have htotal := haccumulates.exactTotal_eq hnatural (by exact_mod_cast hlt)
  rw [exactTotal_writtenPart fun p hp => hclock.exponent_eq_zero hp] at htotal
  have hsum : (ps.map wholeSeconds).sum = n := by exact_mod_cast htotal
  have hps : ps = clockParts n := hsum ▸ hclock.eq_clockParts
  have hpos : 0 < n := by
    rcases Nat.eq_zero_or_pos n with rfl | hpos
    · exact absurd hps hne
    · exact hpos
  rw [← String.toList_inj, ht, hps, toList_text hpos]

/-- A positive number of seconds of at most 63 bits is written, and read back from what is written,
and no other number is written so.  What is written is the canonical text of every text that is
read as the number: no other canonical text is read so, and reading and writing it again leaves it
as it is. -/
theorem read_text_canonical {n : ℕ} (hpos : 1 ≤ n) (hle : n ≤ 0x7FFFFFFFFFFFFFFF) :
    write? n = some (text n)
      ∧ read (text n) = .ok (some n)
      ∧ (∀ m : ℕ, 1 ≤ m → m ≤ 0x7FFFFFFFFFFFFFFF → text m = text n → m = n)
      ∧ ∀ t, read t = .ok (some n) →
          IsCanonical (text n) ∧ read (text n) = read t
            ∧ (∀ m : ℕ, read (text n) = .ok (some m) → text m = text n)
            ∧ (IsCanonical t → t = text n) := by
  have hshort : ∀ m : ℕ, m ≤ 0x7FFFFFFFFFFFFFFF → m < 10 ^ Amount.precision := fun m hm =>
    Nat.lt_of_le_of_lt hm (by decide)
  have hback : read (text n) = .ok (some n) := read_clock hpos (hshort n hle)
  have hwrite : write? n = some (text n) := by
    have hhours : ((n : ℤ).toNat / 3600 : ℤ).natAbs < 2 ^ 64 := by omega
    rw [write?, if_pos (Numeral.isWritable_of_natAbs_lt hhours)]
  refine ⟨hwrite, hback, fun m hm hmle heq => ?_, fun t ht => ⟨isCanonical_text hpos, ?_, ?_, ?_⟩⟩
  · have hm' := read_clock hm (hshort m hmle)
    rw [heq, hback] at hm'
    exact (Option.some.inj (Except.ok.inj hm')).symm
  · rw [hback, ht]
  · intro m hm
    rw [Option.some.inj (Except.ok.inj (hm.symm.trans hback))]
  · exact fun hcanonical => hcanonical.eq_text (hshort n hle) ht

/-- Ninety minutes are written as an hour and a half. -/
theorem read_text_canonical_ninetyMinutes :
    1 ≤ 5400 ∧ 5400 ≤ 0x7FFFFFFFFFFFFFFF ∧ read "90m" = .ok (some 5400)
      ∧ write? (5400 : ℕ) = some "1h30m" ∧ IsCanonical "1h30m"
      ∧ read "1h30m" = read "90m" := by
  have htext : text (5400 : ℕ) = "1h30m" := by decide +kernel
  have hread : read "90m" = .ok (some 5400) := by decide +kernel
  obtain ⟨hwrite, -, -, hall⟩ := read_text_canonical (n := 5400) (by decide) (by decide)
  obtain ⟨hcanonical, hsame, -⟩ := hall "90m" hread
  rw [htext] at hwrite hcanonical hsame
  exact ⟨by decide, by decide, hread, hwrite, hcanonical, hsame⟩

end Trialnet.Duration
