import Trialnet.Proofs.Duration.Exact

/-!
# Durations are read back

A number of seconds is written as a plain number on the wire and in hours, minutes and seconds
by a launch.  Both are read back: the first as long as the number is short enough to be read at
all, the second as long as the sum of the parts fits into the 28 digits that are kept.
-/

namespace Trialnet.Text

/-! ### Digits of ASCII -/

theorem digit?_of_isDigit {c : Char} (h : c.isDigit = true) : digit? c = some (c.toNat - 0x30) := by
  rw [digit?, zeroCodes, List.find?_cons_of_pos (by simpa using toNat_of_isDigit h)]
  rfl

theorem isDecimalDigit_of_isDigit {c : Char} (h : c.isDigit = true) : isDecimalDigit c = true := by
  rw [isDecimalDigit, digit?_of_isDigit h]
  rfl

theorem isBlank_of_isDigit {c : Char} (h : c.isDigit = true) : isBlank c = false := by
  obtain ⟨hlow, hhigh⟩ := toNat_of_isDigit h
  have hspace : ∀ n < 0x3A, 0x30 ≤ n → spaceCodes.contains n = false := by decide
  have hseparator : ¬ (0x1C ≤ c.toNat ∧ c.toNat ≤ 0x1F) := by omega
  simp only [isBlank, isSpace, hspace _ hhigh hlow, hseparator, decide_false, Bool.or_self]

theorem foldl_digits {cs : List Char} (h : ∀ c ∈ cs, c.isDigit = true) (n : Nat) :
    cs.foldl (fun n c => 10 * n + (digit? c).getD 0) n = Nat.ofDigitChars 10 cs n := by
  induction cs generalizing n with
  | nil => rfl
  | cons c cs ih =>
    rw [List.foldl_cons, digit?_of_isDigit (h c (by simp)), Option.getD_some,
      Nat.ofDigitChars_cons]
    exact ih (fun d hd => h d (by simp [hd])) _

/-- Digits of ASCII denote the same number as digits of any script. -/
theorem digitsValue_eq_value {cs : List Char} (h : ∀ c ∈ cs, c.isDigit = true) :
    digitsValue cs = Numeral.value cs := foldl_digits h 0

/-! ### Trimming -/

theorem dropWhile_eq_self {p : Char → Bool} {cs : List Char} (h : ∀ c ∈ cs, p c = false) :
    cs.dropWhile p = cs := by
  cases cs with
  | nil => rfl
  | cons c cs => rw [List.dropWhile_cons_of_neg (by simp [h c])]

/-- A text without characters of the class stays as it is. -/
theorem trim_eq_self {p : Char → Bool} {cs : List Char} (h : ∀ c ∈ cs, p c = false) :
    trim p cs = cs := by
  rw [trim, dropWhile_eq_self h, trimEnd, dropWhile_eq_self, List.reverse_reverse]
  intro c hc
  exact h c (List.mem_reverse.1 hc)

end Trialnet.Text

namespace Trialnet.Duration

open Text

/-! ### Plain numbers -/

/-- The decimal text of a natural number is read as so many seconds. -/
theorem read_text {n : Nat} (h : (Numeral.digits n).length ≤ Numeral.maxDigits) :
    read (Numeral.text n) = .ok (some n) := by
  have hdigits : ∀ c ∈ Numeral.digits n, c.isDigit = true := fun _ => Numeral.isDigit_of_mem_digits
  have htrim : trim isBlank (Numeral.digits n) = Numeral.digits n :=
    trim_eq_self fun c hc => isBlank_of_isDigit (hdigits c hc)
  have hall : (Numeral.digits n).all isDecimalDigit = true :=
    List.all_eq_true.2 fun c hc => isDecimalDigit_of_isDigit (hdigits c hc)
  have hread : readTrimmed (Numeral.text n) (Numeral.digits n) = .ok n := by
    rw [readTrimmed, if_pos hall, if_neg (Nat.not_lt.2 h), digitsValue_eq_value hdigits,
      Numeral.value_digits]
  rw [read, Numeral.toList_text, Numeral.chars_natCast, htrim]
  split
  · rename_i hnil
    exact absurd hnil (Numeral.digits_ne_nil n)
  · rw [hread]
    rfl

/-- The text of a negative number is no duration, since nothing that is one begins with a sign. -/
theorem read_text_of_neg {n : Int} (h : n < 0) :
    read (Numeral.text n) = .error (.malformed (Numeral.text n)) := by
  obtain ⟨k, rfl⟩ : ∃ k, n = Int.negSucc k := Int.eq_negSucc_of_lt_zero h
  have htrim : trim isBlank (Numeral.chars (Int.negSucc k)) = '-' :: Numeral.digits (k + 1) := by
    rw [Numeral.chars]
    refine trim_eq_self (List.forall_mem_cons.2 ⟨by decide, fun c hc => ?_⟩)
    exact isBlank_of_isDigit (Numeral.isDigit_of_mem_digits hc)
  have hdigits : ('-' :: Numeral.digits (k + 1)).all isDecimalDigit ≠ true := by
    rw [List.all_cons, show isDecimalDigit '-' = false by decide]
    exact Bool.false_ne_true
  have hparts : parts? ('-' :: Numeral.digits (k + 1)) = none := rfl
  rw [read, Numeral.toList_text, htrim]
  simp only [readTrimmed, if_neg hdigits, hparts]
  rfl

/-! ### Parts -/

/-- A part as it is written: a number and a unit. -/
def partChars (p : Nat × Unit) : List Char := Numeral.digits p.1 ++ p.2.chars

/-- The part that is read from a number and a unit. -/
def writtenPart (p : Nat × Unit) : Part := ⟨Numeral.digits p.1, [], p.2⟩

theorem isWritten_writtenPart (p : Nat × Unit) : (writtenPart p).IsWritten where
  whole_ne_nil := Numeral.digits_ne_nil p.1
  whole := fun _ hc => isDecimalDigit_of_isDigit (Numeral.isDigit_of_mem_digits hc)
  fraction := fun _ hc => absurd hc List.not_mem_nil

/-- Parts that are written one after the other are read one after the other. -/
theorem parts?_parts (ps : List (Nat × Unit)) :
    parts? (ps.flatMap partChars) = some (ps.map writtenPart) := by
  refine parts?_eq_some.2 ⟨fun q hq => ?_, ?_⟩
  · obtain ⟨p, -, rfl⟩ := List.mem_map.1 hq
    exact isWritten_writtenPart p
  · rw [List.flatMap_map]
    rfl

/-- The seconds of a written part, if its unit is a whole number of seconds. -/
def wholeSeconds (p : Nat × Unit) : Nat := p.1 * p.2.seconds.coefficient

theorem exact_writtenPart {p : Nat × Unit} (hunit : p.2.seconds.exponent = 0) :
    (writtenPart p).exact = wholeSeconds p := by
  have hvalue : digitsValue (Numeral.digits p.1) = p.1 := by
    rw [digitsValue_eq_value fun _ hc => Numeral.isDigit_of_mem_digits hc, Numeral.value_digits]
  rw [Part.exact, ← Unit.value_seconds, Amount.value]
  simp [writtenPart, hvalue, hunit, wholeSeconds]

theorem exactTotal_writtenPart {ps : List (Nat × Unit)}
    (h : ∀ p ∈ ps, p.2.seconds.exponent = 0) :
    exactTotal (ps.map writtenPart) = (ps.map wholeSeconds).sum := by
  induction ps with
  | nil => simp [exactTotal]
  | cons p ps ih =>
    have hps := ih fun q hq => h q (List.mem_cons_of_mem _ hq)
    rw [exactTotal] at hps
    rw [List.map_cons, exactTotal, List.map_cons, List.sum_cons, hps,
      exact_writtenPart (h p List.mem_cons_self), List.map_cons, List.sum_cons, Nat.cast_add]

/-! ### Hours, minutes and seconds -/

/-- The parts in which a positive number of seconds is written. -/
def clockParts (n : Nat) : List (Nat × Unit) :=
  [(n / 3600, Unit.hour), (n % 3600 / 60, Unit.minute), (n % 60, Unit.second)].filter (·.1 ≠ 0)

theorem partText_eq (n : Nat) (u : Unit) {c : Char} (h : u.chars = [c]) :
    partText n c = ([(n, u)].filter (·.1 ≠ 0)).flatMap partChars := by
  by_cases hn : n = 0
  · simp [partText, hn]
  · simp [partText, hn, partChars, h]

theorem chars_eq_clockParts {n : Nat} (h : 0 < n) :
    chars n = (clockParts n).flatMap partChars := by
  have hpos : ¬ (n : Int) ≤ 0 := by omega
  have hsplit : clockParts n = [(n / 3600, Unit.hour)].filter (·.1 ≠ 0)
      ++ ([(n % 3600 / 60, Unit.minute)].filter (·.1 ≠ 0)
        ++ [(n % 60, Unit.second)].filter (·.1 ≠ 0)) := by
    rw [← List.filter_append, ← List.filter_append]
    rfl
  simp only [chars, hpos, if_false, Int.toNat_natCast, partText_eq _ Unit.hour rfl,
    partText_eq _ Unit.minute rfl, partText_eq _ Unit.second rfl, hsplit, List.flatMap_append,
    List.append_assoc]

/-- Parts that are left out because they are zero do not count. -/
theorem sum_wholeSeconds_filter (ps : List (Nat × Unit)) :
    ((ps.filter (·.1 ≠ 0)).map wholeSeconds).sum = (ps.map wholeSeconds).sum := by
  induction ps with
  | nil => rfl
  | cons p ps ih =>
    by_cases hp : p.1 = 0
    · simpa [hp, wholeSeconds] using ih
    · simpa [hp] using ih

theorem sum_clockParts (n : Nat) : ((clockParts n).map wholeSeconds).sum = n := by
  rw [clockParts, sum_wholeSeconds_filter]
  simp only [List.map_cons, List.map_nil, wholeSeconds, Unit.seconds, List.sum_cons, List.sum_nil]
  omega

theorem exponent_clockParts {n : Nat} {p : Nat × Unit} (hp : p ∈ clockParts n) :
    p.2.seconds.exponent = 0 := by
  have hmem := (List.mem_filter.1 hp).1
  simp only [List.mem_cons, List.not_mem_nil, or_false] at hmem
  rcases hmem with rfl | rfl | rfl <;> rfl

theorem clockParts_ne_nil {n : Nat} (h : 0 < n) : clockParts n ≠ [] := by
  intro hnil
  have hsum := sum_clockParts n
  rw [hnil] at hsum
  exact Nat.ne_of_lt h hsum

theorem isBlank_of_mem_unitChars (u : Unit) : ∀ c ∈ u.chars, isBlank c = false := by
  -- as a computation over the list, since deciding the statement itself may go through all
  -- characters
  have h : u.chars.all (fun c => !isBlank c) = true := by cases u <;> decide
  intro c hc
  simpa using List.all_eq_true.1 h c hc

/-- No written part has a blank. -/
theorem isBlank_of_mem_partChars {p : Nat × Unit} {c : Char} (h : c ∈ partChars p) :
    isBlank c = false := by
  rcases List.mem_append.1 h with hc | hc
  · exact isBlank_of_isDigit (Numeral.isDigit_of_mem_digits hc)
  · exact isBlank_of_mem_unitChars p.2 c hc

/-- A text that is written in parts is made of them. -/
theorem isMadeOf_of_chars {t : String} {ps : List (Nat × Unit)} (hne : ps ≠ [])
    (ht : t.toList = ps.flatMap partChars) : IsMadeOf (trimmed t) (ps.map writtenPart) := by
  have htrim : trimmed t = ps.flatMap partChars := by
    rw [trimmed, ht]
    refine trim_eq_self fun c hc => ?_
    obtain ⟨p, -, hp⟩ := List.mem_flatMap.1 hc
    exact isBlank_of_mem_partChars hp
  obtain ⟨hwritten, hchars⟩ := parts?_eq_some.1 (parts?_parts ps)
  refine ⟨fun hnil => hne (List.map_eq_nil_iff.1 hnil), hwritten, ?_⟩
  rw [hchars, htrim]

/-- A positive number of seconds is written in parts. -/
theorem toList_text {n : Nat} (hpos : 0 < n) :
    (text n).toList = (clockParts n).flatMap partChars := by
  rw [text, String.toList_ofList, chars_eq_clockParts hpos]

theorem isMadeOf_text {n : Nat} (hpos : 0 < n) :
    IsMadeOf (trimmed (text n)) ((clockParts n).map writtenPart) :=
  isMadeOf_of_chars (clockParts_ne_nil hpos) (toList_text hpos)

theorem exactTotal_clockParts (n : Nat) : exactTotal ((clockParts n).map writtenPart) = n := by
  rw [exactTotal_writtenPart fun p => exponent_clockParts, sum_clockParts]

/-- Nothing is rounded, since every running sum is at most the whole. -/
theorem isExact_text {n : Nat} (hpos : 0 < n) (h : n < 10 ^ Amount.precision) :
    IsExact (text n) := by
  refine isExact_of_parts? (isMadeOf_text hpos).parts? (fitsPrecision_of_natural ?_ ?_)
  · intro q hq
    obtain ⟨p, hp, rfl⟩ := List.mem_map.1 hq
    exact ⟨_, exact_writtenPart (exponent_clockParts hp)⟩
  · rw [exactTotal_clockParts]
    exact_mod_cast h

/-- A positive number of seconds is read back from its hours, minutes and seconds. -/
theorem read_clock {n : Nat} (hpos : 0 < n) (h : n < 10 ^ Amount.precision) :
    read (text n) = .ok (some n) :=
  (read_eq_some (isExact_text hpos h)).2
    (Or.inr ⟨_, isMadeOf_text hpos, exactTotal_clockParts n⟩)

end Trialnet.Duration
