import Mathlib.Data.List.TakeWhile
import Trialnet.Proofs.Json.Numerals

/-!
# Doubles are read back

The shortest decimal of a double is written without the zeros at its end, positionally or with
an exponent.  Each layout is the text of some numeral parts, and whatever the layout, the parts
denote the digits with the point where the leading exponent puts it.  So a double is read back
from its text: bit for bit, the sign of a zero included.
-/

namespace Trialnet.Json

open Binary64 (ofDecimal positional scientific dropTrailingZeros)

/-! ### The parts of a layout -/

/-- The digits of a number other than zero: the first of them is no zero. -/
structure IsSignificant (ds : List Char) : Prop where
  ne_nil : ds ≠ []
  digits : ∀ c ∈ ds, c.isDigit = true
  head : ds.head? ≠ some '0'

/-- The parts are those of a number with a fraction or an exponent, and they denote the digits
`ds` with the point after the leading digit moved by `lead` places. -/
structure NumeralParts.Denotes (p : NumeralParts) (ds : List Char) (lead : Int) : Prop where
  isWritten : p.IsWritten
  isDouble : ¬ (p.fraction = [] ∧ p.exponent = none)
  value : ∀ s, ofDecimal s (Numeral.value (p.whole ++ p.fraction))
    (p.exponent.getD 0 - p.fraction.length) = ofDecimal s (Numeral.value ds) (lead + 1 - ds.length)

/-- The parts of a number below one that is written positionally. -/
def smallParts (s : Bool) (ds : List Char) (lead : Int) : NumeralParts :=
  ⟨s, ['0'], List.replicate (-lead - 1).toNat '0' ++ ds, none⟩

/-- The parts of a number that is written positionally with `w` digits before the point. -/
def positionalParts (s : Bool) (ds : List Char) (w : Nat) : NumeralParts :=
  ⟨s, ds.take w ++ List.replicate (w - ds.length) '0',
    if (ds.drop w).isEmpty then ['0'] else ds.drop w, none⟩

/-- The parts of a number that is written with an exponent. -/
def scientificParts (s : Bool) (ds : List Char) (lead : Int) : NumeralParts :=
  ⟨s, ds.take 1, ds.drop 1, some lead⟩

section Layouts

variable (s : Bool) {ds : List Char} {lead : Int}

theorem fractionChars_of_ne_nil {ds : List Char} (h : ds ≠ []) : fractionChars ds = '.' :: ds := by
  obtain ⟨d, ds, rfl⟩ := List.exists_cons_of_ne_nil h
  rfl

theorem chars_smallParts (hds : IsSignificant ds) (hlead : lead < 0) :
    (smallParts s ds lead).chars = (if s then ['-'] else []) ++ positional ds lead := by
  have hne : List.replicate (-lead - 1).toNat '0' ++ ds ≠ [] := by simp [hds.ne_nil]
  simp only [NumeralParts.chars, NumeralParts.charsWith, smallParts, fractionChars_of_ne_nil hne,
    exponentChars, positional, hlead, if_true, List.append_nil, List.cons_append, List.nil_append]
  rfl

theorem denotes_smallParts (hds : IsSignificant ds) (hlead : lead < 0) :
    (smallParts s ds lead).Denotes ds lead where
  isWritten :=
    { whole_ne_nil := by simp [smallParts]
      whole_digits := by simp [smallParts]
      whole_head := fun _ => rfl
      fraction_digits := by
        intro c hc
        rcases List.mem_append.1 hc with hc | hc
        · rw [List.eq_of_mem_replicate hc]
          rfl
        · exact hds.digits c hc }
  isDouble := by simp [smallParts, hds.ne_nil]
  value := by
    intro s'
    have hvalue : Numeral.value (['0'] ++ (List.replicate (-lead - 1).toNat '0' ++ ds))
        = Numeral.value ds := by
      rw [List.singleton_append, Numeral.value_zero_cons, Numeral.value_zeros_append]
    simp only [smallParts, hvalue, Option.getD_none, List.length_append, List.length_replicate]
    congr 1
    omega

theorem chars_positionalParts (hlead : ¬ lead < 0) :
    (positionalParts s ds (lead + 1).toNat).chars
      = (if s then ['-'] else []) ++ positional ds lead := by
  have hne : (if (ds.drop (lead + 1).toNat).isEmpty then ['0'] else ds.drop (lead + 1).toNat)
      ≠ [] := by
    split
    · simp
    · rename_i h
      simpa using h
  simp only [NumeralParts.chars, NumeralParts.charsWith, positionalParts,
    fractionChars_of_ne_nil hne, exponentChars, positional, hlead, if_false, List.append_nil]
  rfl

/-- The point stands inside the digits. -/
theorem value_positionalParts_of_lt {w : Nat} (hlong : w < ds.length) (s' : Bool) :
    ofDecimal s'
        (Numeral.value ((positionalParts s ds w).whole ++ (positionalParts s ds w).fraction))
        (-(positionalParts s ds w).fraction.length)
      = ofDecimal s' (Numeral.value ds) (w - ds.length) := by
  have hdrop : ¬ (ds.drop w).isEmpty := by
    rw [List.isEmpty_iff, List.drop_eq_nil_iff]
    omega
  have hzeros : w - ds.length = 0 := by omega
  simp only [positionalParts, hdrop, if_false, hzeros, List.replicate_zero, List.append_nil,
    List.take_append_drop, List.length_drop, Bool.false_eq_true]
  congr 1
  omega

/-- The point stands behind the digits and some zeros. -/
theorem value_positionalParts_of_le {w : Nat} (hshort : ds.length ≤ w) (s' : Bool) :
    ofDecimal s'
        (Numeral.value ((positionalParts s ds w).whole ++ (positionalParts s ds w).fraction))
        (-(positionalParts s ds w).fraction.length)
      = ofDecimal s' (Numeral.value ds) (w - ds.length) := by
  have hdrop : (ds.drop w).isEmpty := by
    rw [List.isEmpty_iff, List.drop_eq_nil_iff]
    exact hshort
  have hwhole : ds.take w = ds := List.take_of_length_le hshort
  -- the digit of the fraction is one zero more
  have hvalue : Numeral.value (ds ++ List.replicate (w - ds.length) '0' ++ ['0'])
      = Numeral.value ds * 10 ^ (w - ds.length + 1) := by
    rw [List.append_assoc, ← List.replicate_succ', Numeral.value_append_zeros]
  simp only [positionalParts, hdrop, if_true, hwhole, hvalue, List.length_singleton,
    Binary64.ofDecimal_mul_pow]
  congr 1
  omega

theorem isWritten_positionalParts (hds : IsSignificant ds) {w : Nat} (hpos : 0 < w) :
    (positionalParts s ds w).IsWritten := by
  obtain ⟨d, tail, rfl⟩ := List.exists_cons_of_ne_nil hds.ne_nil
  have htake : (d :: tail).take w = d :: tail.take (w - 1) := by
    obtain ⟨k, rfl⟩ : ∃ k, w = k + 1 := ⟨w - 1, by omega⟩
    rfl
  refine ⟨?_, ?_, ?_, ?_⟩
  · simp [positionalParts, htake]
  · intro c hc
    rcases List.mem_append.1 hc with hc | hc
    · exact hds.digits c (List.mem_of_mem_take hc)
    · rw [List.eq_of_mem_replicate hc]
      rfl
  · intro h
    exact absurd h (by simpa [positionalParts, htake] using hds.head)
  · intro c hc
    simp only [positionalParts] at hc
    split at hc
    · rw [List.mem_singleton.1 hc]
      rfl
    · exact hds.digits c (List.mem_of_mem_drop hc)

theorem denotes_positionalParts (hds : IsSignificant ds) (hlead : ¬ lead < 0) :
    (positionalParts s ds (lead + 1).toNat).Denotes ds lead := by
  obtain ⟨w, hw, hpos⟩ : ∃ w : Nat, lead + 1 = w ∧ 0 < w := ⟨(lead + 1).toNat, by omega, by omega⟩
  rw [hw, Int.toNat_natCast]
  refine ⟨isWritten_positionalParts s hds hpos, ?_, fun s' => ?_⟩
  · -- the fraction is a zero where there are no digits for it
    simp only [positionalParts, and_true]
    split
    · simp
    · rename_i h
      simpa using h
  · rw [hw, show (positionalParts s ds w).exponent = none from rfl, Option.getD_none, Int.zero_sub]
    by_cases hlong : w < ds.length
    · exact value_positionalParts_of_lt s hlong s'
    · exact value_positionalParts_of_le s (Nat.not_lt.1 hlong) s'

theorem chars_scientificParts (hds : IsSignificant ds) :
    (scientificParts s ds lead).chars = (if s then ['-'] else []) ++ scientific ds lead := by
  obtain ⟨d, tail, rfl⟩ := List.exists_cons_of_ne_nil hds.ne_nil
  cases tail with
  | nil =>
    simp [NumeralParts.chars, NumeralParts.charsWith, scientificParts, fractionChars, exponentChars,
      scientific]
  | cons c tail =>
    simp [NumeralParts.chars, NumeralParts.charsWith, scientificParts, fractionChars, exponentChars,
      scientific]

theorem denotes_scientificParts (hds : IsSignificant ds) :
    (scientificParts s ds lead).Denotes ds lead := by
  obtain ⟨d, tail, rfl⟩ := List.exists_cons_of_ne_nil hds.ne_nil
  refine ⟨⟨?_, ?_, ?_, ?_⟩, ?_, ?_⟩
  · simp [scientificParts]
  · intro c hc
    exact hds.digits c (List.mem_of_mem_take hc)
  · intro h
    exact absurd h hds.head
  · intro c hc
    exact hds.digits c (List.mem_of_mem_drop hc)
  · simp [scientificParts]
  · intro s'
    simp only [scientificParts, List.take_append_drop, Option.getD_some, List.length_drop]
    congr 1
    simp only [List.length_cons]
    omega

end Layouts

/-! ### The digits of a double -/

/-- The digits of a number other than zero without the zeros at their end. -/
theorem isSignificant_dropTrailingZeros {m : Nat} (hm : m ≠ 0) :
    ∃ z, Numeral.digits m = dropTrailingZeros (Numeral.digits m) ++ List.replicate z '0'
      ∧ IsSignificant (dropTrailingZeros (Numeral.digits m)) := by
  have hsplit : Numeral.digits m = dropTrailingZeros (Numeral.digits m)
      ++ ((Numeral.digits m).reverse.takeWhile (· == '0')).reverse := by
    rw [dropTrailingZeros, ← List.reverse_append, List.takeWhile_append_dropWhile,
      List.reverse_reverse]
  have hzeros : ((Numeral.digits m).reverse.takeWhile (· == '0')).reverse
      = List.replicate ((Numeral.digits m).reverse.takeWhile (· == '0')).length '0' := by
    rw [List.eq_replicate_iff]
    refine ⟨List.length_reverse, fun c hc => ?_⟩
    exact eq_of_beq (List.mem_takeWhile_imp (p := (· == '0')) (List.mem_reverse.1 hc))
  rw [hzeros] at hsplit
  refine ⟨_, hsplit, ?_, ?_, ?_⟩
  · -- a number of zeros only would be zero
    intro hnil
    rw [hnil, List.nil_append] at hsplit
    have := congrArg Numeral.value hsplit
    rw [Numeral.value_digits, Numeral.value_replicate_zero] at this
    exact hm this
  · intro c hc
    refine Numeral.isDigit_of_mem_digits (n := m) ?_
    rw [hsplit]
    exact List.mem_append_left _ hc
  · intro hhead
    refine Numeral.head?_digits hm ?_
    rw [hsplit, List.head?_append, hhead]
    rfl

/-- The text of a decimal other than zero is the text of parts that denote it. -/
theorem exists_parts_decimalText (s : Bool) {m : Nat} (hm : m ≠ 0) (e : Int) :
    ∃ p : NumeralParts, p.negative = s
      ∧ p.chars = (if s then ['-'] else []) ++ Binary64.decimalText m e
      ∧ p.IsWritten ∧ p.value = .ok (.float (ofDecimal s m e)) := by
  obtain ⟨z, hsplit, hds⟩ := isSignificant_dropTrailingZeros hm
  obtain ⟨ds, hds'⟩ : ∃ ds, dropTrailingZeros (Numeral.digits m) = ds := ⟨_, rfl⟩
  obtain ⟨lead, hlead⟩ : ∃ lead, e + (Numeral.digits m).length - 1 = lead := ⟨_, rfl⟩
  rw [hds'] at hsplit hds
  -- the zeros that are not written count for the exponent
  have hback : ofDecimal s (Numeral.value ds) (lead + 1 - ds.length) = ofDecimal s m e := by
    have hvalue : m = Numeral.value ds * 10 ^ z := by
      rw [← Numeral.value_append_zeros, ← hsplit, Numeral.value_digits]
    have hlength : (Numeral.digits m).length = ds.length + z := by simp [hsplit]
    rw [hvalue, Binary64.ofDecimal_mul_pow]
    congr 1
    omega
  have finish : ∀ p : NumeralParts, p.negative = s → p.Denotes ds lead →
      p.IsWritten ∧ p.value = .ok (.float (ofDecimal s m e)) := by
    intro p hs hp
    refine ⟨hp.isWritten, ?_⟩
    rw [NumeralParts.value, if_neg hp.isDouble]
    simp only [hp.value, hs, hback]
  rw [Binary64.decimalText]
  simp only [hds', hlead]
  by_cases hlayout : Binary64.layout.least ≤ lead ∧ lead < Binary64.layout.bound
  · rw [if_pos hlayout]
    by_cases hneg : lead < 0
    · exact ⟨smallParts s ds lead, rfl, chars_smallParts s hds hneg,
        finish _ rfl (denotes_smallParts s hds hneg)⟩
    · exact ⟨positionalParts s ds (lead + 1).toNat, rfl, chars_positionalParts s hneg,
        finish _ rfl (denotes_positionalParts s hds hneg)⟩
  · rw [if_neg hlayout]
    exact ⟨scientificParts s ds lead, rfl, chars_scientificParts s hds,
      finish _ rfl (denotes_scientificParts s hds)⟩

/-! ### Doubles in a document -/

/-- The decimal of a place other than zero is not zero. -/
theorem shortest_ne_zero {p : Nat} (h0 : p ≠ 0) (h : p < placeCount) :
    (Binary64.shortest p).1 ≠ 0 := by
  intro hm
  have hback := Binary64.ofDecimal_shortest h0 h
  rw [hm, ofDecimal, if_pos (Or.inl rfl), Binary64.ofPlace, dif_pos h] at hback
  simp only [Binary64.signedZero, Binary64.finite.injEq, Fin.mk.injEq, true_and] at hback
  exact h0 hback.symm

/-- The text of a finite number is the text of parts that denote it, its sign included. -/
theorem exists_parts_finite (s : Bool) (p : Fin placeCount) :
    ∃ parts : NumeralParts, parts.chars = (Binary64.finite s p).chars ∧ parts.IsWritten
      ∧ parts.value = .ok (.float (.finite s p)) := by
  have hchars : (Binary64.finite s p).chars
      = (if s then ['-'] else []) ++ Binary64.placeText p := by
    cases s <;> rfl
  rw [hchars]
  by_cases h0 : p.val = 0
  · have hp : p = ⟨0, by decide⟩ := Fin.ext h0
    subst hp
    exact ⟨⟨s, ['0'], ['0'], none⟩, rfl, ⟨by simp, by simp, by simp, by simp⟩, rfl⟩
  · rw [Binary64.placeText, if_neg h0]
    obtain ⟨parts, -, hparts, hwritten, hvalue⟩ := exists_parts_decimalText s
      (shortest_ne_zero h0 p.isLt) (Binary64.shortest p).2
    have hback := Binary64.ofDecimal_shortest h0 p.isLt
    rw [Binary64.ofPlace, dif_pos p.isLt] at hback
    have hsigned : ofDecimal s (Binary64.shortest p).1 (Binary64.shortest p).2 = .finite s p := by
      cases s with
      | true => rw [Binary64.ofDecimal_true, hback]; rfl
      | false => exact hback
    exact ⟨parts, hparts, hwritten, hsigned ▸ hvalue⟩

end Trialnet.Json
