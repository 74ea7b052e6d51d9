import Trialnet.Proofs.Binary64.Decimals
import Trialnet.Json.Printer
import Trialnet.Json.Reader

/-!
# Numerals

A numeral is a text `NumeralParts.charsWith` of parts that are written as they should be, with the
text of an exponent (`IsExponent`).  Only such texts are read as numerals, and each of them is read
as far as it goes, in front of anything that cannot continue it.  Integers and doubles are both
printed as `NumeralParts.chars` of some parts, and so they are read back.
-/

namespace Trialnet.Json

/-! ### What may follow a value -/

/-- The text after a value inside a document: nothing, a blank, a comma or a closing bracket. -/
def Delimited (rest : List Char) : Prop :=
  ∀ c ∈ rest.head?, isBlank c = true ∨ c = ',' ∨ c = ']' ∨ c = '\x7d'

@[simp] theorem delimited_nil : Delimited [] := by simp [Delimited]

theorem delimited_cons {c : Char} (h : isBlank c = true ∨ c = ',' ∨ c = ']' ∨ c = '\x7d')
    (rest : List Char) : Delimited (c :: rest) := by
  intro x hx
  rw [List.head?_cons, Option.mem_some_iff] at hx
  exact hx ▸ h

/-- A blank is one of four characters. -/
theorem isBlank_iff {c : Char} :
    isBlank c = true ↔ c = ' ' ∨ c = '\t' ∨ c = '\n' ∨ c = '\r' := by
  simp [isBlank, or_assoc]

/-- None of the characters after a value could be part of a numeral. -/
theorem Delimited.ne {rest : List Char} (h : Delimited rest) {c : Char} (hc : c ∈ rest.head?) :
    c.isDigit = false ∧ c ≠ '.' ∧ c ≠ 'e' ∧ c ≠ 'E' := by
  rcases h c hc with hblank | rfl | rfl | rfl
  · rcases isBlank_iff.1 hblank with rfl | rfl | rfl | rfl <;> decide
  all_goals decide

/-- A run of digits ends before the given characters. -/
def StopsDigits (rest : List Char) : Prop := ∀ c ∈ rest.head?, c.isDigit = false

theorem stopsDigits_cons {c : Char} (h : c.isDigit = false) (rest : List Char) :
    StopsDigits (c :: rest) := by
  intro x hx
  rw [List.head?_cons, Option.mem_some_iff] at hx
  exact hx ▸ h

theorem Delimited.stopsDigits {rest : List Char} (h : Delimited rest) : StopsDigits rest :=
  fun _ hc => (h.ne hc).1

/-! ### Runs of digits -/

theorem digitRun_append {ds rest : List Char} (hds : ∀ c ∈ ds, c.isDigit = true)
    (hrest : StopsDigits rest) : digitRun (ds ++ rest) = (ds, rest) := by
  have htake : rest.takeWhile Char.isDigit = [] := by
    cases rest with
    | nil => rfl
    | cons c rest => simp [hrest c (by simp)]
  have hdrop : rest.dropWhile Char.isDigit = rest := by
    cases rest with
    | nil => rfl
    | cons c rest => simp [hrest c (by simp)]
  rw [digitRun, List.takeWhile_append_of_pos hds, List.dropWhile_append_of_pos hds, htake, hdrop,
    List.append_nil]

/-- A run of digits holds digits only, and nothing is lost. -/
theorem eq_append_of_digitRun {cs ds rest : List Char} (h : digitRun cs = (ds, rest)) :
    cs = ds ++ rest ∧ ∀ c ∈ ds, c.isDigit = true := by
  obtain ⟨rfl, rfl⟩ := Prod.mk.inj h
  exact ⟨List.takeWhile_append_dropWhile.symm, List.all_eq_true.1 List.all_takeWhile⟩

/-! ### Exponents -/

/-- The sign of an exponent, and whether it is a minus. -/
inductive IsSign : List Char → Bool → Prop
  | none : IsSign [] false
  | plus : IsSign ['+'] false
  | minus : IsSign ['-'] true

/-- The text of an exponent: nothing, or a letter, perhaps a sign, and at least one digit. -/
inductive IsExponent : List Char → Option Int → Prop
  | absent : IsExponent [] none
  | present {letter : Char} {sign ds : List Char} {negative : Bool}
      (hletter : letter = 'e' ∨ letter = 'E') (hsign : IsSign sign negative) (hne : ds ≠ [])
      (hds : ∀ c ∈ ds, c.isDigit = true) :
      IsExponent (letter :: (sign ++ ds))
        (some (if negative then -(Numeral.value ds : Int) else Numeral.value ds))

theorem exponentDigits_append (negative : Bool) {ds rest : List Char} (hne : ds ≠ [])
    (hds : ∀ c ∈ ds, c.isDigit = true) (hrest : StopsDigits rest) :
    exponentDigits negative (ds ++ rest)
      = some (if negative then -(Numeral.value ds : Int) else Numeral.value ds, rest) := by
  rw [exponentDigits, digitRun_append hds hrest]
  split
  · rename_i heq
    exact absurd (Prod.mk.inj heq).1 hne
  · rename_i heq
    obtain ⟨rfl, rfl⟩ := Prod.mk.inj heq
    rfl

/-- An exponent is read back from in front of whatever may follow a value. -/
theorem exponent_append {text : List Char} {e : Option Int} (h : IsExponent text e)
    {rest : List Char} (hrest : Delimited rest) : exponent (text ++ rest) = (e, rest) := by
  cases h with
  | absent =>
    cases rest with
    | nil => rfl
    | cons c rest =>
      obtain ⟨-, -, he, hE⟩ := hrest.ne (c := c) (by simp)
      simp only [List.nil_append, exponent, he, hE, or_self, if_false]
  | @present letter sign ds negative hletter hsign hne hds =>
    have hread := exponentDigits_append negative hne hds hrest.stopsDigits
    cases hsign with
    | none =>
      -- no digit is a sign
      obtain ⟨d, ds, rfl⟩ := List.exists_cons_of_ne_nil hne
      have hd := hds d (by simp)
      have hminus : d ≠ '-' := by
        rintro rfl
        exact absurd hd (by decide)
      have hplus : d ≠ '+' := by
        rintro rfl
        exact absurd hd (by decide)
      rw [List.cons_append] at hread
      simp [exponent, hletter, hread, hminus, hplus]
    | plus => simp only [List.cons_append, List.nil_append, exponent, hletter, if_true, hread]
    | minus => simp only [List.cons_append, List.nil_append, exponent, hletter, if_true, hread]

theorem exists_of_exponentDigits {negative : Bool} {cs rest : List Char} {n : Int}
    (h : exponentDigits negative cs = some (n, rest)) :
    ∃ ds, ds ≠ [] ∧ (∀ c ∈ ds, c.isDigit = true) ∧ cs = ds ++ rest
      ∧ n = if negative then -(Numeral.value ds : Int) else Numeral.value ds := by
  rw [exponentDigits] at h
  split at h
  · cases h
  · rename_i ds rest' hne hrun
    obtain ⟨rfl, rfl⟩ := Prod.mk.inj (Option.some.inj h)
    obtain ⟨hcs, hds⟩ := eq_append_of_digitRun hrun
    refine ⟨ds, ?_, hds, hcs, rfl⟩
    rintro rfl
    exact hne rfl

/-- The exponent that is read is the text in front of the rest. -/
theorem isExponent_of_exponent {cs rest : List Char} {e : Option Int}
    (h : exponent cs = (e, rest)) : ∃ text, IsExponent text e ∧ cs = text ++ rest := by
  unfold exponent at h
  dsimp only at h
  split at h
  · rename_i n rest' hfound
    obtain ⟨rfl, rfl⟩ := Prod.mk.inj h
    split at hfound
    · split at hfound
      · rename_i letter after hletter
        -- by the sign
        split at hfound
        · obtain ⟨ds, hne, hds, rfl, rfl⟩ := exists_of_exponentDigits hfound
          exact ⟨_, .present hletter .minus hne hds, rfl⟩
        · obtain ⟨ds, hne, hds, rfl, rfl⟩ := exists_of_exponentDigits hfound
          exact ⟨_, .present hletter .plus hne hds, rfl⟩
        · obtain ⟨ds, hne, hds, rfl, rfl⟩ := exists_of_exponentDigits hfound
          exact ⟨_, .present hletter .none hne hds, rfl⟩
      · cases hfound
    · cases hfound
  · obtain ⟨rfl, rfl⟩ := Prod.mk.inj h
    exact ⟨[], .absent, rfl⟩

/-- What follows a fraction: an exponent or the rest of the document. -/
theorem IsExponent.head? {text : List Char} {e : Option Int} (h : IsExponent text e)
    {rest : List Char} (hrest : Delimited rest) :
    StopsDigits (text ++ rest) ∧ (text ++ rest).head? ≠ some '.' := by
  cases h with
  | absent => exact ⟨hrest.stopsDigits, fun hpoint => (hrest.ne hpoint).2.1 rfl⟩
  | present hletter hsign hne hds =>
    rcases hletter with rfl | rfl <;> exact ⟨stopsDigits_cons rfl _, by simp⟩

/-! ### Numerals as they are written -/

/-- The point and the digits after it. -/
def fractionChars : List Char → List Char
  | [] => []
  | d :: ds => '.' :: d :: ds

/-- The text of a numeral with the given text of its exponent. -/
def NumeralParts.charsWith (p : NumeralParts) (exponentText : List Char) : List Char :=
  (if p.negative then ['-'] else []) ++ (p.whole ++ (fractionChars p.fraction ++ exponentText))

/-- The parts are digits, and a zero in front stands alone. -/
structure NumeralParts.IsWritten (p : NumeralParts) : Prop where
  whole_ne_nil : p.whole ≠ []
  whole_digits : ∀ c ∈ p.whole, c.isDigit = true
  /-- Only the numeral of zero begins with a zero. -/
  whole_head : p.whole.head? = some '0' → p.whole = ['0']
  fraction_digits : ∀ c ∈ p.fraction, c.isDigit = true

theorem fraction_fractionChars {ds rest : List Char} (hds : ∀ c ∈ ds, c.isDigit = true)
    (hrest : StopsDigits rest) (hpoint : rest.head? ≠ some '.') :
    fraction (fractionChars ds ++ rest) = (ds, rest) := by
  cases ds with
  | nil =>
    rw [fractionChars, List.nil_append, fraction]
    rintro rest rfl
    exact hpoint rfl
  | cons d ds =>
    have hrun := digitRun_append hds hrest
    simp only [fractionChars, List.cons_append] at hrun ⊢
    simp only [fraction, hrun]

/-- What follows the digits before the point. -/
theorem stopsDigits_fractionChars (ds : List Char) {rest : List Char} (hrest : StopsDigits rest) :
    StopsDigits (fractionChars ds ++ rest) := by
  cases ds with
  | nil => exact hrest
  | cons d ds => exact stopsDigits_cons rfl _

/-- The digits before the point are read as far as they go. -/
theorem wholePart_append {whole rest : List Char} (hne : whole ≠ [])
    (hdigits : ∀ c ∈ whole, c.isDigit = true) (hhead : whole.head? = some '0' → whole = ['0'])
    (hrest : StopsDigits rest) : wholePart (whole ++ rest) = (whole, rest) := by
  obtain ⟨d, ds, rfl⟩ := List.exists_cons_of_ne_nil hne
  by_cases hd : d = '0'
  · subst hd
    rw [hhead rfl]
    rfl
  · rw [← digitRun_append hdigits hrest, wholePart]
    rintro tail heq
    exact hd (List.cons.inj heq).1

/-- A minus sign is found in front of a digit if it is there. -/
theorem minusSign_append (negative : Bool) {d : Char} (hd : d.isDigit = true) (rest : List Char) :
    minusSign ((if negative then ['-'] else []) ++ d :: rest) = (negative, d :: rest) := by
  cases negative with
  | true => rfl
  | false =>
    have hne : d ≠ '-' := by
      rintro rfl
      exact absurd hd (by decide)
    simp only [Bool.false_eq_true, if_false, List.nil_append]
    rw [minusSign]
    rintro tail heq
    exact hne (List.cons.inj heq).1

/-- A numeral is read back from in front of whatever may follow it in a document. -/
theorem numeral?_charsWith {p : NumeralParts} (hp : p.IsWritten) {expo : List Char}
    (hexpo : IsExponent expo p.exponent) {rest : List Char} (hrest : Delimited rest) :
    numeral? (p.charsWith expo ++ rest) = some (p, rest) := by
  obtain ⟨negative, whole, frac, e⟩ := p
  obtain ⟨hne, hwhole, hhead, hfrac⟩ := hp
  dsimp only at hne hwhole hhead hfrac hexpo
  obtain ⟨hstops, hpoint⟩ := hexpo.head? hrest
  have hexpo' := exponent_append hexpo hrest
  have hfrac' := fraction_fractionChars hfrac hstops hpoint
  have hwhole' := wholePart_append hne hwhole hhead (stopsDigits_fractionChars frac hstops)
  obtain ⟨d, ds, rfl⟩ := List.exists_cons_of_ne_nil hne
  have hsign := minusSign_append negative (hwhole d (by simp))
    (ds ++ (fractionChars frac ++ (expo ++ rest)))
  simp only [NumeralParts.charsWith, List.append_assoc, List.cons_append] at hwhole' hsign ⊢
  simp only [numeral?, hsign, hwhole', hfrac', hexpo']

/-! ### Numerals as they are read -/

theorem eq_append_of_minusSign {cs rest : List Char} {negative : Bool}
    (h : minusSign cs = (negative, rest)) : cs = (if negative then ['-'] else []) ++ rest := by
  unfold minusSign at h
  split at h
  · obtain ⟨rfl, rfl⟩ := Prod.mk.inj h
    rfl
  · obtain ⟨rfl, rfl⟩ := Prod.mk.inj h
    rfl

/-- The digits before the point, and a zero among them in front stands alone. -/
theorem eq_append_of_wholePart {cs whole rest : List Char} (h : wholePart cs = (whole, rest)) :
    cs = whole ++ rest ∧ (∀ c ∈ whole, c.isDigit = true)
      ∧ (whole.head? = some '0' → whole = ['0']) := by
  unfold wholePart at h
  split at h
  · obtain ⟨rfl, rfl⟩ := Prod.mk.inj h
    exact ⟨rfl, fun c hc => by rw [List.mem_singleton.1 hc]; rfl, fun _ => rfl⟩
  · rename_i hzero
    obtain ⟨rfl, hdigits⟩ := eq_append_of_digitRun h
    refine ⟨rfl, hdigits, fun hhead => ?_⟩
    obtain ⟨tail, rfl⟩ := List.head?_eq_some_iff.1 hhead
    exact absurd rfl (hzero _)

theorem eq_append_of_fraction {cs ds rest : List Char} (h : fraction cs = (ds, rest)) :
    cs = fractionChars ds ++ rest ∧ ∀ c ∈ ds, c.isDigit = true := by
  have absent : ([], cs) = (ds, rest) →
      cs = fractionChars ds ++ rest ∧ ∀ c ∈ ds, c.isDigit = true := by
    intro h
    obtain ⟨rfl, rfl⟩ := Prod.mk.inj h
    exact ⟨rfl, fun c hc => absurd hc List.not_mem_nil⟩
  unfold fraction at h
  split at h
  · split at h
    · exact absent h
    · rename_i ds' rest' hne hrun
      obtain ⟨rfl, rfl⟩ := Prod.mk.inj h
      obtain ⟨rfl, hds⟩ := eq_append_of_digitRun hrun
      obtain ⟨d, ds, rfl⟩ := List.exists_cons_of_ne_nil hne
      exact ⟨rfl, hds⟩
  · exact absent h

/-- A numeral is read as the parts it is written with. -/
theorem exists_charsWith_of_numeral? {cs rest : List Char} {p : NumeralParts}
    (h : numeral? cs = some (p, rest)) :
    p.IsWritten ∧ ∃ expo, IsExponent expo p.exponent ∧ cs = p.charsWith expo ++ rest := by
  rw [numeral?] at h
  obtain ⟨negative, unsigned, hsign⟩ : ∃ negative unsigned, minusSign cs = (negative, unsigned) :=
    ⟨_, _, rfl⟩
  rw [hsign] at h
  dsimp only at h
  split at h
  · cases h
  · rename_i whole afterWhole hne hwhole
    obtain ⟨frac, afterFraction, hfrac⟩ :
        ∃ frac afterFraction, fraction afterWhole = (frac, afterFraction) := ⟨_, _, rfl⟩
    obtain ⟨e, afterExponent, hexpo⟩ :
        ∃ e afterExponent, exponent afterFraction = (e, afterExponent) := ⟨_, _, rfl⟩
    rw [hfrac] at h
    dsimp only at h
    rw [hexpo] at h
    obtain ⟨rfl, rfl⟩ := Prod.mk.inj (Option.some.inj h)
    obtain ⟨hwhole', hdigits, hhead⟩ := eq_append_of_wholePart hwhole
    obtain ⟨hfrac', hfracDigits⟩ := eq_append_of_fraction hfrac
    obtain ⟨expo, hexpo', hrest⟩ := isExponent_of_exponent hexpo
    refine ⟨⟨?_, hdigits, hhead, hfracDigits⟩, expo, hexpo', ?_⟩
    · rintro rfl
      exact hne rfl
    · rw [eq_append_of_minusSign hsign, hwhole', hfrac', hrest]
      simp only [NumeralParts.charsWith, List.append_assoc]

/-! ### Numbers are no words -/

/-- No word begins with the minus sign, if there is one, and a digit. -/
theorem find?_words (negative : Bool) {d : Char} (hd : d.isDigit = true) (rest : List Char) :
    words.find? (fun w => w.1.isPrefixOf ((if negative then ['-'] else []) ++ d :: rest))
      = none := by
  have hne : 'n' ≠ d ∧ 't' ≠ d ∧ 'f' ≠ d ∧ 'N' ≠ d ∧ 'I' ≠ d ∧ '-' ≠ d := by
    refine ⟨?_, ?_, ?_, ?_, ?_, ?_⟩ <;> rintro rfl <;> exact absurd hd (by decide)
  obtain ⟨hn, ht, hf, hN, hI, hminus⟩ := hne
  cases negative with
  | true => simp [words, List.isPrefixOf, hI]
  | false => simp [words, List.isPrefixOf, hn, ht, hf, hN, hI, hminus]

/-- A numeral is read as what its parts denote. -/
theorem scalar_charsWith {p : NumeralParts} (hp : p.IsWritten) {expo : List Char}
    (hexpo : IsExponent expo p.exponent) {d : Datum} (hd : p.value = .ok d) {rest : List Char}
    (hrest : Delimited rest) : scalar (p.charsWith expo ++ rest) = .ok (d, rest) := by
  have hread := numeral?_charsWith hp hexpo hrest
  obtain ⟨c, cs, hwhole⟩ := List.exists_cons_of_ne_nil hp.whole_ne_nil
  have hc : c.isDigit = true := hp.whole_digits c (by simp [hwhole])
  have hwords := find?_words p.negative hc (cs ++ (fractionChars p.fraction ++ (expo ++ rest)))
  have hchars : p.charsWith expo ++ rest = (if p.negative then ['-'] else []) ++
      c :: (cs ++ (fractionChars p.fraction ++ (expo ++ rest))) := by
    simp [NumeralParts.charsWith, hwhole]
  rw [hchars] at hread ⊢
  simp only [scalar, hwords, hread, hd, bind, Except.bind, pure, Except.pure]

/-! ### Numerals as they are printed -/

/-- The letter, the sign and at least two digits of an exponent. -/
def exponentChars : Option Int → List Char
  | none => []
  | some e => 'e' :: (if e < 0 then '-' else '+') ::
      Binary64.padLeft Binary64.layout.exponentWidth (Numeral.digits e.natAbs)

/-- The text of a numeral. -/
def NumeralParts.chars (p : NumeralParts) : List Char := p.charsWith (exponentChars p.exponent)

theorem isDigit_of_mem_padLeft (width : Nat) {n : Nat} {c : Char}
    (h : c ∈ Binary64.padLeft width (Numeral.digits n)) : c.isDigit = true := by
  rw [Binary64.padLeft, List.mem_append, List.mem_replicate] at h
  rcases h with ⟨-, rfl⟩ | h
  · rfl
  · exact Numeral.isDigit_of_mem_digits h

theorem isExponent_exponentChars (e : Option Int) : IsExponent (exponentChars e) e := by
  cases e with
  | none => exact .absent
  | some e =>
    have hdigits := fun c => isDigit_of_mem_padLeft Binary64.layout.exponentWidth
      (n := e.natAbs) (c := c)
    have hne : Binary64.padLeft Binary64.layout.exponentWidth (Numeral.digits e.natAbs) ≠ [] := by
      simp [Binary64.padLeft, Numeral.digits_ne_nil]
    have hvalue :
        Numeral.value (Binary64.padLeft Binary64.layout.exponentWidth (Numeral.digits e.natAbs))
          = e.natAbs := by
      rw [Binary64.padLeft, Numeral.value_zeros_append, Numeral.value_digits]
    by_cases he : e < 0
    · have hexponent := IsExponent.present (Or.inl rfl) .minus hne hdigits
      rw [hvalue, if_pos rfl, show -((e.natAbs : Nat) : Int) = e by omega] at hexponent
      rwa [exponentChars, if_pos he]
    · have hexponent := IsExponent.present (Or.inl rfl) .plus hne hdigits
      rw [hvalue, if_neg (by decide), show ((e.natAbs : Nat) : Int) = e by omega] at hexponent
      rwa [exponentChars, if_neg he]

/-! ### Integers -/

/-- The parts of the numeral of an integer. -/
def intParts (n : Int) : NumeralParts := ⟨n < 0, Numeral.digits n.natAbs, [], none⟩

theorem chars_intParts (n : Int) : (intParts n).chars = Numeral.chars n := by
  cases n with
  | ofNat n =>
    simp [NumeralParts.chars, NumeralParts.charsWith, intParts, fractionChars, exponentChars,
      Numeral.chars]
  | negSucc n =>
    have hn : Int.negSucc n < 0 := by omega
    simp [NumeralParts.chars, NumeralParts.charsWith, intParts, hn, fractionChars, exponentChars,
      Numeral.chars]

theorem isWritten_intParts (n : Int) : (intParts n).IsWritten where
  whole_ne_nil := Numeral.digits_ne_nil _
  whole_digits _ hc := Numeral.isDigit_of_mem_digits hc
  whole_head h := by
    by_cases hn : n.natAbs = 0
    · simp only [intParts, hn]
      rfl
    · exact absurd h (Numeral.head?_digits hn)
  fraction_digits _ hc := absurd hc List.not_mem_nil

theorem value_intParts {n : Int} (h : Numeral.isWritable n = true) :
    (intParts n).value = .ok (.int n) := by
  have hlength : ¬ Numeral.maxDigits < (Numeral.digits n.natAbs).length :=
    Nat.not_lt.2 (Numeral.isWritable_iff_length_le.1 h)
  have hsign : (if n < 0 then -(n.natAbs : Int) else n.natAbs) = n := by
    split <;> omega
  simp only [NumeralParts.value, intParts, and_self, if_true, hlength, if_false,
    Numeral.value_digits, decide_eq_true_eq, hsign]

end Trialnet.Json
