import Trialnet.Text.Classes
import Trialnet.Proofs.Chain.Encoding
import Trialnet.Proofs.Json.Doubles
import Trialnet.Proofs.Json.Flaws
import Trialnet.Proofs.Json.RoundTrip

/-!
# The characters of a JSON text

All characters of a JSON text belong to ASCII.  What a scan finds outside the string literals
are the quotes around them and the characters of brackets, separators, numerals and the words
`null`, `true` and `false`, so no blank is there, and neither `NaN` nor `Infinity`.
-/

namespace Trialnet

namespace Json

/-! ### Outside the literals -/

/-- The characters outside the string literals and the quotes around these, where the scan is
inside a literal or not; there are none if a literal is not closed. -/
def outside? : Bool → List Char → Option (List Char)
  | false, [] => some []
  | false, c :: cs => (c :: ·) <$> outside? (c == '"') cs
  | true, [] => none
  | true, '"' :: cs => ('"' :: ·) <$> outside? false cs
  | true, '\\' :: _ :: cs => outside? true cs
  | true, _ :: cs => outside? true cs

/-- Characters that are neither a quote nor a backslash do not end a literal. -/
theorem outside?_plain {cs : List Char} (h : ∀ c ∈ cs, c ≠ '"' ∧ c ≠ '\\') (rest : List Char) :
    outside? true (cs ++ rest) = outside? true rest := by
  induction cs with
  | nil => rfl
  | cons c cs ih =>
    obtain ⟨hquote, hslash⟩ := h c List.mem_cons_self
    rw [List.cons_append, outside?, ih fun x hx => h x (List.mem_cons_of_mem c hx)]
    · exact hquote
    · rintro x xs rfl
      exact absurd rfl hslash

/-- What a digit in base sixteen is written as. -/
theorem digitChar_hex : ∀ d < 16,
    d.digitChar ≠ '"' ∧ d.digitChar ≠ '\\' ∧ d.digitChar.toNat < 0x80 := by decide

theorem mem_hex_four {n : Nat} (h : n < 0x10000) {c : Char} (hc : c ∈ Text.hex 4 n) :
    c ≠ '"' ∧ c ≠ '\\' ∧ c.toNat < 0x80 := by
  rw [hex_four h] at hc
  simp only [List.mem_cons, List.not_mem_nil, or_false] at hc
  rcases hc with rfl | rfl | rfl | rfl
  · exact digitChar_hex _ (by omega)
  · exact digitChar_hex _ (by omega)
  · exact digitChar_hex _ (by omega)
  · exact digitChar_hex _ (by omega)

theorem outside?_unitEscape {n : Nat} (h : n < 0x10000) (rest : List Char) :
    outside? true (unitEscape n ++ rest) = outside? true rest :=
  outside?_plain (fun _ hc => ⟨(mem_hex_four h hc).1, (mem_hex_four h hc).2.1⟩) rest

/-- Whatever a character is written as, the literal goes on after it. -/
theorem outside?_escape (c : Char) (rest : List Char) :
    outside? true (escape c ++ rest) = outside? true rest := by
  rcases escape_cases c with ⟨e, -, hc⟩ | ⟨hquote, hslash, -, -, hc⟩ | ⟨hunit, hc⟩ | ⟨n, hn, -, hc⟩
  · rw [hc]
    rfl
  · rw [hc]
    refine outside?_plain (fun x hx => ?_) rest
    rw [List.mem_singleton.1 hx]
    exact ⟨hquote, hslash⟩
  · rw [hc]
    exact outside?_unitEscape hunit rest
  · rw [hc, List.append_assoc, outside?_unitEscape (by omega), outside?_unitEscape (by omega)]

theorem outside?_escapes (cs rest : List Char) :
    outside? true (cs.flatMap escape ++ rest) = outside? true rest := by
  induction cs with
  | nil => rfl
  | cons c cs ih => rw [List.flatMap_cons, List.append_assoc, outside?_escape, ih]

/-! ### Only ASCII -/

theorem toNat_lt_of_simpleEscape? {e c : Char} (h : simpleEscape? e = some c) :
    e.toNat < 0x80 := by
  unfold simpleEscape? at h
  split at h
  case h_9 => cases h
  all_goals decide

theorem toNat_lt_of_mem_unitEscape {n : Nat} (h : n < 0x10000) {c : Char}
    (hc : c ∈ unitEscape n) : c.toNat < 0x80 := by
  rw [unitEscape, List.mem_cons, List.mem_cons] at hc
  rcases hc with rfl | rfl | hc
  · decide
  · decide
  · exact (mem_hex_four h hc).2.2

theorem toNat_lt_of_mem_escape {c x : Char} (hx : x ∈ escape c) : x.toNat < 0x80 := by
  rcases escape_cases c with ⟨e, he, hc⟩ | ⟨-, -, -, hplain, hc⟩ | ⟨hunit, hc⟩ | ⟨n, hn, -, hc⟩ <;>
    rw [hc] at hx
  · rw [List.mem_cons, List.mem_singleton] at hx
    rcases hx with rfl | rfl
    · decide
    · exact toNat_lt_of_simpleEscape? he
  · rw [List.mem_singleton.1 hx]
    omega
  · exact toNat_lt_of_mem_unitEscape hunit hx
  · rcases List.mem_append.1 hx with hx | hx
    · exact toNat_lt_of_mem_unitEscape (by omega) hx
    · exact toNat_lt_of_mem_unitEscape (by omega) hx

/-! ### Texts and their parts -/

/-- What occurs outside the literals of a JSON text. -/
def tokenChars : List Char := "[]\x7b\x7d,:-+.0123456789enultrfas".toList

theorem tokenChars_spec {c : Char} (h : c ∈ tokenChars) :
    c.toNat < 0x80 ∧ c ≠ '"' ∧ Text.isBlank c = false ∧ c ≠ 'N' ∧ c ≠ 'I' := by
  have hall : tokenChars.all (fun c => c.toNat < 0x80 ∧ c ≠ '"' ∧ Text.isBlank c = false
      ∧ c ≠ 'N' ∧ c ≠ 'I') = true := by decide
  exact of_decide_eq_true (List.all_eq_true.1 hall c h)

theorem mem_tokenChars_of_isDigit {c : Char} (h : c.isDigit = true) : c ∈ tokenChars := by
  have hdigits : ∀ n < 0x3A, 0x30 ≤ n → Char.ofNat n ∈ tokenChars := by decide
  obtain ⟨hlow, hhigh⟩ := Text.toNat_of_isDigit h
  rw [← Char.ofNat_toNat c]
  exact hdigits c.toNat hhigh hlow

/-- A part of a JSON text: it begins and ends outside the literals. -/
structure IsPart (cs : List Char) : Prop where
  ascii : ∀ c ∈ cs, c.toNat < 0x80
  outside : ∃ out, (∀ rest, outside? false (cs ++ rest) = (out ++ ·) <$> outside? false rest)
    ∧ ∀ c ∈ out, c = '"' ∨ c ∈ tokenChars

namespace IsPart

theorem append {as bs : List Char} (ha : IsPart as) (hb : IsPart bs) : IsPart (as ++ bs) where
  ascii c hc := (List.mem_append.1 hc).elim (ha.ascii c) (hb.ascii c)
  outside := by
    obtain ⟨outA, hscanA, hcharsA⟩ := ha.outside
    obtain ⟨outB, hscanB, hcharsB⟩ := hb.outside
    refine ⟨outA ++ outB, fun rest => ?_, fun c hc => (List.mem_append.1 hc).elim (hcharsA c)
      (hcharsB c)⟩
    rw [List.append_assoc, hscanA, hscanB]
    simp only [Option.map_eq_map, Option.map_map, Function.comp_def, List.append_assoc]

/-- Characters that are not in a literal are found by the scan. -/
theorem of_subset {cs : List Char} (h : cs ⊆ tokenChars) : IsPart cs where
  ascii c hc := (tokenChars_spec (h hc)).1
  outside := by
    refine ⟨cs, fun rest => ?_, fun c hc => Or.inr (h hc)⟩
    induction cs with
    | nil => simp
    | cons c cs ih =>
      obtain ⟨hc, hcs⟩ := List.cons_subset.1 h
      have hquote : (c == '"') = false := beq_false_of_ne (tokenChars_spec hc).2.1
      rw [List.cons_append, outside?, hquote, ih hcs]
      simp only [Option.map_eq_map, Option.map_map, Function.comp_def, List.cons_append]

theorem cons {c : Char} {cs : List Char} (hc : c ∈ tokenChars) (h : IsPart cs) :
    IsPart (c :: cs) :=
  (of_subset (List.cons_subset.2 ⟨hc, List.nil_subset _⟩)).append h

end IsPart

theorem isPart_literal (s : String) : IsPart (literal s) where
  ascii c hc := by
    simp only [literal, List.cons_append, List.mem_cons, List.mem_append, List.mem_flatMap,
      List.not_mem_nil, or_false] at hc
    rcases hc with rfl | ⟨x, -, hx⟩ | rfl
    · decide
    · exact toNat_lt_of_mem_escape hx
    · decide
  outside := by
    refine ⟨['"', '"'], fun rest => ?_, by simp⟩
    rw [literal, List.cons_append, List.cons_append, outside?, List.append_assoc]
    simp only [beq_self_eq_true, outside?_escapes]
    simp only [List.cons_append, List.nil_append, outside?, Option.map_eq_map, Option.map_map,
      Function.comp_def]

/-- The characters of numerals occur outside the literals. -/
theorem NumeralParts.IsWritten.isPart {p : NumeralParts} (h : p.IsWritten) : IsPart p.chars := by
  have hdigits : ∀ {cs : List Char}, (∀ c ∈ cs, c.isDigit = true) → IsPart cs := fun hcs =>
    IsPart.of_subset fun c hc => mem_tokenChars_of_isDigit (hcs c hc)
  have hsign : IsPart (if p.negative then ['-'] else []) := by
    split
    · exact IsPart.of_subset (by decide)
    · exact IsPart.of_subset (by decide)
  have hfraction : IsPart (fractionChars p.fraction) := by
    have hds := h.fraction_digits
    cases hfrac : p.fraction with
    | nil => exact IsPart.of_subset (List.nil_subset _)
    | cons d ds => exact IsPart.cons (by decide) (hdigits (hfrac ▸ hds))
  have hexponent : IsPart (exponentChars p.exponent) := by
    cases p.exponent with
    | none => exact IsPart.of_subset (List.nil_subset _)
    | some e =>
      refine IsPart.cons (by decide) (IsPart.cons ?_ (hdigits fun c hc => ?_))
      · split
        · decide
        · decide
      · exact isDigit_of_mem_padLeft _ hc
  exact hsign.append ((hdigits h.whole_digits).append (hfraction.append hexponent))

theorem isPart_float {x : Binary64} {cs : List Char} (h : float .refused x = .ok cs) :
    IsPart cs := by
  cases x with
  | finite s p =>
    obtain rfl := Except.ok.inj h
    obtain ⟨parts, hparts, hwritten, -⟩ := exists_parts_finite s p
    exact hparts ▸ hwritten.isPart
  | nan => cases h
  | infinite s => cases h

mutual

/-- The text of a value is a part of a JSON text, by induction on the value. -/
theorem isPart_print : ∀ d cs, print .refused d = .ok cs → IsPart cs
  | .null => fun _ h => Except.ok.inj h ▸ IsPart.of_subset (by decide)
  | .bool true => fun _ h => Except.ok.inj h ▸ IsPart.of_subset (by decide)
  | .bool false => fun _ h => Except.ok.inj h ▸ IsPart.of_subset (by decide)
  | .text s => fun _ h => Except.ok.inj h ▸ isPart_literal s
  | .float _ => fun _ h => isPart_float h
  | .back => fun _ h => by cases h
  | .foreign _ => fun _ h => by cases h
  | .int n => by
    intro cs h
    rw [print] at h
    split at h
    · rw [← Except.ok.inj h, ← chars_intParts]
      exact (isWritten_intParts n).isPart
    · cases h
  | .array items => by
    intro cs h
    rw [print] at h
    obtain ⟨body, hbody, h⟩ := bind_eq_ok.1 h
    obtain rfl := Except.ok.inj h
    exact ((isPart_printItems items body hbody).cons (by decide)).append
      (IsPart.of_subset (by decide))
  | .object fields => by
    intro cs h
    rw [print] at h
    obtain ⟨body, hbody, h⟩ := bind_eq_ok.1 h
    obtain rfl := Except.ok.inj h
    exact ((isPart_printFields fields body hbody).cons (by decide)).append
      (IsPart.of_subset (by decide))

theorem isPart_printItems : ∀ items cs, printItems .refused items = .ok cs → IsPart cs
  | [] => fun _ h => Except.ok.inj h ▸ IsPart.of_subset (List.nil_subset _)
  | [x] => isPart_print x
  | x :: y :: ys => by
    intro cs h
    obtain ⟨first, more, hx, hys, rfl⟩ := printItems_cons_cons h
    exact (isPart_print x first hx).append
      ((isPart_printItems (y :: ys) more hys).cons (by decide))

theorem isPart_printFields : ∀ fields cs, printFields .refused fields = .ok cs → IsPart cs
  | [] => fun _ h => Except.ok.inj h ▸ IsPart.of_subset (List.nil_subset _)
  | [(k, x)] => by
    intro cs h
    obtain ⟨first, hx, rfl⟩ := printFields_singleton h
    exact (isPart_literal k).append ((isPart_print x first hx).cons (by decide))
  | (k, x) :: f :: fs => by
    intro cs h
    obtain ⟨first, more, hx, hfs, rfl⟩ := printFields_cons_cons h
    exact ((isPart_literal k).append ((isPart_print x first hx).cons (by decide))).append
      ((isPart_printFields (f :: fs) more hfs).cons (by decide))

end

/-- Outside its literals, a text has no blank and names no number that is not finite. -/
theorem IsPart.exists_outside {cs : List Char} (h : IsPart cs) :
    ∃ out, outside? false cs = some out ∧ (∀ c ∈ out, Text.isBlank c = false)
      ∧ ¬ "NaN".toList <:+: out ∧ ¬ "Infinity".toList <:+: out := by
  obtain ⟨out, hscan, hchars⟩ := h.outside
  have hspec : ∀ c ∈ out, Text.isBlank c = false ∧ c ≠ 'N' ∧ c ≠ 'I' := by
    intro c hc
    rcases hchars c hc with rfl | hc
    · decide
    · exact (tokenChars_spec hc).2.2
  have hend := hscan []
  simp only [List.append_nil, outside?, Option.map_eq_map, Option.map_some] at hend
  refine ⟨out, hend, fun c hc => (hspec c hc).1, fun hnan => ?_, fun hinf => ?_⟩
  · exact (hspec 'N' (hnan.subset (by decide))).2.1 rfl
  · exact (hspec 'I' (hinf.subset (by decide))).2.2 rfl

example : outside? false "[\"NaN \\\"\",1]".toList = some "[\"\",1]".toList := by decide

end Json

/-- Encoding free-form data refuses exactly what has no JSON form.  There is a text exactly if no
value inside, at any depth, is a reference back to a container, a foreign value, a number that is
not finite or an integer of more than 4300 digits, and else the error is the one that names the
foreign value or the first such flaw.  The text is ASCII, and outside its string literals it has
no blank and neither `NaN` nor `Infinity`. -/
theorem Datum.encode_refuses_flaws (what : String) (d : Datum) :
    ((∃ s, d.encode what = .ok s) ↔ ∀ x ∈ d.values, flaw? .refused x = none)
      ∧ (∀ e, d.encode what = .error e ↔ d.refusal? what = some e)
      ∧ ∀ s, d.encode what = .ok s →
        (∀ c ∈ s.toList, c.toNat < 0x80)
          ∧ ∃ out, Json.outside? false s.toList = some out
            ∧ (∀ c ∈ out, Text.isBlank c = false)
            ∧ ¬ "NaN".toList <:+: out ∧ ¬ "Infinity".toList <:+: out := by
  have hends := encode_endsIn what d
  refine ⟨hends.exists_ok_iff.trans refusal?_eq_none, hends, fun s hs => ?_⟩
  have hpart := Json.isPart_print d s.toList (Json.write_eq_ok.1 (encode_eq_ok.1 hs))
  exact ⟨hpart.ascii, hpart.exists_outside⟩

end Trialnet
