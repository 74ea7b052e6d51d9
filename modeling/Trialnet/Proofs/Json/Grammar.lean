import Trialnet.Proofs.Json.Numerals
import Trialnet.Proofs.Json.Strings
import Trialnet.Proofs.Payload.Success

/-!
# The grammar of JSON texts

`Denotes` is the grammar as a relation, apart from any reader: which texts stand for a value,
for the items between the brackets of an array or for the fields between the braces of an
object.  Its index says how many levels the text takes at most.  A text is one of JSON if it is such
a text of a value between blanks (`IsNestedTextOf`).  The reader finds the value of a text exactly
if the text has one that takes no more levels than there are: `read_eq_ok`.  What it accepts is
derived from the grammar by induction on its steps, and what the grammar derives it accepts by
induction on the derivation, in front of anything that may follow a value.
-/

namespace Trialnet.Json

/-! ### Blanks -/

/-- The text consists of blanks. -/
def Blanks (cs : List Char) : Prop := ∀ c ∈ cs, isBlank c = true

theorem blanks_nil : Blanks [] := fun _ h => absurd h List.not_mem_nil

theorem skip_cons {c : Char} (h : isBlank c = false) (cs : List Char) :
    skip (c :: cs) = c :: cs := by
  simp [skip, h]

/-- Blanks in front of a text are skipped. -/
theorem skip_append {blanks : List Char} (h : Blanks blanks) (cs : List Char) :
    skip (blanks ++ cs) = skip cs :=
  List.dropWhile_append_of_pos h

/-- What is skipped in front of a text are blanks. -/
theorem exists_blanks (cs : List Char) : ∃ blanks, Blanks blanks ∧ cs = blanks ++ skip cs :=
  ⟨cs.takeWhile isBlank, List.all_eq_true.1 List.all_takeWhile,
    List.takeWhile_append_dropWhile.symm⟩

/-- Blanks may follow a value, and so may whatever may follow it after blanks. -/
theorem delimited_append {blanks : List Char} (h : Blanks blanks) {rest : List Char}
    (hrest : Delimited rest) : Delimited (blanks ++ rest) := by
  cases blanks with
  | nil => exact hrest
  | cons c blanks => exact delimited_cons (Or.inl (h c (by simp))) _

/-! ### The grammar -/

/-- What a part of a text stands for. -/
inductive Phrase where
  | value (d : Datum)
  /-- The items between the brackets of an array that is not empty. -/
  | items (xs : List Datum)
  /-- The fields between the braces of an object that is not empty, as they are written. -/
  | fields (writes : List (String × Datum))

/-- The text stands for the value, the items or the fields, and takes so many levels at most. -/
inductive Denotes : Nat → List Char → Phrase → Prop
  | text {levels : Nat} {body : List Char} {s : String} (hbody : IsStringBody body s.toList) :
      Denotes levels ('"' :: (body ++ ['"'])) (.value (.text s))
  | word {levels : Nat} {cs : List Char} {d : Datum} (hword : (cs, d) ∈ words) :
      Denotes levels cs (.value d)
  | number {levels : Nat} {p : NumeralParts} {expo : List Char} {d : Datum} (hp : p.IsWritten)
      (hexpo : IsExponent expo p.exponent) (hd : p.value = .ok d) :
      Denotes levels (p.charsWith expo) (.value d)
  | emptyArray {levels : Nat} {blanks : List Char} (hblanks : Blanks blanks) :
      Denotes (levels + 1) ('[' :: (blanks ++ [']'])) (.value (.array []))
  | array {levels : Nat} {blanks cs : List Char} {xs : List Datum} (hblanks : Blanks blanks)
      (hitems : Denotes levels cs (.items xs)) :
      Denotes (levels + 1) ('[' :: (blanks ++ (cs ++ [']']))) (.value (.array xs))
  | emptyObject {levels : Nat} {blanks : List Char} (hblanks : Blanks blanks) :
      Denotes (levels + 1) ('\x7b' :: (blanks ++ ['\x7d'])) (.value (.object []))
  /-- Of several fields with one key the last counts, at the place of the first. -/
  | object {levels : Nat} {blanks cs : List Char} {writes : List (String × Datum)}
      (hblanks : Blanks blanks) (hfields : Denotes levels cs (.fields writes)) :
      Denotes (levels + 1) ('\x7b' :: (blanks ++ (cs ++ ['\x7d'])))
        (.value (.object (Fields.ofWrites writes)))
  | lastItem {levels : Nat} {cs blanks : List Char} {x : Datum}
      (hvalue : Denotes levels cs (.value x)) (hblanks : Blanks blanks) :
      Denotes levels (cs ++ blanks) (.items [x])
  | item {levels : Nat} {cs before after more : List Char} {x : Datum} {xs : List Datum}
      (hvalue : Denotes levels cs (.value x)) (hbefore : Blanks before) (hafter : Blanks after)
      (hmore : Denotes levels more (.items xs)) :
      Denotes levels (cs ++ (before ++ ',' :: (after ++ more))) (.items (x :: xs))
  | lastField {levels : Nat} {body before after cs blanks : List Char} {key : String} {x : Datum}
      (hkey : IsStringBody body key.toList) (hbefore : Blanks before) (hafter : Blanks after)
      (hvalue : Denotes levels cs (.value x)) (hblanks : Blanks blanks) :
      Denotes levels ('"' :: (body ++ '"' :: (before ++ ':' :: (after ++ (cs ++ blanks)))))
        (.fields [(key, x)])
  | field {levels : Nat} {body before after cs blanks between more : List Char} {key : String}
      {x : Datum} {writes : List (String × Datum)}
      (hkey : IsStringBody body key.toList) (hbefore : Blanks before) (hafter : Blanks after)
      (hvalue : Denotes levels cs (.value x)) (hblanks : Blanks blanks)
      (hbetween : Blanks between) (hmore : Denotes levels more (.fields writes)) :
      Denotes levels ('"' :: (body ++ '"' :: (before ++ ':' :: (after ++ (cs ++ (blanks
        ++ ',' :: (between ++ more))))))) (.fields ((key, x) :: writes))

/-- The text is a JSON text of the value that takes so many levels at most: blanks, the value and
blanks. -/
def IsNestedTextOf (levels : Nat) (s : String) (d : Datum) : Prop :=
  ∃ before cs after, Blanks before ∧ Denotes levels cs (.value d) ∧ Blanks after
    ∧ s.toList = before ++ (cs ++ after)

/-- The text is a JSON text of the value, however many levels it takes. -/
def IsTextOf (s : String) (d : Datum) : Prop := ∃ levels, IsNestedTextOf levels s d

/-! ### How texts begin -/

/-- The text begins as a word or a numeral does. -/
def OpensScalar (cs : List Char) : Prop :=
  ∃ c tail, cs = c :: tail ∧ (c.isDigit = true ∨ c ∈ ['-', 'n', 't', 'f', 'N', 'I'])

/-- No word and no numeral begins with one of the other characters. -/
theorem ne_of_opensScalar {c x : Char} (hc : c.isDigit = true ∨ c ∈ ['-', 'n', 't', 'f', 'N', 'I'])
    (hx : ¬ (x.isDigit = true ∨ x ∈ ['-', 'n', 't', 'f', 'N', 'I'])) : c ≠ x :=
  fun h => hx (h ▸ hc)

theorem OpensScalar.value_succ {cs : List Char} (h : OpensScalar cs) (steps levels : Nat)
    (rest : List Char) :
    value (steps + 1) levels (cs ++ rest) = (scalar (cs ++ rest)).mapError .fault := by
  obtain ⟨c, tail, rfl, hc⟩ := h
  rw [List.cons_append, value]
  · intro rest h
    exact ne_of_opensScalar hc (x := '"') (by decide) (List.cons.inj h).1
  · intro rest h
    exact ne_of_opensScalar hc (x := '[') (by decide) (List.cons.inj h).1
  · intro rest h
    exact ne_of_opensScalar hc (x := '\x7b') (by decide) (List.cons.inj h).1

/-- A numeral begins with a minus sign or a digit. -/
theorem NumeralParts.IsWritten.opensScalar {p : NumeralParts} (h : p.IsWritten)
    (expo : List Char) : OpensScalar (p.charsWith expo) := by
  obtain ⟨negative, whole, frac, e⟩ := p
  obtain ⟨hne, hdigits, -, -⟩ := h
  dsimp only at hne hdigits
  obtain ⟨c, tail, rfl⟩ := List.exists_cons_of_ne_nil hne
  cases negative with
  | true => exact ⟨'-', _, rfl, Or.inr (by simp)⟩
  | false => exact ⟨c, _, rfl, Or.inl (hdigits c (by simp))⟩

/-- The words are read as what they stand for, whatever follows. -/
theorem scalar_word {cs : List Char} {d : Datum} (h : (cs, d) ∈ words) :
    OpensScalar cs ∧ ∀ rest, scalar (cs ++ rest) = .ok (d, rest) := by
  simp only [words, List.mem_cons, Prod.mk.injEq, List.not_mem_nil, or_false] at h
  rcases h with ⟨rfl, rfl⟩ | ⟨rfl, rfl⟩ | ⟨rfl, rfl⟩ | ⟨rfl, rfl⟩ | ⟨rfl, rfl⟩ | ⟨rfl, rfl⟩
  · exact ⟨⟨'n', _, rfl, by simp⟩, fun _ => rfl⟩
  · exact ⟨⟨'t', _, rfl, by simp⟩, fun _ => rfl⟩
  · exact ⟨⟨'f', _, rfl, by simp⟩, fun _ => rfl⟩
  · exact ⟨⟨'N', _, rfl, by simp⟩, fun _ => rfl⟩
  · exact ⟨⟨'I', _, rfl, by simp⟩, fun _ => rfl⟩
  · exact ⟨⟨'-', _, rfl, by simp⟩, fun _ => rfl⟩

/-- The text begins with neither a blank nor a closing bracket nor a byte order mark. -/
def Opens (cs : List Char) : Prop :=
  ∃ c tail, cs = c :: tail ∧ isBlank c = false ∧ c ∉ [']', '\x7d', '\uFEFF']

theorem Opens.append {cs : List Char} (h : Opens cs) (rest : List Char) : Opens (cs ++ rest) := by
  obtain ⟨c, tail, rfl, hc⟩ := h
  exact ⟨c, tail ++ rest, rfl, hc⟩

theorem Opens.skip {cs : List Char} (h : Opens cs) : skip cs = cs := by
  obtain ⟨c, tail, rfl, hblank, -⟩ := h
  exact skip_cons hblank tail

theorem OpensScalar.opens {cs : List Char} (h : OpensScalar cs) : Opens cs := by
  obtain ⟨c, tail, rfl, hc⟩ := h
  have hne : ∀ x ∈ [' ', '\t', '\n', '\r', ']', '\x7d', '\uFEFF'], c ≠ x := by
    intro x hx
    refine ne_of_opensScalar hc ?_
    simp only [List.mem_cons, List.not_mem_nil, or_false] at hx
    rcases hx with rfl | rfl | rfl | rfl | rfl | rfl | rfl <;> decide
  simp only [List.forall_mem_cons] at hne
  obtain ⟨h1, h2, h3, h4, h5, h6, h7, -⟩ := hne
  exact ⟨c, tail, rfl, by simp [isBlank, h1, h2, h3, h4], by simp [h5, h6, h7]⟩

theorem Denotes.opens {levels : Nat} {cs : List Char} {p : Phrase} (h : Denotes levels cs p) :
    Opens cs := by
  induction h with
  | text => exact ⟨'"', _, rfl, by decide, by decide⟩
  | word hword => exact (scalar_word hword).1.opens
  | number hp => exact (hp.opensScalar _).opens
  | emptyArray => exact ⟨'[', _, rfl, by decide, by decide⟩
  | array => exact ⟨'[', _, rfl, by decide, by decide⟩
  | emptyObject => exact ⟨'\x7b', _, rfl, by decide, by decide⟩
  | object => exact ⟨'\x7b', _, rfl, by decide, by decide⟩
  | lastItem hvalue hblanks ih => exact ih.append _
  | item hvalue hbefore hafter hmore ih => exact ih.append _
  | lastField => exact ⟨'"', _, rfl, by decide, by decide⟩
  | field => exact ⟨'"', _, rfl, by decide, by decide⟩

/-! ### What the grammar derives is read -/

/-- What the reader makes of a text of the phrase with so many levels left, given enough steps. -/
def Phrase.IsReadFrom (levels : Nat) (cs : List Char) : Phrase → Prop
  | .value d => ∀ steps rest, Delimited rest → 2 * cs.length ≤ steps →
      Json.value steps levels (cs ++ rest) = .ok (d, rest)
  | .items xs => ∀ steps rest, 2 * cs.length + 1 ≤ steps →
      elements steps levels (cs ++ ']' :: rest) = .ok (xs, rest)
  | .fields writes => ∀ steps rest, 2 * cs.length + 1 ≤ steps →
      members steps levels (cs ++ '\x7d' :: rest) = .ok (writes, rest)

section Steps

variable {steps levels : Nat} {rest : List Char}

/-- After the bracket of an array and blanks come its items, if the next character is not the
closing bracket. -/
theorem value_array {blanks cs : List Char} (hblanks : Blanks blanks) (hopens : Opens cs) :
    value (steps + 1) (levels + 1) ('[' :: (blanks ++ cs))
      = (elements steps levels cs).map fun found => (.array found.1, found.2) := by
  have hskip := hopens.skip
  obtain ⟨c, tail, rfl, -, hc⟩ := hopens
  rw [value, skip_append hblanks, hskip]
  split
  · rename_i heq
    exact absurd (by simp [(List.cons.inj heq).1]) hc
  · cases elements steps levels (c :: tail) <;> rfl

/-- After the brace of an object and blanks come its fields, if the next character is not the
closing brace. -/
theorem value_object {blanks cs : List Char} (hblanks : Blanks blanks) (hopens : Opens cs) :
    value (steps + 1) (levels + 1) ('\x7b' :: (blanks ++ cs))
      = (members steps levels cs).map fun found =>
          (.object (Fields.ofWrites found.1), found.2) := by
  have hskip := hopens.skip
  obtain ⟨c, tail, rfl, -, hc⟩ := hopens
  rw [value, skip_append hblanks, hskip]
  split
  · rename_i heq
    exact absurd (by simp [(List.cons.inj heq).1]) hc
  · cases members steps levels (c :: tail) <;> rfl

/-- A value and the bracket after it are the last item. -/
theorem elements_last {blanks cs : List Char} {x : Datum} (hblanks : Blanks blanks)
    (h : value steps levels cs = .ok (x, blanks ++ ']' :: rest)) :
    elements (steps + 1) levels cs = .ok ([x], rest) := by
  rw [elements, h]
  simp only [bind, Except.bind, pure, Except.pure, skip_append hblanks, skip_cons (c := ']') rfl]

/-- A value and a comma are one item, and others follow. -/
theorem elements_more {before after cs more : List Char} {x : Datum}
    (hbefore : Blanks before) (hafter : Blanks after) (hopens : Opens more)
    (h : value steps levels cs = .ok (x, before ++ ',' :: (after ++ more))) :
    elements (steps + 1) levels cs
      = (elements steps levels more).map fun found => (x :: found.1, found.2) := by
  rw [elements, h]
  simp only [bind, Except.bind, pure, Except.pure, skip_append hbefore, skip_append hafter,
    skip_cons (c := ',') rfl, hopens.skip]
  cases elements steps levels more <;> rfl

variable {body before after cs : List Char} {key : String} {x : Datum}

/-- After a key and a colon comes a value. -/
theorem members_succ (hkey : IsStringBody body key.toList) (hbefore : Blanks before)
    (hafter : Blanks after) (hopens : Opens cs) :
    members (steps + 1) levels ('"' :: (body ++ '"' :: (before ++ ':' :: (after ++ cs))))
      = (value steps levels cs).bind fun found => match skip found.2 with
        | '\x7d' :: rest => .ok ([(key, found.1)], rest)
        | ',' :: rest => (members steps levels (skip rest)).map fun more =>
            ((key, found.1) :: more.1, more.2)
        | rest => stop .commaExpected rest := by
  rw [members, string_eq_ok.2 ⟨body, hkey, rfl⟩]
  simp only [Except.mapError, bind, Except.bind, pure, Except.pure, skip_append hbefore,
    skip_append hafter, skip_cons (c := ':') rfl, hopens.skip]
  rfl

/-- A key, a value and the brace after it are the last field. -/
theorem members_last {blanks : List Char} (hkey : IsStringBody body key.toList)
    (hbefore : Blanks before) (hafter : Blanks after) (hopens : Opens cs) (hblanks : Blanks blanks)
    (h : value steps levels cs = .ok (x, blanks ++ '\x7d' :: rest)) :
    members (steps + 1) levels ('"' :: (body ++ '"' :: (before ++ ':' :: (after ++ cs))))
      = .ok ([(key, x)], rest) := by
  rw [members_succ hkey hbefore hafter hopens, h]
  simp only [Except.bind, skip_append hblanks, skip_cons (c := '\x7d') rfl]

/-- A key, a value and a comma are one field, and others follow. -/
theorem members_more {blanks between more : List Char} (hkey : IsStringBody body key.toList)
    (hbefore : Blanks before) (hafter : Blanks after) (hopens : Opens cs) (hblanks : Blanks blanks)
    (hbetween : Blanks between) (hmoreOpens : Opens more)
    (h : value steps levels cs = .ok (x, blanks ++ ',' :: (between ++ more))) :
    members (steps + 1) levels ('"' :: (body ++ '"' :: (before ++ ':' :: (after ++ cs))))
      = (members steps levels more).map fun found => ((key, x) :: found.1, found.2) := by
  rw [members_succ hkey hbefore hafter hopens, h]
  simp only [Except.bind, skip_append hblanks, skip_append hbetween, skip_cons (c := ',') rfl,
    hmoreOpens.skip]

end Steps

/-- What the grammar derives is read, by induction on the derivation: each level of nesting
writes at least the brackets that pay for its steps. -/
theorem Denotes.isReadFrom {levels : Nat} {cs : List Char} {p : Phrase}
    (h : Denotes levels cs p) : p.IsReadFrom levels cs := by
  induction h with
  | text hbody =>
    intro steps rest hrest hsteps
    obtain ⟨k, rfl⟩ : ∃ k, steps = k + 1 := ⟨steps - 1, by simp at hsteps; omega⟩
    simp only [List.cons_append, List.append_assoc, List.nil_append]
    rw [value, string_eq_ok.2 ⟨_, hbody, rfl⟩]
    rfl
  | word hword =>
    intro steps rest hrest hsteps
    obtain ⟨hopens, hread⟩ := scalar_word hword
    obtain ⟨k, rfl⟩ : ∃ k, steps = k + 1 := by
      obtain ⟨c, tail, rfl, -⟩ := hopens
      exact ⟨steps - 1, by simp at hsteps; omega⟩
    rw [hopens.value_succ, hread]
    rfl
  | @number levels p expo d hp hexpo hd =>
    intro steps rest hrest hsteps
    have hopens := hp.opensScalar expo
    obtain ⟨k, rfl⟩ : ∃ k, steps = k + 1 := by
      obtain ⟨c, tail, hchars, -⟩ := hopens
      rw [hchars] at hsteps
      exact ⟨steps - 1, by simp at hsteps; omega⟩
    rw [hopens.value_succ, scalar_charsWith hp hexpo hd hrest]
    rfl
  | emptyArray hblanks =>
    intro steps rest hrest hsteps
    obtain ⟨k, rfl⟩ : ∃ k, steps = k + 1 := ⟨steps - 1, by simp at hsteps; omega⟩
    simp only [List.cons_append, List.append_assoc, List.nil_append]
    rw [value, skip_append hblanks, skip_cons rfl]
    rfl
  | array hblanks hitems ih =>
    intro steps rest hrest hsteps
    simp only [List.length_cons, List.length_append] at hsteps
    obtain ⟨k, rfl⟩ : ∃ k, steps = k + 1 := ⟨steps - 1, by omega⟩
    simp only [List.cons_append, List.append_assoc, List.nil_append]
    rw [value_array hblanks (hitems.opens.append _), ih k rest (by omega)]
    rfl
  | emptyObject hblanks =>
    intro steps rest hrest hsteps
    obtain ⟨k, rfl⟩ : ∃ k, steps = k + 1 := ⟨steps - 1, by simp at hsteps; omega⟩
    simp only [List.cons_append, List.append_assoc, List.nil_append]
    rw [value, skip_append hblanks, skip_cons rfl]
    rfl
  | object hblanks hfields ih =>
    intro steps rest hrest hsteps
    simp only [List.length_cons, List.length_append] at hsteps
    obtain ⟨k, rfl⟩ : ∃ k, steps = k + 1 := ⟨steps - 1, by omega⟩
    simp only [List.cons_append, List.append_assoc, List.nil_append]
    rw [value_object hblanks (hfields.opens.append _), ih k rest (by omega)]
    rfl
  | lastItem hvalue hblanks ih =>
    intro steps rest hsteps
    simp only [List.length_append] at hsteps
    obtain ⟨k, rfl⟩ : ∃ k, steps = k + 1 := ⟨steps - 1, by omega⟩
    rw [List.append_assoc]
    exact elements_last hblanks
      (ih k _ (delimited_append hblanks (delimited_cons (by simp) rest)) (by omega))
  | item hvalue hbefore hafter hmore ihvalue ihmore =>
    intro steps rest hsteps
    simp only [List.length_append, List.length_cons] at hsteps
    obtain ⟨k, rfl⟩ : ∃ k, steps = k + 1 := ⟨steps - 1, by omega⟩
    simp only [List.append_assoc, List.cons_append]
    rw [elements_more hbefore hafter (hmore.opens.append _)
      (ihvalue k _ (delimited_append hbefore (delimited_cons (c := ',') (by simp) _)) (by omega)),
      ihmore k rest (by omega)]
    rfl
  | lastField hkey hbefore hafter hvalue hblanks ih =>
    intro steps rest hsteps
    simp only [List.length_append, List.length_cons] at hsteps
    obtain ⟨k, rfl⟩ : ∃ k, steps = k + 1 := ⟨steps - 1, by omega⟩
    simp only [List.append_assoc, List.cons_append]
    exact members_last hkey hbefore hafter (hvalue.opens.append _) hblanks
      (ih k _ (delimited_append hblanks (delimited_cons (by simp) rest)) (by omega))
  | field hkey hbefore hafter hvalue hblanks hbetween hmore ihvalue ihmore =>
    intro steps rest hsteps
    simp only [List.length_append, List.length_cons] at hsteps
    obtain ⟨k, rfl⟩ : ∃ k, steps = k + 1 := ⟨steps - 1, by omega⟩
    simp only [List.append_assoc, List.cons_append]
    rw [members_more hkey hbefore hafter (hvalue.opens.append _) hblanks hbetween
      (hmore.opens.append _)
      (ihvalue k _ (delimited_append hblanks (delimited_cons (c := ',') (by simp) _)) (by omega)),
      ihmore k rest (by omega)]
    rfl

/-! ### What is read is derived from the grammar -/

/-- The text of a word or a number. -/
theorem denotes_of_scalar {levels : Nat} {cs rest : List Char} {d : Datum}
    (h : scalar cs = .ok (d, rest)) :
    ∃ text, Denotes levels text (.value d) ∧ cs = text ++ rest := by
  rw [scalar] at h
  split at h
  · rename_i word d' hword
    obtain ⟨rfl, rfl⟩ := Prod.mk.inj (Except.ok.inj h)
    obtain ⟨after, rfl⟩ : word <+: cs := by simpa using List.find?_some hword
    exact ⟨word, .word (List.mem_of_find?_eq_some hword), by rw [List.drop_left]⟩
  · split at h
    · cases h
    · rename_i p after hp
      obtain ⟨d', hd, h⟩ := bind_eq_ok.1 h
      obtain ⟨rfl, rfl⟩ := Prod.mk.inj (Except.ok.inj h)
      obtain ⟨hwritten, expo, hexpo, hcs⟩ := exists_charsWith_of_numeral? hp
      exact ⟨p.charsWith expo, .number hwritten hexpo hd, hcs⟩

/-- Every value that is read in so many steps has a text. -/
def DerivesValues (steps : Nat) : Prop :=
  ∀ {levels cs d rest}, value steps levels cs = .ok (d, rest) →
    ∃ text, Denotes levels text (.value d) ∧ cs = text ++ rest

/-- All items that are read in so many steps have a text. -/
def DerivesItems (steps : Nat) : Prop :=
  ∀ {levels cs xs rest}, elements steps levels cs = .ok (xs, rest) →
    ∃ text, Denotes levels text (.items xs) ∧ cs = text ++ ']' :: rest

/-- All fields that are read in so many steps have a text. -/
def DerivesFields (steps : Nat) : Prop :=
  ∀ {levels cs writes rest}, members steps levels cs = .ok (writes, rest) →
    ∃ text, Denotes levels text (.fields writes) ∧ cs = text ++ '\x7d' :: rest

section Steps

variable {steps : Nat}

theorem derivesValues_succ (hitems : DerivesItems steps) (hfields : DerivesFields steps) :
    DerivesValues (steps + 1) := by
  intro levels cs d rest h
  unfold value at h
  split at h
  · -- a text
    obtain ⟨⟨s, after⟩, hs, h⟩ := bind_eq_ok.1 h
    obtain ⟨rfl, rfl⟩ := Prod.mk.inj (Except.ok.inj h)
    obtain ⟨body, hbody, rfl⟩ := string_eq_ok.1 (mapError_eq_ok.1 hs)
    exact ⟨_, .text hbody, by simp⟩
  · -- an array, empty or not
    rename_i after
    obtain ⟨blanks, hblanks, hafter⟩ := exists_blanks after
    rcases levels with _ | levels
    · cases h
    dsimp only at h
    split at h
    · rename_i hskip
      obtain ⟨rfl, rfl⟩ := Prod.mk.inj (Except.ok.inj h)
      exact ⟨_, .emptyArray hblanks, by rw [hafter, hskip]; simp⟩
    · obtain ⟨⟨xs, after'⟩, hread, h⟩ := bind_eq_ok.1 h
      obtain ⟨rfl, rfl⟩ := Prod.mk.inj (Except.ok.inj h)
      obtain ⟨text, htext, hskip⟩ := hitems hread
      exact ⟨_, .array hblanks htext, by rw [hafter, hskip]; simp⟩
  · -- an object, empty or not
    rename_i after
    obtain ⟨blanks, hblanks, hafter⟩ := exists_blanks after
    rcases levels with _ | levels
    · cases h
    dsimp only at h
    split at h
    · rename_i hskip
      obtain ⟨rfl, rfl⟩ := Prod.mk.inj (Except.ok.inj h)
      exact ⟨_, .emptyObject hblanks, by rw [hafter, hskip]; simp⟩
    · obtain ⟨⟨writes, after'⟩, hread, h⟩ := bind_eq_ok.1 h
      obtain ⟨rfl, rfl⟩ := Prod.mk.inj (Except.ok.inj h)
      obtain ⟨text, htext, hskip⟩ := hfields hread
      exact ⟨_, .object hblanks htext, by rw [hafter, hskip]; simp⟩
  · exact denotes_of_scalar (mapError_eq_ok.1 h)

theorem derivesItems_succ (hvalues : DerivesValues steps) (hitems : DerivesItems steps) :
    DerivesItems (steps + 1) := by
  intro levels cs xs rest h
  rw [elements] at h
  obtain ⟨⟨x, after⟩, hx, h⟩ := bind_eq_ok.1 h
  obtain ⟨text, htext, hcs⟩ := hvalues hx
  obtain ⟨blanks, hblanks, hafter⟩ := exists_blanks after
  dsimp only at h
  split at h
  · rename_i hskip
    obtain ⟨rfl, rfl⟩ := Prod.mk.inj (Except.ok.inj h)
    exact ⟨_, .lastItem htext hblanks, by rw [hcs, hafter, hskip]; simp⟩
  · rename_i afterComma hskip
    obtain ⟨⟨ys, more⟩, hys, h⟩ := bind_eq_ok.1 h
    obtain ⟨rfl, rfl⟩ := Prod.mk.inj (Except.ok.inj h)
    obtain ⟨between, hbetween, hcomma⟩ := exists_blanks afterComma
    obtain ⟨texts, htexts, hmore⟩ := hitems hys
    refine ⟨_, .item htext hblanks hbetween htexts, ?_⟩
    rw [hcs, hafter, hskip, hcomma, hmore]
    simp
  · cases h

theorem derivesFields_succ (hvalues : DerivesValues steps) (hfields : DerivesFields steps) :
    DerivesFields (steps + 1) := by
  intro levels cs writes rest h
  unfold members at h
  split at h
  · obtain ⟨⟨key, afterKey⟩, hkey, h⟩ := bind_eq_ok.1 h
    obtain ⟨body, hbody, hcs⟩ := string_eq_ok.1 (mapError_eq_ok.1 hkey)
    obtain ⟨before, hbefore, hafterKey⟩ := exists_blanks afterKey
    dsimp only at h
    split at h
    · rename_i afterColon hcolon
      obtain ⟨⟨x, afterValue⟩, hx, h⟩ := bind_eq_ok.1 h
      obtain ⟨text, htext, hskip⟩ := hvalues hx
      obtain ⟨after, hafter, hafterColon⟩ := exists_blanks afterColon
      obtain ⟨blanks, hblanks, hafterValue⟩ := exists_blanks afterValue
      dsimp only at h
      split at h
      · rename_i hbrace
        obtain ⟨rfl, rfl⟩ := Prod.mk.inj (Except.ok.inj h)
        refine ⟨_, .lastField hbody hbefore hafter htext hblanks, ?_⟩
        rw [hcs, hafterKey, hcolon, hafterColon, hskip, hafterValue, hbrace]
        simp
      · rename_i afterComma hcomma
        obtain ⟨⟨more, last⟩, hmore, h⟩ := bind_eq_ok.1 h
        obtain ⟨rfl, rfl⟩ := Prod.mk.inj (Except.ok.inj h)
        obtain ⟨between, hbetween, hafterComma⟩ := exists_blanks afterComma
        obtain ⟨texts, htexts, hrest⟩ := hfields hmore
        refine ⟨_, .field hbody hbefore hafter htext hblanks hbetween htexts, ?_⟩
        rw [hcs, hafterKey, hcolon, hafterColon, hskip, hafterValue, hcomma, hafterComma, hrest]
        simp
      · cases h
    · cases h
  · cases h

end Steps

/-- Whatever is read has a text, by induction on the steps of the reader. -/
theorem derives_steps (steps : Nat) :
    DerivesValues steps ∧ DerivesItems steps ∧ DerivesFields steps := by
  induction steps with
  | zero =>
    refine ⟨?_, ?_, ?_⟩
    · intro levels cs d rest h
      cases h
    · intro levels cs xs rest h
      cases h
    · intro levels cs writes rest h
      cases h
  | succ steps ih =>
    obtain ⟨hvalues, hitems, hfields⟩ := ih
    exact ⟨derivesValues_succ hitems hfields, derivesItems_succ hvalues hitems,
      derivesFields_succ hvalues hfields⟩

/-! ### Whole texts -/

/-- The verdict is what the reader of characters finds, unless that is the end of the levels. -/
theorem read_eq_ok_ok {levels : Nat} {s : String} {d : Datum} :
    read levels s = .ok (.ok d) ↔ readChars levels s.toList = .ok d := by
  rw [read]
  cases readChars levels s.toList with
  | ok d' => simp
  | error e => cases e <;> simp

theorem isNestedTextOf_of_readChars {levels : Nat} {s : String} {d : Datum}
    (h : readChars levels s.toList = .ok d) : IsNestedTextOf levels s d := by
  unfold readChars at h
  split at h
  · cases h
  · obtain ⟨⟨d', rest⟩, hvalue, h⟩ := bind_eq_ok.1 h
    dsimp only at h
    split at h
    · rename_i hnil
      obtain rfl := Except.ok.inj h
      obtain ⟨before, hbefore, hs⟩ := exists_blanks s.toList
      obtain ⟨text, htext, hskip⟩ := (derives_steps _).1 hvalue
      obtain ⟨after, hafter, hrest⟩ := exists_blanks rest
      rw [hnil, List.append_nil] at hrest
      exact ⟨before, text, after, hbefore, htext, hafter, by rw [hs, hskip, hrest]⟩
    · cases h

/-- A byte order mark is neither a blank nor the beginning of a value. -/
theorem ne_byteOrderMark {before cs : List Char} (hbefore : Blanks before) (hopens : Opens cs)
    (rest : List Char) : before ++ cs ≠ '\uFEFF' :: rest := by
  intro h
  cases before with
  | nil =>
    obtain ⟨c, tail, rfl, -, hc⟩ := hopens
    exact hc (by simp [(List.cons.inj h).1])
  | cons c before =>
    have hc := hbefore c (by simp)
    rw [(List.cons.inj h).1] at hc
    exact absurd hc (by decide)

theorem readChars_of_isNestedTextOf {levels : Nat} {s : String} {d : Datum}
    (h : IsNestedTextOf levels s d) : readChars levels s.toList = .ok d := by
  obtain ⟨before, text, after, hbefore, htext, hafter, hs⟩ := h
  have hopens := htext.opens.append after
  have hskip : skip s.toList = text ++ after := by
    rw [hs, skip_append hbefore, hopens.skip]
  have hread : value (2 * s.toList.length + 1) levels (text ++ after) = .ok (d, after) := by
    refine htext.isReadFrom _ after ?_ ?_
    · have := delimited_append hafter delimited_nil
      rwa [List.append_nil] at this
    · rw [hs]
      simp only [List.length_append]
      omega
  have hend : skip after = [] := by
    have := skip_append hafter []
    rwa [List.append_nil] at this
  rw [readChars]
  · rw [hskip, hread]
    simp only [bind, Except.bind, pure, Except.pure, hend]
  · intro rest hrest
    exact ne_byteOrderMark hbefore hopens rest (hs ▸ hrest)

/-- The reader finds a value exactly if the text is a JSON text of it for which the levels
suffice. -/
theorem read_eq_ok {levels : Nat} {s : String} {d : Datum} :
    read levels s = .ok (.ok d) ↔ IsNestedTextOf levels s d :=
  read_eq_ok_ok.trans ⟨isNestedTextOf_of_readChars, readChars_of_isNestedTextOf⟩

/-- No text has no value. -/
theorem IsNestedTextOf.ne_empty {levels : Nat} {s : String} {d : Datum}
    (h : IsNestedTextOf levels s d) : s ≠ "" := by
  rintro rfl
  cases read_eq_ok.2 h

end Trialnet.Json
