import Trialnet.Proofs.Json.Grammar

/-!
# Texts that are nested too deeply

A text is nested too deeply if it opens an array or an object where no level is left for it
(`Overflows`).  What stands before that bracket is as the grammar says, and what stands after it
does not matter.  The reader gives a text up exactly if it is such a text (`read_eq_error`), and
has a verdict on every other one, which *loads* (`loads_iff`).

More levels change no verdict, so what a text stands for does not depend on how many there are
(`read_mono`).  A JSON text loads exactly if the levels suffice for it (`loads_iff_of_isTextOf`),
and any text does if it has no more opening brackets than there are levels
(`loads_of_opened_le`).  A row of more opening brackets than there are levels does not load
(`not_loads_brackets`).
-/

namespace Trialnet

namespace Datum

/-! ### Values -/

mutual

/-- How many levels of arrays and objects a value has. -/
def nesting : Datum → Nat
  | .null | .bool _ | .int _ | .float _ | .text _ | .back | .foreign _ => 0
  | .array items => nestingItems items + 1
  | .object fields => nestingFields fields + 1

/-- The levels of the deepest value in the list. -/
def nestingItems : List Datum → Nat
  | [] => 0
  | x :: xs => max x.nesting (nestingItems xs)

/-- The levels of the deepest value of a field. -/
def nestingFields : List (String × Datum) → Nat
  | [] => 0
  | (_, x) :: xs => max x.nesting (nestingFields xs)

end

theorem nestingItems_le_iff {items : List Datum} {levels : Nat} :
    nestingItems items ≤ levels ↔ ∀ x ∈ items, x.nesting ≤ levels := by
  induction items with
  | nil => simp [nestingItems]
  | cons x xs ih => simp [nestingItems, ih]

theorem nestingFields_le_iff {fields : Fields} {levels : Nat} :
    nestingFields fields ≤ levels ↔ ∀ f ∈ fields, f.2.nesting ≤ levels := by
  induction fields with
  | nil => simp [nestingFields]
  | cons f fields ih => simp [nestingFields, ih]

end Datum

namespace Json

/-! ### The bracket for which no level is left -/

/-- The character that opens an array or an object. -/
def TooDeep.bracket : TooDeep → Char
  | .array => '['
  | .object => '\x7b'

/-- What is expected at some place of a text. -/
inductive Place where
  | value
  /-- The items of an array that is not empty, and its closing bracket. -/
  | items
  /-- The fields of an object that is not empty, and its closing brace. -/
  | fields

/-- With so many levels left at the beginning of the text, it opens an array or an object, as the
cause says, for which there is none.  All that has to be a text of JSON is what stands before
the bracket. -/
inductive Overflows (cause : TooDeep) : Nat → List Char → Place → Prop
  | bracket (rest : List Char) : Overflows cause 0 (cause.bracket :: rest) .value
  | array {levels : Nat} {blanks cs : List Char} (hblanks : Blanks blanks)
      (hitems : Overflows cause levels cs .items) :
      Overflows cause (levels + 1) ('[' :: (blanks ++ cs)) .value
  | object {levels : Nat} {blanks cs : List Char} (hblanks : Blanks blanks)
      (hfields : Overflows cause levels cs .fields) :
      Overflows cause (levels + 1) ('\x7b' :: (blanks ++ cs)) .value
  | firstItem {levels : Nat} {cs : List Char} (hvalue : Overflows cause levels cs .value) :
      Overflows cause levels cs .items
  | laterItem {levels : Nat} {text before after cs : List Char} {x : Datum}
      (htext : Denotes levels text (.value x)) (hbefore : Blanks before) (hafter : Blanks after)
      (hitems : Overflows cause levels cs .items) :
      Overflows cause levels (text ++ (before ++ ',' :: (after ++ cs))) .items
  | firstField {levels : Nat} {body before after cs : List Char} {key : String}
      (hkey : IsStringBody body key.toList) (hbefore : Blanks before) (hafter : Blanks after)
      (hvalue : Overflows cause levels cs .value) :
      Overflows cause levels ('"' :: (body ++ '"' :: (before ++ ':' :: (after ++ cs)))) .fields
  | laterField {levels : Nat} {body before after text blanks between cs : List Char}
      {key : String} {x : Datum} (hkey : IsStringBody body key.toList) (hbefore : Blanks before)
      (hafter : Blanks after) (htext : Denotes levels text (.value x)) (hblanks : Blanks blanks)
      (hbetween : Blanks between) (hfields : Overflows cause levels cs .fields) :
      Overflows cause levels ('"' :: (body ++ '"' :: (before ++ ':' :: (after ++ (text ++ (blanks
        ++ ',' :: (between ++ cs))))))) .fields

/-- The text, after blanks, opens an array or an object for which there is no level. -/
def IsTooDeep (levels : Nat) (s : String) (cause : TooDeep) : Prop :=
  ∃ before cs, Blanks before ∧ Overflows cause levels cs .value ∧ s.toList = before ++ cs

/-- No bracket of the text is one too many for so many levels. -/
def Loads (levels : Nat) (s : String) : Prop := ∀ cause, ¬ IsTooDeep levels s cause

theorem Overflows.opens {cause : TooDeep} {levels : Nat} {cs : List Char} {place : Place}
    (h : Overflows cause levels cs place) : Opens cs := by
  induction h with
  | bracket rest => cases cause <;> exact ⟨_, rest, rfl, by decide, by decide⟩
  | array => exact ⟨'[', _, rfl, by decide, by decide⟩
  | object => exact ⟨'\x7b', _, rfl, by decide, by decide⟩
  | firstItem hvalue ih => exact ih
  | laterItem htext => exact htext.opens.append _
  | firstField => exact ⟨'"', _, rfl, by decide, by decide⟩
  | laterField => exact ⟨'"', _, rfl, by decide, by decide⟩

/-! ### Such a text is given up -/

/-- The reader for the place gives the text up, given enough steps. -/
def Place.GivesUp (cause : TooDeep) (levels : Nat) (cs : List Char) : Place → Prop
  | .value => ∀ steps, 2 * cs.length ≤ steps →
      Json.value steps levels cs = .error (.tooDeep cause)
  | .items => ∀ steps, 2 * cs.length + 1 ≤ steps →
      elements steps levels cs = .error (.tooDeep cause)
  | .fields => ∀ steps, 2 * cs.length + 1 ≤ steps →
      members steps levels cs = .error (.tooDeep cause)

/-- The reader gets to the bracket, as it reads all that stands before it. -/
theorem Overflows.givesUp {cause : TooDeep} {levels : Nat} {cs : List Char} {place : Place}
    (h : Overflows cause levels cs place) : place.GivesUp cause levels cs := by
  induction h with
  | bracket rest =>
    intro steps hsteps
    obtain ⟨k, rfl⟩ : ∃ k, steps = k + 1 := ⟨steps - 1, by simp at hsteps; omega⟩
    cases cause <;> rfl
  | array hblanks hitems ih =>
    intro steps hsteps
    simp only [List.length_cons, List.length_append] at hsteps
    obtain ⟨k, rfl⟩ : ∃ k, steps = k + 1 := ⟨steps - 1, by omega⟩
    rw [value_array hblanks hitems.opens, ih k (by omega)]
    rfl
  | object hblanks hfields ih =>
    intro steps hsteps
    simp only [List.length_cons, List.length_append] at hsteps
    obtain ⟨k, rfl⟩ : ∃ k, steps = k + 1 := ⟨steps - 1, by omega⟩
    rw [value_object hblanks hfields.opens, ih k (by omega)]
    rfl
  | firstItem hvalue ih =>
    intro steps hsteps
    obtain ⟨k, rfl⟩ : ∃ k, steps = k + 1 := ⟨steps - 1, by omega⟩
    rw [elements, ih k (by omega)]
    rfl
  | laterItem htext hbefore hafter hitems ih =>
    intro steps hsteps
    simp only [List.length_cons, List.length_append] at hsteps
    obtain ⟨k, rfl⟩ : ∃ k, steps = k + 1 := ⟨steps - 1, by omega⟩
    rw [elements_more hbefore hafter hitems.opens (htext.isReadFrom k _
      (delimited_append hbefore (delimited_cons (c := ',') (by simp) _)) (by omega)),
      ih k (by omega)]
    rfl
  | firstField hkey hbefore hafter hvalue ih =>
    intro steps hsteps
    simp only [List.length_cons, List.length_append] at hsteps
    obtain ⟨k, rfl⟩ : ∃ k, steps = k + 1 := ⟨steps - 1, by omega⟩
    rw [members_succ hkey hbefore hafter hvalue.opens, ih k (by omega)]
    rfl
  | laterField hkey hbefore hafter htext hblanks hbetween hfields ih =>
    intro steps hsteps
    simp only [List.length_cons, List.length_append] at hsteps
    obtain ⟨k, rfl⟩ : ∃ k, steps = k + 1 := ⟨steps - 1, by omega⟩
    rw [members_more hkey hbefore hafter (htext.opens.append _) hblanks hbetween hfields.opens
      (htext.isReadFrom k _ (delimited_append hblanks (delimited_cons (c := ',') (by simp) _))
        (by omega)), ih k (by omega)]
    rfl

/-! ### What is given up is such a text -/

/-- A value that is given up in so many steps opens a bracket for which no level is left. -/
def OverflowsValues (steps : Nat) : Prop :=
  ∀ {levels cs cause}, value steps levels cs = .error (.tooDeep cause) →
    Overflows cause levels cs .value

/-- So do items. -/
def OverflowsItems (steps : Nat) : Prop :=
  ∀ {levels cs cause}, elements steps levels cs = .error (.tooDeep cause) →
    Overflows cause levels cs .items

/-- So do fields. -/
def OverflowsFields (steps : Nat) : Prop :=
  ∀ {levels cs cause}, members steps levels cs = .error (.tooDeep cause) →
    Overflows cause levels cs .fields

/-- A reader of something else never gives up. -/
theorem mapError_fault_ne_tooDeep {α : Type} {x : Except Fault α} {cause : TooDeep} :
    x.mapError Stop.fault ≠ .error (.tooDeep cause) := by
  intro h
  cases x <;> cases h

section Steps

variable {steps : Nat}

theorem overflowsValues_succ (hitems : OverflowsItems steps) (hfields : OverflowsFields steps) :
    OverflowsValues (steps + 1) := by
  intro levels cs cause h
  unfold value at h
  split at h
  · rcases bind_eq_error.1 h with hstring | ⟨_, -, hend⟩
    · exact absurd hstring mapError_fault_ne_tooDeep
    · cases hend
  · -- an array: there is no level for it, or for something among its items
    rename_i rest
    rcases levels with _ | levels
    · cases h
      exact .bracket rest
    obtain ⟨blanks, hblanks, hrest⟩ := exists_blanks rest
    dsimp only at h
    split at h
    · cases h
    · rcases bind_eq_error.1 h with hinside | ⟨_, -, hend⟩
      · rw [hrest]
        exact .array hblanks (hitems hinside)
      · cases hend
  · rename_i rest
    rcases levels with _ | levels
    · cases h
      exact .bracket rest
    obtain ⟨blanks, hblanks, hrest⟩ := exists_blanks rest
    dsimp only at h
    split at h
    · cases h
    · rcases bind_eq_error.1 h with hinside | ⟨_, -, hend⟩
      · rw [hrest]
        exact .object hblanks (hfields hinside)
      · cases hend
  · exact absurd h mapError_fault_ne_tooDeep

theorem overflowsItems_succ (hvalues : OverflowsValues steps) (hitems : OverflowsItems steps) :
    OverflowsItems (steps + 1) := by
  intro levels cs cause h
  rw [elements] at h
  rcases bind_eq_error.1 h with hvalue | ⟨⟨x, rest⟩, hx, hrest⟩
  · exact .firstItem (hvalues hvalue)
  obtain ⟨text, htext, rfl⟩ := (derives_steps steps).1 hx
  obtain ⟨before, hbefore, hskip⟩ := exists_blanks rest
  dsimp only at hrest
  split at hrest
  · cases hrest
  · rename_i afterComma hcomma
    obtain ⟨after, hafter, hafterComma⟩ := exists_blanks afterComma
    rcases bind_eq_error.1 hrest with hmore | ⟨_, -, hend⟩
    · rw [hskip, hcomma, hafterComma]
      exact .laterItem htext hbefore hafter (hitems hmore)
    · cases hend
  · cases hrest

theorem overflowsFields_succ (hvalues : OverflowsValues steps) (hfields : OverflowsFields steps) :
    OverflowsFields (steps + 1) := by
  intro levels cs cause h
  unfold members at h
  split at h
  · rcases bind_eq_error.1 h with hkey | ⟨⟨key, afterKey⟩, hkey, hrest⟩
    · exact absurd hkey mapError_fault_ne_tooDeep
    obtain ⟨body, hbody, rfl⟩ := string_eq_ok.1 (mapError_eq_ok.1 hkey)
    obtain ⟨before, hbefore, hafterKey⟩ := exists_blanks afterKey
    dsimp only at hrest
    split at hrest
    · rename_i afterColon hcolon
      obtain ⟨after, hafter, hafterColon⟩ := exists_blanks afterColon
      rcases bind_eq_error.1 hrest with hvalue | ⟨⟨x, afterValue⟩, hx, hrest⟩
      · rw [hafterKey, hcolon, hafterColon]
        exact .firstField hbody hbefore hafter (hvalues hvalue)
      obtain ⟨text, htext, hskip⟩ := (derives_steps steps).1 hx
      obtain ⟨blanks, hblanks, hafterValue⟩ := exists_blanks afterValue
      dsimp only at hrest
      split at hrest
      · cases hrest
      · rename_i afterComma hcomma
        obtain ⟨between, hbetween, hafterComma⟩ := exists_blanks afterComma
        rcases bind_eq_error.1 hrest with hmore | ⟨_, -, hend⟩
        · rw [hafterKey, hcolon, hafterColon, hskip, hafterValue, hcomma, hafterComma]
          exact .laterField hbody hbefore hafter htext hblanks hbetween (hfields hmore)
        · cases hend
      · cases hrest
    · cases hrest
  · cases h

end Steps

/-- Whatever is given up opens a bracket for which no level is left, by induction on the steps of
the reader. -/
theorem overflows_steps (steps : Nat) :
    OverflowsValues steps ∧ OverflowsItems steps ∧ OverflowsFields steps := by
  induction steps with
  | zero =>
    refine ⟨?_, ?_, ?_⟩
    · intro levels cs cause h
      cases h
    · intro levels cs cause h
      cases h
    · intro levels cs cause h
      cases h
  | succ steps ih =>
    obtain ⟨hvalues, hitems, hfields⟩ := ih
    exact ⟨overflowsValues_succ hitems hfields, overflowsItems_succ hvalues hitems,
      overflowsFields_succ hvalues hfields⟩

/-! ### Whole texts -/

theorem readChars_eq_tooDeep {levels : Nat} {s : String} {cause : TooDeep} :
    readChars levels s.toList = .error (.tooDeep cause) ↔ IsTooDeep levels s cause := by
  constructor
  · intro h
    unfold readChars at h
    split at h
    · cases h
    · rcases bind_eq_error.1 h with hvalue | ⟨⟨d, rest⟩, -, hend⟩
      · obtain ⟨before, hbefore, hs⟩ := exists_blanks s.toList
        exact ⟨before, _, hbefore, (overflows_steps _).1 hvalue, hs⟩
      · dsimp only at hend
        split at hend <;> cases hend
  · rintro ⟨before, cs, hbefore, h, hs⟩
    have hskip : skip s.toList = cs := by rw [hs, skip_append hbefore, h.opens.skip]
    rw [readChars]
    · rw [hskip, h.givesUp _ (by rw [hs, List.length_append]; omega)]
      rfl
    · intro rest hrest
      have := ne_byteOrderMark hbefore h.opens rest
      exact this (hs ▸ hrest)

/-- The reader gives a text up exactly if it is nested too deeply. -/
theorem read_eq_error {levels : Nat} {s : String} {cause : TooDeep} :
    read levels s = .error cause ↔ IsTooDeep levels s cause := by
  rw [← readChars_eq_tooDeep, read]
  rcases readChars levels s.toList with (_ | _) | _ <;> simp

/-- The reader has a verdict on a text, its value or that it is not JSON, exactly if it loads. -/
theorem loads_iff {levels : Nat} {s : String} :
    Loads levels s ↔ ∃ verdict, read levels s = .ok verdict := by
  simp only [Loads, ← read_eq_error]
  cases read levels s <;> simp

theorem loads_of_read {levels : Nat} {s : String} {verdict : Except Fault Datum}
    (h : read levels s = .ok verdict) : Loads levels s :=
  loads_iff.2 ⟨verdict, h⟩

theorem not_loads_iff {levels : Nat} {s : String} :
    ¬ Loads levels s ↔ ∃ cause, read levels s = .error cause := by
  simp only [Loads, read_eq_error, not_forall, not_not]

theorem isOk_read_iff {levels : Nat} {s : String} :
    (read levels s).isOk = true ↔ Loads levels s := by
  rw [loads_iff]
  cases read levels s <;> simp [Except.isOk, Except.toBool]

instance (levels : Nat) (s : String) : Decidable (Loads levels s) :=
  decidable_of_iff _ isOk_read_iff

/-! ### More levels -/

/-- The second result is the first one, unless that is the end of the levels. -/
def Keeps {α : Type} (x y : Except Stop α) : Prop := (∃ cause, x = .error (.tooDeep cause)) ∨ y = x

section Keeps

variable {α β : Type}

theorem Keeps.refl (x : Except Stop α) : Keeps x x := Or.inr rfl

theorem Keeps.bind {x y : Except Stop α} {f g : α → Except Stop β} (h : Keeps x y)
    (hf : ∀ a, Keeps (f a) (g a)) : Keeps (x >>= f) (y >>= g) := by
  rcases h with ⟨cause, rfl⟩ | rfl
  · exact Or.inl ⟨cause, rfl⟩
  · cases y with
    | error e => exact Keeps.refl _
    | ok a => exact hf a

end Keeps

/-- More levels change nothing about a value that is read in so many steps. -/
def KeepsValues (steps : Nat) : Prop :=
  ∀ {levels levels' : Nat}, levels ≤ levels' → ∀ cs,
    Keeps (value steps levels cs) (value steps levels' cs)

/-- More levels change nothing about items that are read in so many steps. -/
def KeepsItems (steps : Nat) : Prop :=
  ∀ {levels levels' : Nat}, levels ≤ levels' → ∀ cs,
    Keeps (elements steps levels cs) (elements steps levels' cs)

/-- More levels change nothing about fields that are read in so many steps. -/
def KeepsFields (steps : Nat) : Prop :=
  ∀ {levels levels' : Nat}, levels ≤ levels' → ∀ cs,
    Keeps (members steps levels cs) (members steps levels' cs)

section Steps

variable {steps : Nat}

theorem keepsValues_succ (hitems : KeepsItems steps) (hfields : KeepsFields steps) :
    KeepsValues (steps + 1) := by
  intro levels levels' hle cs
  unfold value
  split
  · exact Keeps.refl _
  · -- an array: either there was no level for it, or there still is one
    rcases levels with _ | levels
    · exact Or.inl ⟨_, rfl⟩
    obtain ⟨levels', rfl⟩ := Nat.exists_eq_add_of_le' (Nat.le_trans (Nat.le_add_left 1 levels) hle)
    dsimp only
    split
    · exact Keeps.refl _
    · exact (hitems (Nat.le_of_succ_le_succ hle) _).bind fun _ => Keeps.refl _
  · rcases levels with _ | levels
    · exact Or.inl ⟨_, rfl⟩
    obtain ⟨levels', rfl⟩ := Nat.exists_eq_add_of_le' (Nat.le_trans (Nat.le_add_left 1 levels) hle)
    dsimp only
    split
    · exact Keeps.refl _
    · exact (hfields (Nat.le_of_succ_le_succ hle) _).bind fun _ => Keeps.refl _
  · exact Keeps.refl _

theorem keepsItems_succ (hvalues : KeepsValues steps) (hitems : KeepsItems steps) :
    KeepsItems (steps + 1) := by
  intro levels levels' hle cs
  rw [elements, elements]
  refine (hvalues hle cs).bind ?_
  rintro ⟨x, rest⟩
  dsimp only
  split
  · exact Keeps.refl _
  · exact (hitems hle _).bind fun _ => Keeps.refl _
  · exact Keeps.refl _

theorem keepsFields_succ (hvalues : KeepsValues steps) (hfields : KeepsFields steps) :
    KeepsFields (steps + 1) := by
  intro levels levels' hle cs
  unfold members
  split
  · refine (Keeps.refl _).bind ?_
    rintro ⟨key, afterKey⟩
    dsimp only
    split
    · refine (hvalues hle _).bind ?_
      rintro ⟨x, afterValue⟩
      dsimp only
      split
      · exact Keeps.refl _
      · exact (hfields hle _).bind fun _ => Keeps.refl _
      · exact Keeps.refl _
    · exact Keeps.refl _
  · exact Keeps.refl _

end Steps

/-- More levels change nothing, by induction on the steps of the reader. -/
theorem keeps_steps (steps : Nat) : KeepsValues steps ∧ KeepsItems steps ∧ KeepsFields steps := by
  induction steps with
  | zero =>
    exact ⟨fun _ _ => Keeps.refl _, fun _ _ => Keeps.refl _, fun _ _ => Keeps.refl _⟩
  | succ steps ih =>
    obtain ⟨hvalues, hitems, hfields⟩ := ih
    exact ⟨keepsValues_succ hitems hfields, keepsItems_succ hvalues hitems,
      keepsFields_succ hvalues hfields⟩

theorem keeps_readChars {levels levels' : Nat} (hle : levels ≤ levels') (cs : List Char) :
    Keeps (readChars levels cs) (readChars levels' cs) := by
  unfold readChars
  split
  · exact Keeps.refl _
  · exact ((keeps_steps _).1 hle _).bind fun _ => Keeps.refl _

/-- A verdict stays the same with more levels. -/
theorem read_mono {levels levels' : Nat} (hle : levels ≤ levels') {s : String}
    {verdict : Except Fault Datum} (h : read levels s = .ok verdict) :
    read levels' s = .ok verdict := by
  rcases keeps_readChars hle s.toList with ⟨cause, hgiven⟩ | hsame
  · rw [read, hgiven] at h
    cases h
  · rw [read, hsame]
    exact h

theorem Loads.mono {levels levels' : Nat} {s : String} (h : Loads levels s)
    (hle : levels ≤ levels') : Loads levels' s := by
  obtain ⟨verdict, hverdict⟩ := loads_iff.1 h
  exact loads_of_read (read_mono hle hverdict)

/-! ### JSON texts -/

theorem isTextOf_of_read {levels : Nat} {s : String} {d : Datum}
    (h : read levels s = .ok (.ok d)) : IsTextOf s d := ⟨levels, read_eq_ok.1 h⟩

/-- A text that loads is read as whatever it is a JSON text of. -/
theorem IsTextOf.read_of_loads {levels : Nat} {s : String} {d : Datum} (h : IsTextOf s d)
    (hloads : Loads levels s) : read levels s = .ok (.ok d) := by
  obtain ⟨levels', htext⟩ := h
  obtain ⟨verdict, hverdict⟩ := loads_iff.1 hloads
  -- both readings are there with the greater number of levels
  have hread := read_mono (Nat.le_max_right levels levels') (read_eq_ok.2 htext)
  have hread' := read_mono (Nat.le_max_left levels levels') hverdict
  rw [hverdict, Except.ok.inj (hread'.symm.trans hread)]

/-- A text is a JSON text of one value only. -/
theorem IsTextOf.unique {s : String} {d d' : Datum} (h : IsTextOf s d) (h' : IsTextOf s d') :
    d = d' := by
  obtain ⟨levels, htext⟩ := h
  have hread := read_eq_ok.2 htext
  have hread' := h'.read_of_loads (loads_of_read hread)
  exact Except.ok.inj (Except.ok.inj (hread.symm.trans hread'))

theorem IsTextOf.ne_empty {s : String} {d : Datum} (h : IsTextOf s d) : s ≠ "" := by
  obtain ⟨levels, htext⟩ := h
  exact htext.ne_empty

/-- A JSON text loads exactly if the levels suffice for it. -/
theorem loads_iff_of_isTextOf {levels : Nat} {s : String} {d : Datum} (h : IsTextOf s d) :
    Loads levels s ↔ IsNestedTextOf levels s d :=
  ⟨fun hloads => read_eq_ok.1 (h.read_of_loads hloads),
    fun htext => loads_of_read (read_eq_ok.2 htext)⟩

/-! ### Brackets -/

/-- How many arrays and objects the text opens, if all of its characters count. -/
def opened (cs : List Char) : Nat := cs.count '[' + cs.count '\x7b'

theorem opened_le_of_suffix {cs cs' : List Char} (h : cs <:+ cs') : opened cs ≤ opened cs' :=
  Nat.add_le_add (h.sublist.count_le _) (h.sublist.count_le _)

/-- Each level that is used up has a bracket of its own, and there is one more. -/
theorem Overflows.lt_opened {cause : TooDeep} {levels : Nat} {cs : List Char} {place : Place}
    (h : Overflows cause levels cs place) : levels < opened cs := by
  induction h with
  | bracket rest => cases cause <;> simp [opened, TooDeep.bracket]
  | array | object =>
    rename_i ih
    simp only [opened, List.count_append, List.count_cons_self, List.count_cons_of_ne, ne_eq,
      Char.reduceEq, not_false_eq_true] at ih ⊢
    omega
  | firstItem hvalue ih => exact ih
  | laterItem | firstField | laterField =>
    rename_i ih
    simp only [opened, List.count_append, List.count_cons] at ih ⊢
    omega

/-- A text that opens no more brackets than there are levels loads. -/
theorem loads_of_opened_le {levels : Nat} {s : String} (h : opened s.toList ≤ levels) :
    Loads levels s := by
  rintro cause ⟨before, cs, -, hover, hs⟩
  have hsuffix : cs <:+ s.toList := hs ▸ List.suffix_append before cs
  exact absurd (lt_of_lt_of_le hover.lt_opened (opened_le_of_suffix hsuffix)) (Nat.not_lt.2 h)

/-! ### Rows of brackets -/

/-- A row of so many opening brackets. -/
def brackets (n : Nat) : String := String.ofList (List.replicate n '[')

theorem overflows_replicate (levels : Nat) : ∀ {n : Nat}, levels < n →
    Overflows .array levels (List.replicate n '[') .value := by
  induction levels with
  | zero =>
    intro n hn
    obtain ⟨n, rfl⟩ := Nat.exists_eq_add_of_le' hn
    exact .bracket (List.replicate n '[')
  | succ levels ih =>
    intro n hn
    obtain ⟨n, rfl⟩ := Nat.exists_eq_add_of_le' (Nat.succ_le_of_lt (Nat.zero_lt_of_lt hn))
    exact .array blanks_nil (.firstItem (ih (Nat.lt_of_succ_lt_succ hn)))

/-- A row of more brackets than there are levels is given up. -/
theorem read_brackets {levels n : Nat} (h : levels < n) :
    read levels (brackets n) = .error .array :=
  read_eq_error.2 ⟨[], _, blanks_nil, overflows_replicate levels h, String.toList_ofList⟩

theorem brackets_ne_empty {n : Nat} (h : 0 < n) : brackets n ≠ "" := by
  intro hempty
  have hread := read_brackets h
  rw [hempty] at hread
  cases hread

theorem not_loads_brackets {levels n : Nat} (h : levels < n) : ¬ Loads levels (brackets n) :=
  not_loads_iff.2 ⟨.array, read_brackets h⟩

end Json

end Trialnet
