import Trialnet.Duration.Basic

/-!
# How durations in parts are written

A part is a number and a unit, and a duration is one part after the other.  The reader takes as
many digits as there are and prefers milliseconds to minutes.  Nothing is lost by that: a unit
is neither a digit nor a point, and behind a part there is nothing or a digit.  So the parts that
are found are exactly the parts that a text is made of.
-/

namespace Trialnet.Duration

open Text

/-- The characters of a unit. -/
def Unit.chars : Unit → List Char
  | .hour => ['h']
  | .minute => ['m']
  | .second => ['s']
  | .millisecond => ['m', 's']

/-- The characters of the digits after the point, with the point if there are any. -/
def fractionChars : List Char → List Char
  | [] => []
  | d :: ds => '.' :: d :: ds

/-- The characters of a part. -/
def Part.chars (p : Part) : List Char := p.whole ++ (fractionChars p.fraction ++ p.unit.chars)

/-- The number of a part is written in digits, at least one of them before the point. -/
structure Part.IsWritten (p : Part) : Prop where
  whole_ne_nil : p.whole ≠ []
  whole : ∀ c ∈ p.whole, isDecimalDigit c = true
  fraction : ∀ c ∈ p.fraction, isDecimalDigit c = true

/-! ### From parts to texts and back -/

/-- What may follow a part: nothing or the digits of the next one. -/
def StartsPart (rest : List Char) : Prop := ∀ c ∈ rest.head?, isDecimalDigit c = true

theorem startsPart_append {ds rest : List Char} (hne : ds ≠ [])
    (h : ∀ c ∈ ds, isDecimalDigit c = true) : StartsPart (ds ++ rest) := by
  obtain ⟨d, ds, rfl⟩ := List.exists_cons_of_ne_nil hne
  intro c hc
  obtain rfl : d = c := by simpa using hc
  exact h d List.mem_cons_self

theorem startsPart_chars {ps : List Part} (h : ∀ p ∈ ps, p.IsWritten) :
    StartsPart (ps.flatMap Part.chars) := by
  cases ps with
  | nil => simp [StartsPart]
  | cons p ps =>
    have hp := h p List.mem_cons_self
    rw [List.flatMap_cons, Part.chars, List.append_assoc]
    exact startsPart_append hp.whole_ne_nil hp.whole

/-- A unit is neither a digit nor a point. -/
theorem unitChars_cons (u : Unit) :
    ∃ c tail, u.chars = c :: tail ∧ isDecimalDigit c = false ∧ c ≠ '.' := by
  cases u with
  | hour => exact ⟨'h', [], rfl, by decide, by decide⟩
  | minute => exact ⟨'m', [], rfl, by decide, by decide⟩
  | second => exact ⟨'s', [], rfl, by decide, by decide⟩
  | millisecond => exact ⟨'m', ['s'], rfl, by decide, by decide⟩

/-- Behind digits there is a point or a unit, and none of them is a digit. -/
theorem digitRun_append {ds rest : List Char} (h : ∀ c ∈ ds, isDecimalDigit c = true)
    (hrest : ∀ c ∈ rest.head?, isDecimalDigit c = false) : digitRun (ds ++ rest) = (ds, rest) := by
  rw [digitRun, List.takeWhile_append_of_pos h, List.dropWhile_append_of_pos h]
  cases rest with
  | nil => simp
  | cons c rest => simp [hrest c rfl]

theorem fraction_fractionChars (u : Unit) {ds : List Char}
    (h : ∀ c ∈ ds, isDecimalDigit c = true) (rest : List Char) :
    fraction (fractionChars ds ++ (u.chars ++ rest)) = (ds, u.chars ++ rest) := by
  obtain ⟨c, tail, hchars, hdigit, hpoint⟩ := unitChars_cons u
  cases ds with
  | nil =>
    rw [fractionChars, List.nil_append, hchars, List.cons_append, fraction]
    intro rest heq
    exact hpoint (List.cons.inj heq).1
  | cons d ds =>
    have hrun : digitRun (d :: ds ++ (u.chars ++ rest)) = (d :: ds, u.chars ++ rest) :=
      digitRun_append h (by simp [hchars, hdigit])
    rw [fractionChars, List.cons_append, fraction, hrun]

theorem unit?_chars (u : Unit) {rest : List Char} (h : StartsPart rest) :
    unit? (u.chars ++ rest) = some (u, rest) := by
  cases u with
  | hour => rfl
  | second => rfl
  | millisecond => rfl
  | minute =>
    cases rest with
    | nil => rfl
    | cons c rest =>
      have hc : c ≠ 's' := by
        rintro rfl
        exact absurd (h 's' rfl) (by decide)
      simp [Unit.chars, unit?, hc]

/-- A part is read from in front of whatever may follow it. -/
theorem part?_chars {p : Part} (hp : p.IsWritten) {rest : List Char} (h : StartsPart rest) :
    part? (p.chars ++ rest) = some (p, rest) := by
  have hunit := unit?_chars p.unit h
  have hfraction := fraction_fractionChars p.unit hp.fraction rest
  obtain ⟨c, tail, hchars, hdigit, -⟩ := unitChars_cons p.unit
  have hrun : digitRun (p.whole ++ (fractionChars p.fraction ++ (p.unit.chars ++ rest)))
      = (p.whole, fractionChars p.fraction ++ (p.unit.chars ++ rest)) := by
    refine digitRun_append hp.whole ?_
    cases p.fraction with
    | nil => simp [fractionChars, hchars, hdigit]
    | cons d ds =>
      intro c' hc'
      obtain rfl : '.' = c' := by simpa [fractionChars] using hc'
      decide
  simp only [part?, Part.chars, List.append_assoc, hrun, hp.whole_ne_nil, if_false, hfraction,
    hunit]
  rfl

/-- Parts that are written one after the other are read one after the other. -/
theorem partsUpTo_chars {ps : List Part} (h : ∀ p ∈ ps, p.IsWritten) :
    ∀ steps, ps.length ≤ steps → partsUpTo steps (ps.flatMap Part.chars) = some ps := by
  induction ps with
  | nil =>
    intro steps _
    rw [List.flatMap_nil, partsUpTo]
  | cons p ps ih =>
    intro steps hsteps
    obtain ⟨k, rfl⟩ : ∃ k, steps = k + 1 := ⟨steps - 1, by simp at hsteps; omega⟩
    have hp := h p List.mem_cons_self
    have hps : ∀ q ∈ ps, q.IsWritten := fun q hq => h q (List.mem_cons_of_mem _ hq)
    have hread := part?_chars hp (startsPart_chars hps)
    have hne : p.chars ++ ps.flatMap Part.chars ≠ [] := by simp [Part.chars, hp.whole_ne_nil]
    rw [List.flatMap_cons, partsUpTo, hread]
    · simp only [Option.bind_eq_bind, Option.bind_some, ih hps k (by simpa using hsteps)]
      rfl
    · exact hne

theorem length_le_length_chars {ps : List Part} (h : ∀ p ∈ ps, p.IsWritten) :
    ps.length ≤ (ps.flatMap Part.chars).length := by
  induction ps with
  | nil => simp
  | cons p ps ih =>
    have hwhole := List.length_pos_iff.2 (h p List.mem_cons_self).whole_ne_nil
    have hps := ih fun q hq => h q (List.mem_cons_of_mem _ hq)
    simp only [List.flatMap_cons, Part.chars, List.length_append, List.length_cons]
    omega

/-! ### From texts to parts and back -/

theorem append_of_digitRun {cs ds rest : List Char} (h : digitRun cs = (ds, rest)) :
    (∀ c ∈ ds, isDecimalDigit c = true) ∧ ds ++ rest = cs := by
  obtain ⟨rfl, rfl⟩ := Prod.mk.inj h
  exact ⟨List.all_eq_true.1 List.all_takeWhile, List.takeWhile_append_dropWhile⟩

theorem append_of_fraction {cs ds rest : List Char} (h : fraction cs = (ds, rest)) :
    (∀ c ∈ ds, isDecimalDigit c = true) ∧ fractionChars ds ++ rest = cs := by
  unfold fraction at h
  split at h
  · rename_i afterPoint
    split at h
    · obtain ⟨rfl, rfl⟩ := Prod.mk.inj h
      exact ⟨fun c hc => absurd hc List.not_mem_nil, rfl⟩
    · rename_i ds' rest' hne hrun
      obtain ⟨rfl, rfl⟩ := Prod.mk.inj h
      obtain ⟨hdigits, rfl⟩ := append_of_digitRun hrun
      refine ⟨hdigits, ?_⟩
      cases ds' with
      | nil => exact absurd rfl hne
      | cons d ds => rfl
  · obtain ⟨rfl, rfl⟩ := Prod.mk.inj h
    exact ⟨fun c hc => absurd hc List.not_mem_nil, rfl⟩

theorem append_of_unit? {cs rest : List Char} {u : Unit} (h : unit? cs = some (u, rest)) :
    u.chars ++ rest = cs := by
  unfold unit? at h
  split at h
  · obtain ⟨rfl, rfl⟩ := Prod.mk.inj (Option.some.inj h)
    rfl
  · obtain ⟨rfl, rfl⟩ := Prod.mk.inj (Option.some.inj h)
    rfl
  · obtain ⟨rfl, rfl⟩ := Prod.mk.inj (Option.some.inj h)
    rfl
  · obtain ⟨rfl, rfl⟩ := Prod.mk.inj (Option.some.inj h)
    rfl
  · cases h

/-- A part that is read is written at the beginning of the text. -/
theorem append_of_part? {cs rest : List Char} {p : Part} (h : part? cs = some (p, rest)) :
    p.IsWritten ∧ p.chars ++ rest = cs := by
  rcases hrun : digitRun cs with ⟨whole, afterWhole⟩
  rcases hpoint : fraction afterWhole with ⟨frac, afterFraction⟩
  obtain ⟨hwhole, hcs⟩ := append_of_digitRun hrun
  obtain ⟨hfraction, hafter⟩ := append_of_fraction hpoint
  simp only [part?, hrun, hpoint] at h
  split at h
  · cases h
  · rename_i hne
    obtain ⟨⟨unit, afterUnit⟩, hunit, h⟩ := Option.bind_eq_some_iff.1 h
    obtain ⟨rfl, rfl⟩ := Prod.mk.inj (Option.some.inj h)
    refine ⟨⟨hne, hwhole, hfraction⟩, ?_⟩
    rw [Part.chars, List.append_assoc, List.append_assoc, append_of_unit? hunit, hafter, hcs]

theorem flatMap_of_partsUpTo :
    ∀ {steps : Nat} {cs : List Char} {ps : List Part}, partsUpTo steps cs = some ps →
      (∀ p ∈ ps, p.IsWritten) ∧ ps.flatMap Part.chars = cs := by
  intro steps
  induction steps with
  | zero =>
    intro cs ps h
    cases cs with
    | nil =>
      obtain rfl := Option.some.inj h
      exact ⟨fun p hp => absurd hp List.not_mem_nil, rfl⟩
    | cons c cs => cases h
  | succ steps ih =>
    intro cs ps h
    cases cs with
    | nil =>
      obtain rfl := Option.some.inj h
      exact ⟨fun p hp => absurd hp List.not_mem_nil, rfl⟩
    | cons c cs =>
      obtain ⟨⟨p, rest⟩, hp, h⟩ := Option.bind_eq_some_iff.1 h
      obtain ⟨qs, hqs, h⟩ := Option.bind_eq_some_iff.1 h
      obtain rfl := Option.some.inj h
      obtain ⟨hwritten, hchars⟩ := append_of_part? hp
      obtain ⟨hwritten', hchars'⟩ := ih hqs
      refine ⟨List.forall_mem_cons.2 ⟨hwritten, hwritten'⟩, ?_⟩
      rw [List.flatMap_cons, hchars', hchars]

/-- The parts that are found are those that the text is made of, and there is no other way to
divide it. -/
theorem parts?_eq_some {cs : List Char} {ps : List Part} :
    parts? cs = some ps ↔ (∀ p ∈ ps, p.IsWritten) ∧ ps.flatMap Part.chars = cs := by
  constructor
  · exact flatMap_of_partsUpTo
  · rintro ⟨h, rfl⟩
    exact partsUpTo_chars h _ (length_le_length_chars h)

end Trialnet.Duration
