import Trialnet.EncodeError
import Trialnet.Proofs.Text.Numerals

/-!
# Values without a JSON text

What keeps a value from having a JSON text is one of the values inside it: a reference back to a
container, a foreign value, an integer of more than 4300 digits, or under the stricter policy a
number that is not finite.  The printer goes through the values inside in the order in which they
are written and ends in the flaw of the first one that has any, so it succeeds exactly if there is
none at any depth.
-/

namespace Trialnet

namespace Datum

/-! ### The values inside a value -/

mutual

/-- A value and all values inside it, at any depth, in the order in which they begin. -/
def values : Datum → List Datum
  | .array items => .array items :: itemValues items
  | .object fields => .object fields :: fieldValues fields
  | d => [d]

/-- The values of a list and all values inside them. -/
def itemValues : List Datum → List Datum
  | [] => []
  | x :: xs => values x ++ itemValues xs

/-- The values of fields and all values inside them. -/
def fieldValues : List (String × Datum) → List Datum
  | [] => []
  | (_, x) :: xs => values x ++ fieldValues xs

end

/-- Why a value has no JSON text whatever is inside it. -/
def flaw? (policy : Json.NonFinite) : Datum → Option Json.PrintError
  | .back => some .circular
  | .foreign typeName => some (.foreign typeName)
  | .float x => if policy = .spelled ∨ x.isFinite = true then none else some .nonFinite
  | .int n =>
    if Numeral.maxDigits < (Numeral.digits n.natAbs).length then some .longInteger else none
  | _ => none

end Datum

/-! ### Computations that end in an error -/

/-- The computation ends in the error, or without one if there is none. -/
def EndsIn {ε α : Type} (x : Except ε α) (failure : Option ε) : Prop :=
  ∀ e, x = .error e ↔ failure = some e

namespace EndsIn

variable {ε ε' α β : Type}

theorem pure (a : α) : EndsIn (Pure.pure a : Except ε α) none := by
  intro e
  constructor
  · intro h
    cases h
  · intro h
    cases h

theorem error (e : ε) : EndsIn (.error e : Except ε α) (some e) := fun _ =>
  ⟨fun h => congrArg _ (Except.error.inj h), fun h => congrArg _ (Option.some.inj h)⟩

theorem eq_none {a : α} {failure : Option ε} (h : EndsIn (.ok a) failure) : failure = none := by
  cases failure with
  | none => rfl
  | some e => cases (h e).2 rfl

theorem eq_some {e : ε} {failure : Option ε} (h : EndsIn (.error e : Except ε α) failure) :
    failure = some e :=
  (h e).1 rfl

/-- Of two computations in a row, the first one that fails decides. -/
theorem bind {x : Except ε α} {f : α → Except ε β} {failure failure' : Option ε}
    (hx : EndsIn x failure) (hf : ∀ a, EndsIn (f a) failure') :
    EndsIn (x >>= f) (failure.or failure') := by
  cases x with
  | error e =>
    rw [hx.eq_some, Option.some_or]
    exact EndsIn.error e
  | ok a =>
    rw [hx.eq_none, Option.none_or]
    exact hf a

theorem map {x : Except ε α} {failure : Option ε} (h : EndsIn x failure) (f : α → β) :
    EndsIn (f <$> x) failure := by
  cases x with
  | error e =>
    rw [h.eq_some]
    exact EndsIn.error e
  | ok a =>
    rw [h.eq_none]
    exact EndsIn.pure (f a)

theorem mapError {x : Except ε α} {failure : Option ε} (h : EndsIn x failure) (f : ε → ε') :
    EndsIn (x.mapError f) (failure.map f) := by
  cases x with
  | error e =>
    rw [h.eq_some]
    exact EndsIn.error (f e)
  | ok a =>
    rw [h.eq_none]
    exact EndsIn.pure a

theorem exists_ok_iff {x : Except ε α} {failure : Option ε} (h : EndsIn x failure) :
    (∃ a, x = .ok a) ↔ failure = none := by
  cases x with
  | error e =>
    rw [h.eq_some]
    constructor
    · rintro ⟨a, ha⟩
      cases ha
    · intro hnone
      cases hnone
  | ok a => exact ⟨fun _ => h.eq_none, fun _ => ⟨a, rfl⟩⟩

end EndsIn

namespace Json

/-! ### Printing -/

section

variable (policy : NonFinite)

theorem float_endsIn (x : Binary64) :
    EndsIn (float policy x) (Datum.flaw? policy (.float x)) := by
  cases x with
  | finite s p =>
    have hflaw : Datum.flaw? policy (.float (.finite s p)) = none := if_pos (Or.inr rfl)
    rw [hflaw]
    exact EndsIn.pure _
  | nan =>
    cases policy with
    | refused => exact EndsIn.error _
    | spelled => exact EndsIn.pure _
  | infinite s =>
    cases policy with
    | refused => exact EndsIn.error _
    | spelled =>
      cases s with
      | true => exact EndsIn.pure _
      | false => exact EndsIn.pure _

mutual

/-- Printing ends in the flaw of the first value inside that has one. -/
theorem print_endsIn : ∀ d, EndsIn (print policy d) (d.values.findSome? (Datum.flaw? policy))
  | .null => EndsIn.pure _
  | .bool true => EndsIn.pure _
  | .bool false => EndsIn.pure _
  | .text _ => EndsIn.pure _
  | .back => EndsIn.error _
  | .foreign _ => EndsIn.error _
  | .float x => by
    have hflaw : (Datum.values (.float x)).findSome? (Datum.flaw? policy)
        = Datum.flaw? policy (.float x) := List.findSome?_singleton
    rw [hflaw]
    exact float_endsIn policy x
  | .int n => by
    have hflaw : (Datum.values (.int n)).findSome? (Datum.flaw? policy)
        = Datum.flaw? policy (.int n) := List.findSome?_singleton
    rw [hflaw, print, Datum.flaw?]
    by_cases h : Numeral.isWritable n = true
    · rw [if_pos h, if_neg (Nat.not_lt.2 (Numeral.isWritable_iff_length_le.1 h))]
      exact EndsIn.pure _
    · rw [if_neg h, if_pos (Nat.not_le.1 (mt Numeral.isWritable_iff_length_le.2 h))]
      exact EndsIn.error _
  | .array items => by
    have h := (printItems_endsIn items).bind fun body =>
      EndsIn.pure (ε := PrintError) ('[' :: body ++ [']'])
    rwa [Option.or_none] at h
  | .object fields => by
    have h := (printFields_endsIn fields).bind fun body =>
      EndsIn.pure (ε := PrintError) ('\x7b' :: body ++ ['\x7d'])
    rwa [Option.or_none] at h

theorem printItems_endsIn : ∀ items,
    EndsIn (printItems policy items) ((Datum.itemValues items).findSome? (Datum.flaw? policy))
  | [] => EndsIn.pure _
  | [x] => by
    rw [printItems, Datum.itemValues, Datum.itemValues, List.append_nil]
    exact print_endsIn x
  | x :: y :: ys => by
    have h := (print_endsIn x).bind fun first => (printItems_endsIn (y :: ys)).bind fun rest =>
      EndsIn.pure (ε := PrintError) (first ++ ',' :: rest)
    rw [Option.or_none, ← List.findSome?_append] at h
    exact h

theorem printFields_endsIn : ∀ fields,
    EndsIn (printFields policy fields) ((Datum.fieldValues fields).findSome? (Datum.flaw? policy))
  | [] => EndsIn.pure _
  | [(k, x)] => by
    have h := (print_endsIn x).bind fun value =>
      EndsIn.pure (ε := PrintError) (literal k ++ ':' :: value)
    rw [Option.or_none, ← List.append_nil x.values] at h
    exact h
  | (k, x) :: f :: fs => by
    have h := (print_endsIn x).bind fun value => (printFields_endsIn (f :: fs)).bind fun rest =>
      EndsIn.pure (ε := PrintError) (literal k ++ ':' :: value ++ ',' :: rest)
    rw [Option.or_none, ← List.findSome?_append] at h
    exact h

end

end

theorem write_endsIn (d : Datum) :
    EndsIn (write d) (d.values.findSome? (Datum.flaw? .refused)) :=
  (print_endsIn .refused d).map String.ofList

end Json

namespace Datum

/-! ### Encoding -/

/-- Why a value is not encoded: a foreign value is refused by its type alone, and any other one
for the flaw of the first value inside. -/
def refusal? (what : String) (d : Datum) : Option EncodeError :=
  match d.kind with
  | .error typeName => some (.foreign typeName)
  | .ok _ => (d.values.findSome? (flaw? .refused)).map (.unprintable what)

theorem encode_endsIn (what : String) (d : Datum) : EndsIn (d.encode what) (d.refusal? what) := by
  rw [encode, refusal?]
  cases d.kind with
  | error typeName => exact EndsIn.error _
  | ok k => exact (Json.write_endsIn d).mapError _

/-- A value is not refused if no value inside it has a flaw. -/
theorem refusal?_eq_none {what : String} {d : Datum} :
    d.refusal? what = none ↔ ∀ x ∈ d.values, flaw? .refused x = none := by
  rw [← List.findSome?_eq_none_iff]
  cases d with
  | foreign typeName => simp [refusal?, kind, values, flaw?]
  | null | bool | int | float | text | array | object | back =>
    simp only [refusal?, kind, Option.map_eq_none_iff]

end Datum

end Trialnet
