import Trialnet.Proofs.Json.Flaws

/-!
# Which values have a text

A value has a JSON text exactly if it is built from values that have one: no reference back to
a container, no foreign value, no integer of more than 4300 digits, and under the stricter
policy no number that is not finite.
-/

namespace Trialnet.Json

mutual

/-- Every value inside has a text. -/
def Writable (policy : NonFinite) : Datum → Prop
  | .null | .bool _ | .text _ => True
  | .int n => Numeral.isWritable n = true
  | .float x => policy = .spelled ∨ x.isFinite = true
  | .array items => WritableItems policy items
  | .object fields => WritableFields policy fields
  | .back | .foreign _ => False

/-- Every value in the list has a text. -/
def WritableItems (policy : NonFinite) : List Datum → Prop
  | [] => True
  | x :: xs => Writable policy x ∧ WritableItems policy xs

/-- The value of every field has a text. -/
def WritableFields (policy : NonFinite) : List (String × Datum) → Prop
  | [] => True
  | (_, x) :: xs => Writable policy x ∧ WritableFields policy xs

end

section

variable (policy : NonFinite)

theorem writableItems_iff (items : List Datum) :
    WritableItems policy items ↔ ∀ x ∈ items, Writable policy x := by
  induction items with
  | nil => simp [WritableItems]
  | cons x xs ih => simp [WritableItems, ih]

theorem writableFields_iff (fields : Fields) :
    WritableFields policy fields ↔ ∀ f ∈ fields, Writable policy f.2 := by
  induction fields with
  | nil => simp [WritableFields]
  | cons f fields ih => simp [WritableFields, ih]

mutual

/-- A value is writable if no value inside it has a flaw. -/
theorem writable_iff_flawless : ∀ d,
    Writable policy d ↔ d.values.findSome? (Datum.flaw? policy) = none
  | .null | .bool _ | .text _ => ⟨fun _ => rfl, fun _ => trivial⟩
  | .back | .foreign _ => by simp [Writable, Datum.values, Datum.flaw?]
  | .int n => by simp [Writable, Datum.values, Datum.flaw?, Numeral.isWritable_iff_length_le]
  | .float x => by simp [Writable, Datum.values, Datum.flaw?, or_iff_not_imp_left]
  | .array items => by
    rw [Writable]
    exact writableItems_iff_flawless items
  | .object fields => by
    rw [Writable]
    exact writableFields_iff_flawless fields

theorem writableItems_iff_flawless : ∀ items,
    WritableItems policy items ↔ (Datum.itemValues items).findSome? (Datum.flaw? policy) = none
  | [] => ⟨fun _ => rfl, fun _ => trivial⟩
  | x :: xs => by
    rw [WritableItems, Datum.itemValues, List.findSome?_append, Option.or_eq_none_iff,
      writable_iff_flawless x, writableItems_iff_flawless xs]

theorem writableFields_iff_flawless : ∀ fields,
    WritableFields policy fields
      ↔ (Datum.fieldValues fields).findSome? (Datum.flaw? policy) = none
  | [] => ⟨fun _ => rfl, fun _ => trivial⟩
  | (_, x) :: xs => by
    rw [WritableFields, Datum.fieldValues, List.findSome?_append, Option.or_eq_none_iff,
      writable_iff_flawless x, writableFields_iff_flawless xs]

end

end

/-- A value has a text exactly if it is writable. -/
theorem exists_print_iff (policy : NonFinite) (d : Datum) :
    (∃ cs, print policy d = .ok cs) ↔ Writable policy d :=
  (print_endsIn policy d).exists_ok_iff.trans (writable_iff_flawless policy d).symm

/-! ### Numbers that are not finite -/

mutual

/-- Every double inside is finite. -/
def AllFinite : Datum → Prop
  | .float x => x.isFinite = true
  | .array items => AllFiniteItems items
  | .object fields => AllFiniteFields fields
  | _ => True

/-- Every double inside one of the values is finite. -/
def AllFiniteItems : List Datum → Prop
  | [] => True
  | x :: xs => AllFinite x ∧ AllFiniteItems xs

/-- Every double inside the value of one of the fields is finite. -/
def AllFiniteFields : List (String × Datum) → Prop
  | [] => True
  | (_, x) :: xs => AllFinite x ∧ AllFiniteFields xs

end

mutual

/-- The stricter policy refuses numbers that are not finite, and nothing else. -/
theorem writable_refused_iff : ∀ d, Writable .refused d ↔ Writable .spelled d ∧ AllFinite d
  | .null | .bool _ | .text _ => by simp [Writable, AllFinite]
  | .back | .foreign _ => by simp [Writable]
  | .int n => by simp [Writable, AllFinite]
  | .float x => by simp [Writable, AllFinite]
  | .array items => by
    rw [Writable, Writable, AllFinite]
    exact writableItems_refused_iff items
  | .object fields => by
    rw [Writable, Writable, AllFinite]
    exact writableFields_refused_iff fields

theorem writableItems_refused_iff : ∀ items,
    WritableItems .refused items ↔ WritableItems .spelled items ∧ AllFiniteItems items
  | [] => by simp [WritableItems, AllFiniteItems]
  | x :: xs => by
    rw [WritableItems, WritableItems, AllFiniteItems, writable_refused_iff x,
      writableItems_refused_iff xs, and_and_and_comm]

theorem writableFields_refused_iff : ∀ fields,
    WritableFields .refused fields ↔ WritableFields .spelled fields ∧ AllFiniteFields fields
  | [] => by simp [WritableFields, AllFiniteFields]
  | (k, x) :: xs => by
    rw [WritableFields, WritableFields, AllFiniteFields, writable_refused_iff x,
      writableFields_refused_iff xs, and_and_and_comm]

end

end Trialnet.Json
