import Trialnet.Proofs.Text.Numerals
import Trialnet.Payload.Record

/-!
# Records are read back

A record is written as entries one after the other, and each field is looked up by its name.
This file says what a field reads from the entries that were written: the lemmas about
`defaulted` and `optional` reduce the reading of a record to one look-up a field, and those
about arrays and dictionaries pass from the items to the whole.
-/

namespace Trialnet.Payload

variable {α : Type}

/-! ### Looking up entries -/

@[simp] theorem lookup_entry (name key : String) (d : Datum) :
    (entry name d).lookup key = if key == name then some d else none := by
  rw [entry, List.lookup_cons, List.lookup_nil]
  cases key == name with
  | true => rfl
  | false => rfl

@[simp] theorem lookup_optionalEntry (name key : String) (d : Option Datum) :
    ( entry? name d).lookup key = if key == name then d else none := by
  cases d with
  | none => simp [ entry?]
  | some d => exact lookup_entry name key d

theorem mem_entry {name : String} {d : Datum} {f : String × Datum} :
    f ∈ entry name d ↔ f = (name, d) := by
  rw [entry, List.mem_singleton]

theorem mem_optionalEntry {name : String} {d : Option Datum} {f : String × Datum} :
    f ∈ entry? name d ↔ ∃ x, d = some x ∧ f = (name, x) := by
  cases d with
  | none => simp [ entry?]
  | some d => simp [ entry?]

/-! ### Fields -/

/-- A field that may be left out is read as what was written, or as nothing. -/
theorem optional_of_lookup {f : Field} {read : Datum → Reading α} {fields : Fields}
    {w : α → Datum} {a : Option α} (h : fields.lookup f.wire = a.map w)
    (hplain : a = none → fields.lookup f.plain = none)
    (hread : ∀ x, a = some x → w x ≠ .null ∧ read (w x) = .ok x) :
    optional f read fields = .ok a := by
  cases a with
  | none => simp only [optional, defaulted, Field.find?, h, hplain rfl, Option.map_none]
  | some x =>
    obtain ⟨hnull, hx⟩ := hread x rfl
    have hnullable : nullable read (w x) = .ok (some x) := by
      rw [nullable, hx, Reading.map_ok]
      exact hnull
    simp only [optional, defaulted, Field.find?, h, Option.map_some, hnullable, Reading.under_ok]

/-- A text that may be left out. -/
theorem optional_text {f : Field} {fields : Fields} {a : Option String}
    (h : fields.lookup f.wire = a.map .text) (hplain : a = none → fields.lookup f.plain = none) :
    optional f text fields = .ok a := by
  refine optional_of_lookup h hplain fun s _ => ⟨fun hnull => ?_, rfl⟩
  cases hnull

/-! ### Lists and dictionaries -/

theorem items_map {read : Datum → Reading α} {write : α → Datum}
    (h : ∀ a, read (write a) = .ok a) (as : List α) (start : Nat) :
    items read start (as.map write) = .ok as := by
  induction as generalizing start with
  | nil => rfl
  | cons a as ih => simp [items, h, ih]

/-- An array is read back if its items are. -/
theorem array_map {read : Datum → Reading α} {write : α → Datum}
    (h : ∀ a, read (write a) = .ok a) (as : List α) :
    array read (.array (as.map write)) = .ok as := items_map h as 0

theorem dictionary_ofDictionary (es : List (String × String)) :
    dictionary text (ofDictionary es) = .ok es := by
  rw [ofDictionary, dictionary]
  induction es with
  | nil => rfl
  | cons e es ih => simp [entries, ih]

/-! ### Integers -/

theorem leadingDigits_le_length (cs : List Char) :
    leadingDigits cs ≤ (splitMinus cs).2.length := by
  rw [leadingDigits]
  split
  · exact Nat.zero_le _
  · exact (List.takeWhile_sublist _).length_le

theorem splitMinus_chars (n : Int) :
    (splitMinus (Numeral.chars n)).2 = Numeral.digits n.natAbs := by
  cases n with
  | ofNat n => exact congrArg Prod.snd (splitMinus_digits n)
  | negSucc n => rfl

/-- The decimal text of an integer is read as the integer, if it is short enough to be read. -/
theorem integer_text {n : Int} (h : (Numeral.digits n.natAbs).length ≤ Numeral.maxDigits) :
    integer (.text (Numeral.text n)) = .ok n := by
  have hlong : ¬ Numeral.maxDigits < leadingDigits (Numeral.chars n) := by
    have hle := leadingDigits_le_length (Numeral.chars n)
    rw [splitMinus_chars] at hle
    exact Nat.not_lt.2 (Nat.le_trans hle h)
  simp only [integer, Numeral.toList_text, integerOfChars, hlong, if_false,
    plainInteger?_chars h]
  rfl

/-- An integer of at most 64 bits is short enough to be read. -/
theorem length_digits_of_natAbs_lt {n : Int} (h : n.natAbs < 2 ^ 64) :
    (Numeral.digits n.natAbs).length ≤ Numeral.maxDigits := by
  have h20 : (Numeral.digits n.natAbs).length ≤ 20 :=
    (Numeral.length_digits_le_iff (by decide)).2 (Nat.lt_trans h (by decide))
  exact Nat.le_trans h20 (by decide)

theorem ranged_wide {lo hi : Int} (hlo : -2 ^ 64 < lo) (hhi : hi < 2 ^ 64) (n : Ranged lo hi) :
    ranged lo hi (wide n) = .ok n := by
  have hbound : n.val.natAbs < 2 ^ 64 := by
    have := n.lo_le
    have := n.le_hi
    omega
  rw [ranged, wide, integer_text (length_digits_of_natAbs_lt hbound), Reading.andThen_ok,
    inRange_val]

@[simp] theorem unsigned64_wide (n : Unsigned64) : unsigned64 (wide n) = .ok n :=
  ranged_wide (by decide) (by decide) n

@[simp] theorem signed64_wide (n : Signed64) : signed64 (wide n) = .ok n :=
  ranged_wide (by decide) (by decide) n

@[simp] theorem signed32_narrow (n : Signed32) : signed32 (narrow n) = .ok n := ranged_int n

end Trialnet.Payload

namespace Trialnet.Datum

/-! ### What a payload says

These speak of a payload without a schema, for statements about what is sent. -/

/-- The value of a field of an object. -/
def field? (d : Datum) (name : String) : Option Datum :=
  match d with
  | .object fields => fields.lookup name
  | _ => none

/-- The field is the decimal text of an integer between two bounds. -/
def HasWide (d : Datum) (name : String) (lo hi : Int) : Prop :=
  ∃ n, d.field? name = some (.text (Numeral.text n)) ∧ lo ≤ n ∧ n ≤ hi

/-- The field is an integer between two bounds. -/
def HasNarrow (d : Datum) (name : String) (lo hi : Int) : Prop :=
  ∃ n, d.field? name = some (.int n) ∧ lo ≤ n ∧ n ≤ hi

variable {d : Datum} {name : String} {lo lo' hi : Int} {n : Ranged lo hi}

theorem hasWide_of_le (h : d.field? name = some (Payload.wide n)) (hlo : lo' ≤ n.val) :
    d.HasWide name lo' hi := ⟨n.val, h, hlo, n.le_hi⟩

theorem hasNarrow_of_le (h : d.field? name = some (Payload.narrow n)) (hlo : lo' ≤ n.val) :
    d.HasNarrow name lo' hi := ⟨n.val, h, hlo, n.le_hi⟩

end Trialnet.Datum
