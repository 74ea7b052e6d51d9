import Trialnet.Payload.Scalar

/-!
# Reading and writing records

A record is an object whose fields have two spellings: the wire name in camel case, and a
plain name in snake case.  A field is looked up by its wire name first, and a complaint about
it uses the spelling under which it was found.  Fields that no schema mentions are ignored.
-/

namespace Trialnet.Payload

/-- The two spellings of a field. -/
structure Field where
  wire : String
  plain : String

/-- A field whose two spellings agree. -/
def Field.same (name : String) : Field := ⟨name, name⟩

/-- The value of a field and the spelling under which it was found. -/
def Field.find? (f : Field) (fields : Fields) : Option (String × Datum) :=
  match fields.lookup f.wire with
  | some d => some (f.wire, d)
  | none => (fields.lookup f.plain).map (f.plain, ·)

variable {α : Type}

/-- A field that has to be present. -/
def required (f : Field) (read : Datum → Reading α) (fields : Fields) : Reading α :=
  match f.find? fields with
  | some (name, d) => (read d).under (.key name)
  | none => (Reading.complain .missing).under (.key f.wire)

/-- A field with a default. -/
def defaulted (f : Field) (read : Datum → Reading α) (value : α) (fields : Fields) :
    Reading α :=
  match f.find? fields with
  | some (name, d) => (read d).under (.key name)
  | none => .ok value

/-- A reader for which null stands for no value. -/
def nullable (read : Datum → Reading α) : Datum → Reading (Option α)
  | .null => .ok none
  | d => (read d).map some

/-- A field that may be absent or null. -/
def optional (f : Field) (read : Datum → Reading α) (fields : Fields) : Reading (Option α) :=
  defaulted f (nullable read) none fields

/-- The items of an array, each located by its index. -/
def items (read : Datum → Reading α) (start : Nat) : List Datum → Reading (List α)
  | [] => .ok []
  | d :: ds => ((read d).under (.index start) |>.map List.cons).app (items read (start + 1) ds)

/-- An array. -/
def array (read : Datum → Reading α) : Datum → Reading (List α)
  | .array ds => items read 0 ds
  | _ => .complain .notArray

/-- The entries of a dictionary, each located by its key. -/
def entries (read : Datum → Reading α) : List (String × Datum) → Reading (List (String × α))
  | [] => .ok []
  | (k, d) :: ds =>
    ((read d).under (.key k) |>.map fun a => List.cons (k, a)).app (entries read ds)

/-- A dictionary: an object whose keys are free. -/
def dictionary (read : Datum → Reading α) : Datum → Reading (List (String × α))
  | .object fields => entries read fields
  | _ => .complain .notDictionary

/-- A record, read from its fields. -/
def record (read : Fields → Reading α) : Datum → Reading α
  | .object fields => read fields
  | _ => .complain .notRecord

instance : Functor Reading where
  map := Reading.map

instance : Seq Reading where
  seq f a := Reading.app f (a ())

/-! ### Writing -/

/-- The field of a value that is always written. -/
def entry (name : String) (d : Datum) : Fields := [(name, d)]

/-- The field of a value that is left out if there is none. -/
def entry? (name : String) : Option Datum → Fields
  | some d => [(name, d)]
  | none => []

/-- A 64-bit integer, which travels as a text. -/
def wide {lo hi : Int} (n : Ranged lo hi) : Datum := .text (Numeral.text n.val)

/-- A 32-bit integer. -/
def narrow {lo hi : Int} (n : Ranged lo hi) : Datum := .int n.val

mutual

/-- A free-form value as it is sent: JSON has no spelling for a number that is not finite, so
null stands for it. -/
def free : Datum → Datum
  | .float x => if x.isFinite then .float x else .null
  | .array items => .array (freeItems items)
  | .object fields => .object (freeFields fields)
  | d => d

/-- Free-form values as they are sent. -/
def freeItems : List Datum → List Datum
  | [] => []
  | d :: ds => free d :: freeItems ds

/-- Named free-form values as they are sent. -/
def freeFields : List (String × Datum) → List (String × Datum)
  | [] => []
  | (k, d) :: ds => (k, free d) :: freeFields ds

end

/-- A dictionary of texts. -/
def ofDictionary (entries : List (String × String)) : Datum :=
  .object (entries.map fun e => (e.1, .text e.2))

end Trialnet.Payload
