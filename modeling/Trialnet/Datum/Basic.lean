import Trialnet.Binary64.Basic

/-!
# Free-form data

Genesis values, node configuration and the payloads of the service are free-form: null,
truth values, integers, doubles, texts, arrays, and objects whose fields keep their order.
A caller may also hand over data that has no written form, so a datum can hold a *reference
back* to a container that encloses it, and a *foreign* value of some other type.

Object fields are ordered lists of pairs.  A key that is written again replaces the value and
keeps the position (`Fields.put`).

Free-form data is documented to be JSON values, and what is built in another way is left out.  A
tuple is taken for an array and comes back as a list, so there is one kind of array here; and the
keys of an object are texts, although a mapping with other keys may have a JSON text as well.
-/

namespace Trialnet

/-- A free-form value. -/
inductive Datum where
  /-- No value. -/
  | null
  /-- A truth value. -/
  | bool (b : Bool)
  /-- An integer of any size. -/
  | int (n : Int)
  /-- A double-precision number. -/
  | float (x : Binary64)
  /-- A text. -/
  | text (s : String)
  /-- A list of values. -/
  | array (items : List Datum)
  /-- Named values, in order. -/
  | object (fields : List (String × Datum))
  /-- A reference back to a container that encloses this value. -/
  | back
  /-- A value of another type, known by the name of the type. -/
  | foreign (typeName : String)

/-- The named values of an object, in order. -/
abbrev Fields := List (String × Datum)

namespace Datum

/-! ### Equality is decidable -/

mutual

/-- Decides whether two values are equal. -/
def decEq : (a b : Datum) → Decidable (a = b)
  | .null, b => match b with
    | .null => isTrue rfl
    | .bool _ | .int _ | .float _ | .text _ | .array _ | .object _ | .back | .foreign _ =>
      isFalse nofun
  | .bool x, b => match b with
    | .bool y => if h : x = y then isTrue (by rw [h]) else isFalse (by simpa using h)
    | .null | .int _ | .float _ | .text _ | .array _ | .object _ | .back | .foreign _ =>
      isFalse nofun
  | .int x, b => match b with
    | .int y => if h : x = y then isTrue (by rw [h]) else isFalse (by simpa using h)
    | .null | .bool _ | .float _ | .text _ | .array _ | .object _ | .back | .foreign _ =>
      isFalse nofun
  | .float x, b => match b with
    | .float y => if h : x = y then isTrue (by rw [h]) else isFalse (by simpa using h)
    | .null | .bool _ | .int _ | .text _ | .array _ | .object _ | .back | .foreign _ =>
      isFalse nofun
  | .text x, b => match b with
    | .text y => if h : x = y then isTrue (by rw [h]) else isFalse (by simpa using h)
    | .null | .bool _ | .int _ | .float _ | .array _ | .object _ | .back | .foreign _ =>
      isFalse nofun
  | .array xs, b => match b with
    | .array ys => match decEqItems xs ys with
      | isTrue h => isTrue (by rw [h])
      | isFalse h => isFalse (by simpa using h)
    | .null | .bool _ | .int _ | .float _ | .text _ | .object _ | .back | .foreign _ =>
      isFalse nofun
  | .object xs, b => match b with
    | .object ys => match decEqFields xs ys with
      | isTrue h => isTrue (by rw [h])
      | isFalse h => isFalse (by simpa using h)
    | .null | .bool _ | .int _ | .float _ | .text _ | .array _ | .back | .foreign _ =>
      isFalse nofun
  | .back, b => match b with
    | .back => isTrue rfl
    | .null | .bool _ | .int _ | .float _ | .text _ | .array _ | .object _ | .foreign _ =>
      isFalse nofun
  | .foreign x, b => match b with
    | .foreign y => if h : x = y then isTrue (by rw [h]) else isFalse (by simpa using h)
    | .null | .bool _ | .int _ | .float _ | .text _ | .array _ | .object _ | .back =>
      isFalse nofun

/-- Decides whether two lists of values are equal. -/
def decEqItems : (a b : List Datum) → Decidable (a = b)
  | [], [] => isTrue rfl
  | [], _ :: _ => isFalse nofun
  | _ :: _, [] => isFalse nofun
  | x :: xs, y :: ys => match decEq x y, decEqItems xs ys with
    | isTrue h, isTrue h' => isTrue (by rw [h, h'])
    | isFalse h, _ => isFalse (by simp [h])
    | _, isFalse h => isFalse (by simp [h])

/-- Decides whether two lists of named values are equal. -/
def decEqFields : (a b : List (String × Datum)) → Decidable (a = b)
  | [], [] => isTrue rfl
  | [], _ :: _ => isFalse nofun
  | _ :: _, [] => isFalse nofun
  | (k, x) :: xs, (l, y) :: ys => match String.decEq k l, decEq x y, decEqFields xs ys with
    | isTrue h, isTrue h', isTrue h'' => isTrue (by rw [h, h', h''])
    | isFalse h, _, _ => isFalse (by simp [h])
    | _, isFalse h, _ => isFalse (by simp [h])
    | _, _, isFalse h => isFalse (by simp [h])

end

instance : DecidableEq Datum := decEq

/-! ### Kinds -/

/-- The kinds of values that have a written form. -/
inductive Kind where
  | string | number | bool | array | object | null
  deriving DecidableEq

/-- The name of a kind. -/
def Kind.name : Kind → String
  | .string => "string"
  | .number => "number"
  | .bool => "bool"
  | .array => "array"
  | .object => "object"
  | .null => "null"

/-- The kind of a value; a foreign value has none, and the name of its type is given. -/
def kind : Datum → Except String Kind
  | .null => .ok .null
  | .bool _ => .ok .bool
  | .int _ | .float _ => .ok .number
  | .text _ => .ok .string
  | .array _ => .ok .array
  | .object _ | .back => .ok .object
  | .foreign typeName => .error typeName

/-- The name of a value's kind, or of its type if it is foreign. -/
def kindName (d : Datum) : String :=
  match d.kind with
  | .ok k => k.name
  | .error typeName => typeName

/-- Whether a value counts as a positive answer: neither null, false, zero nor empty. -/
def isTruthy : Datum → Bool
  | .null => false
  | .bool b => b
  | .int n => n != 0
  | .float x => !x.isZero
  | .text s => s != ""
  | .array items => !items.isEmpty
  | .object fields => !fields.isEmpty
  | .back | .foreign _ => true

/-! ### Equality of value -/

/-- The value of a finite number or a truth value in units of `2 ^ -1074`. -/
def units? : Datum → Option Int
  | .bool b => some (if b then Binary64.unitsPerOne else 0)
  | .int n => some (n * Binary64.unitsPerOne)
  | .float x => if x.isFinite then some x.units else none
  | _ => none

mutual

/-- Whether two values are the same up to the spelling of numbers and the order of fields:
true, 1 and 1.0 are the same, and NaN is not the same as anything. -/
def same : Datum → Datum → Bool
  | .array xs, .array ys => sameItems xs ys
  | .object xs, .object ys => xs.length == ys.length && sameFields xs ys
  | .text s, .text t => s = t
  | .null, .null => true
  | .float x, .float y => x.sameValue y
  | a, b => match units? a, units? b with
    | some u, some v => u = v
    | _, _ => false

/-- Whether two lists are the same, item by item. -/
def sameItems : List Datum → List Datum → Bool
  | [], [] => true
  | x :: xs, y :: ys => same x y && sameItems xs ys
  | _, _ => false

/-- Whether each of the first fields has the same value among the second. -/
def sameFields : List (String × Datum) → Fields → Bool
  | [], _ => true
  | (k, x) :: xs, ys => (match ys.lookup k with
    | some y => same x y
    | none => false) && sameFields xs ys

end

end Datum

namespace Fields

/-- Writes a field: a new key comes last, and a known key keeps its position. -/
def put (fields : Fields) (key : String) (value : Datum) : Fields :=
  if fields.any (·.1 == key) then
    fields.map fun f => if f.1 == key then (key, value) else f
  else fields ++ [(key, value)]

/-- The fields that a sequence of writes leaves. -/
def ofWrites (writes : List (String × Datum)) : Fields :=
  writes.foldl (fun fields w => fields.put w.1 w.2) []

/-- The fields without a key. -/
def erase (fields : Fields) (key : String) : Fields := fields.filter (·.1 != key)

/-- No key occurs twice. -/
def HasDistinctKeys (fields : Fields) : Prop := (fields.map (·.1)).Nodup

end Fields

end Trialnet
