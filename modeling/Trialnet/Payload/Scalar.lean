import Trialnet.Payload.Numeral
import Trialnet.Datum.Basic

/-!
# Reading single values

The service is liberal in what it sends: a number may come as a text, a truth value as a
number, and so on.  Each reader here says which spellings of one type of value it accepts.
Integers that the wire limits to a range are read into `Ranged`.
-/

namespace Trialnet

/-- An integer between two bounds, both included. -/
structure Ranged (lo hi : Int) where
  val : Int
  lo_le : lo ≤ val
  le_hi : val ≤ hi
  deriving DecidableEq

/-- Signed 32-bit integers. -/
abbrev Signed32 := Ranged (-0x80000000) 0x7FFFFFFF

/-- Signed 64-bit integers. -/
abbrev Signed64 := Ranged (-0x8000000000000000) 0x7FFFFFFFFFFFFFFF

/-- Unsigned 64-bit integers. -/
abbrev Unsigned64 := Ranged 0 0xFFFFFFFFFFFFFFFF

namespace Ranged

instance : Inhabited Signed32 := ⟨⟨0, by decide, by decide⟩⟩
instance : Inhabited Signed64 := ⟨⟨0, by decide, by decide⟩⟩
instance : Inhabited Unsigned64 := ⟨⟨0, by decide, by decide⟩⟩

@[ext] theorem ext {lo hi : Int} {a b : Ranged lo hi} (h : a.val = b.val) : a = b := by
  cases a; cases b; simpa using h

end Ranged

namespace Payload

/-- A text. -/
def text : Datum → Reading String
  | .text s => .ok s
  | _ => .complain .notString

/-- Any value. -/
def anything (d : Datum) : Reading Datum := .ok d

/-- Whether an integer lies strictly between `-2 ^ 63` and `2 ^ 63`. -/
def isModerate (n : Int) : Bool := n.natAbs < 0x8000000000000000

/-- An integer of any size.  A double counts if it is whole and of moderate size. -/
def integer : Datum → Reading Int
  | .int n => .ok n
  | .bool b => .ok (if b then 1 else 0)
  | .float x =>
    if !x.isFinite then .complain .notFinite
    else match x.toInt? with
      | none => .complain .fractionalInteger
      | some n => if isModerate n then .ok n else .complain .oversizedInteger
  | .text s => integerOfChars s.toList
  | _ => .complain .notInteger

/-- An integer that has to lie in a range. -/
def inRange (lo hi : Int) (n : Int) : Reading (Ranged lo hi) :=
  if h : n < lo then .complain .belowRange
  else if h' : hi < n then .complain .aboveRange
  else .ok ⟨n, by omega, by omega⟩

/-- An integer in a range. -/
def ranged (lo hi : Int) (d : Datum) : Reading (Ranged lo hi) :=
  (integer d).andThen (inRange lo hi)

/-- A signed 32-bit integer. -/
def signed32 : Datum → Reading Signed32 := ranged _ _

/-- A signed 64-bit integer. -/
def signed64 : Datum → Reading Signed64 := ranged _ _

/-- An unsigned 64-bit integer. -/
def unsigned64 : Datum → Reading Unsigned64 := ranged _ _

/-- The words for true and for false, in lower case. -/
def truthWords : List (String × Bool) :=
  [("1", true), ("0", false), ("t", true), ("f", false), ("true", true), ("false", false),
   ("y", true), ("n", false), ("yes", true), ("no", false), ("on", true), ("off", false)]

/-- The truth value that an integer stands for. -/
def truthOfInt (n : Int) : Reading Bool :=
  if n = 0 then .ok false else if n = 1 then .ok true else .complain .unreadableTruth

/-- A truth value.  An integer is looked at if it has 64 bits, a double if it is whole and of
moderate size. -/
def truth : Datum → Reading Bool
  | .bool b => .ok b
  | .int n =>
    if -0x8000000000000000 ≤ n ∧ n ≤ 0x7FFFFFFFFFFFFFFF then truthOfInt n
    else .complain .notTruth
  | .float x => match x.toInt? with
    | some n => if isModerate n then truthOfInt n else .complain .notTruth
    | none => .complain .notTruth
  | .text s => match truthWords.lookup (String.ofList (s.toList.map Char.toLower)) with
    | some b => .ok b
    | none => .complain .unreadableTruth
  | _ => .complain .notTruth

/-- A double; an integer counts as the nearest one unless it lies beyond them all. -/
def float : Datum → Reading Binary64
  | .float x => .ok x
  | .bool b => .ok (if b then .one else .zero)
  | .int n =>
    let x := Binary64.ofInt n
    if x.isFinite then .ok x else .complain .notFloat
  | .text s => floatOfChars s.toList
  | _ => .complain .notFloat

@[simp] theorem text_text (s : String) : text (.text s) = .ok s := rfl

@[simp] theorem truth_bool (b : Bool) : truth (.bool b) = .ok b := rfl

@[simp] theorem float_float (x : Binary64) : float (.float x) = .ok x := rfl

/-- A number in range is accepted as it is. -/
@[simp] theorem inRange_val {lo hi : Int} (n : Ranged lo hi) : inRange lo hi n.val = .ok n := by
  have := n.lo_le
  have := n.le_hi
  simp [inRange, show ¬ n.val < lo by omega, show ¬ hi < n.val by omega]

@[simp] theorem ranged_int {lo hi : Int} (n : Ranged lo hi) :
    ranged lo hi (.int n.val) = .ok n := by
  simp [ranged, integer]

end Payload

end Trialnet
