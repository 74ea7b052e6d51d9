import Trialnet.Duration.Amount
import Trialnet.Text.Classes
import Trialnet.Text.Quoted

/-!
# Durations

A duration is written as a number of seconds (`90`) or as parts, each a number and a unit:
hours, minutes, seconds or milliseconds (`1h30m`, `0.5h`).  Digits of every script count, and
blanks around the text do not.  `read` gives the whole number of seconds, and `text` writes a
number of seconds in hours, minutes and seconds without the parts that are zero.
-/

namespace Trialnet.Duration

/-- The units of a part. -/
inductive Unit where
  | hour | minute | second | millisecond
  deriving DecidableEq

/-- The number of seconds in a unit. -/
def Unit.seconds : Unit → Amount
  | .hour => ⟨3600, 0⟩
  | .minute => ⟨60, 0⟩
  | .second => ⟨1, 0⟩
  | .millisecond => ⟨1, -3⟩

/-- A number with a unit, as it is written. -/
structure Part where
  /-- The digits before the point. -/
  whole : List Char
  /-- The digits after the point; none if there is no point. -/
  fraction : List Char
  unit : Unit
  deriving DecidableEq

/-- The number of a part. -/
def Part.amount (p : Part) : Amount :=
  ⟨Text.digitsValue (p.whole ++ p.fraction), -p.fraction.length⟩

/-- The number of seconds of a part. -/
def Part.seconds (p : Part) : Amount := p.amount.mul p.unit.seconds

/-- Why a text is not a duration. -/
inductive ReadError where
  /-- It is neither a number nor a sequence of parts. -/
  | malformed (raw : String)
  /-- Its parts do not add up to whole seconds. -/
  | fractional (raw : String)
  /-- It is a number of too many digits. -/
  | longNumeral (count : Nat)
  deriving DecidableEq

/-- The wording of the error. -/
def ReadError.message : ReadError → String
  | .malformed raw => s!"invalid duration {Text.quoted raw}"
  | .fractional raw => s!"duration {Text.quoted raw} is not a whole number of seconds"
  | .longNumeral count => Numeral.tooLongToRead count

/-! ### Reading -/

/-- The digits at the beginning, and the rest. -/
def digitRun (cs : List Char) : List Char × List Char :=
  (cs.takeWhile Text.isDecimalDigit, cs.dropWhile Text.isDecimalDigit)

/-- A fraction, a point and at least one digit, if there is one, and the rest. -/
def fraction (cs : List Char) : List Char × List Char :=
  match cs with
  | '.' :: rest => match digitRun rest with
    | ([], _) => ([], cs)
    | (ds, rest) => (ds, rest)
  | _ => ([], cs)

/-- The unit at the beginning, and the rest; milliseconds come before minutes. -/
def unit? : List Char → Option (Unit × List Char)
  | 'm' :: 's' :: rest => some (.millisecond, rest)
  | 'h' :: rest => some (.hour, rest)
  | 'm' :: rest => some (.minute, rest)
  | 's' :: rest => some (.second, rest)
  | _ => none

/-- The part at the beginning, and the rest. -/
def part? (cs : List Char) : Option (Part × List Char) := do
  let (whole, rest) := digitRun cs
  if whole = [] then none
  let (frac, rest) := fraction rest
  let (unit, rest) ← unit? rest
  return (⟨whole, frac, unit⟩, rest)

/-- The parts that a text consists of.  A part has at least one character, so the length of
the text bounds their number. -/
def partsUpTo : Nat → List Char → Option (List Part)
  | _, [] => some []
  | 0, _ => none
  | steps + 1, cs => do
    let (p, rest) ← part? cs
    let ps ← partsUpTo steps rest
    return p :: ps

/-- The parts that a text consists of, if it consists of parts. -/
def parts? (cs : List Char) : Option (List Part) := partsUpTo cs.length cs

/-- The parts added up, from the first to the last. -/
def total (ps : List Part) : Amount := ps.foldl (fun sum p => sum.add p.seconds) .zero

/-- The whole seconds of a trimmed text that is not empty. -/
def readTrimmed (raw : String) (cs : List Char) : Except ReadError Nat :=
  if cs.all Text.isDecimalDigit then
    if Numeral.maxDigits < cs.length then .error (.longNumeral cs.length)
    else .ok (Text.digitsValue cs)
  else match parts? cs with
    | none => .error (.malformed raw)
    | some ps => match (total ps).toNat? with
      | none => .error (.fractional raw)
      | some n => .ok n

/-- The whole seconds of a text; none if it is blank. -/
def read (raw : String) : Except ReadError (Option Nat) :=
  match Text.trim Text.isBlank raw.toList with
  | [] => .ok none
  | cs => some <$> readTrimmed raw cs

/-! ### Writing -/

/-- A part of a written duration, left out if it is zero. -/
def partText (n : Nat) (unit : Char) : List Char :=
  if n = 0 then [] else Numeral.digits n ++ [unit]

/-- The characters of a number of seconds in hours, minutes and seconds. -/
def chars (seconds : Int) : List Char :=
  if seconds ≤ 0 then ['0', 's']
  else
    let n := seconds.toNat
    partText (n / 3600) 'h' ++ partText (n % 3600 / 60) 'm' ++ partText (n % 60) 's'

/-- A number of seconds in hours, minutes and seconds. -/
def text (seconds : Int) : String := String.ofList (chars seconds)

/-- A number of seconds in hours, minutes and seconds, unless the hours have too many digits
to be written. -/
def write? (seconds : Int) : Option String :=
  if Numeral.isWritable (seconds.toNat / 3600) then some (text seconds) else none

example : (read " 1h30m ").toOption = some (some 5400) := by decide +kernel
example : (read "500ms").toOption = none := by decide +kernel
example : text 5400 = "1h30m" := by decide +kernel

end Trialnet.Duration
