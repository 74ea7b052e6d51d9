import Trialnet.Datum.Basic
import Trialnet.Binary64.Text
import Trialnet.Text.Quoted

/-!
# Writing JSON

`print` writes a datum as compact JSON text: no blanks, fields in their order, and every
character but the printable ones of ASCII escaped, as one or two UTF-16 units unless it has a
short escape.  A datum that refers back to a
container around it, holds a foreign value, or holds an integer of more than 4300 digits has
no text.  Whether numbers that are not finite have one is up to the caller: JSON proper has no
spelling for them, and the wire accepts `NaN` and `Infinity`.

Writing takes a level of the call stack for each array and object inside another one, as reading
does.  Here it is assumed that there are levels enough for every value that is written.
-/

namespace Trialnet.Json

/-- What is done with a number that is not finite. -/
inductive NonFinite where
  | refused | spelled
  deriving DecidableEq

/-- Why a value has no JSON text. -/
inductive PrintError where
  /-- The value refers back to a container that encloses it. -/
  | circular
  /-- A value of another type. -/
  | foreign (typeName : String)
  /-- A number that is infinite or NaN. -/
  | nonFinite
  /-- An integer of more than 4300 digits. -/
  | longInteger
  deriving DecidableEq

/-- The wording of the error. -/
def PrintError.message : PrintError → String
  | .circular => "Circular reference detected"
  | .foreign typeName => s!"Object of type {typeName} is not JSON serializable"
  | .nonFinite => "Out of range float values are not JSON compliant"
  | .longInteger => Numeral.tooLongToWrite

/-- The escape of a UTF-16 unit. -/
def unitEscape (n : Nat) : List Char := '\\' :: 'u' :: Text.hex 4 n

/-- How a character is written inside a string literal. -/
def escape (c : Char) : List Char :=
  if c = '"' then ['\\', '"']
  else if c = '\\' then ['\\', '\\']
  else if c = '\n' then ['\\', 'n']
  else if c = '\r' then ['\\', 'r']
  else if c = '\t' then ['\\', 't']
  else if c = '\x08' then ['\\', 'b']
  else if c = '\x0C' then ['\\', 'f']
  else if 0x20 ≤ c.toNat ∧ c.toNat < 0x7F then [c]
  else if c.toNat < 0x10000 then unitEscape c.toNat
  else
    let n := c.toNat - 0x10000
    unitEscape (0xD800 + n / 0x400) ++ unitEscape (0xDC00 + n % 0x400)

/-- A string literal. -/
def literal (s : String) : List Char := '"' :: s.toList.flatMap escape ++ ['"']

/-- The text of a number. -/
def float (policy : NonFinite) (x : Binary64) : Except PrintError (List Char) :=
  match x, policy with
  | .finite .., _ => .ok x.chars
  | _, .refused => .error .nonFinite
  | .nan, .spelled => .ok "NaN".toList
  | .infinite false, .spelled => .ok "Infinity".toList
  | .infinite true, .spelled => .ok "-Infinity".toList

mutual

/-- The text of a value. -/
def print (policy : NonFinite) : Datum → Except PrintError (List Char)
  | .null => .ok "null".toList
  | .bool true => .ok "true".toList
  | .bool false => .ok "false".toList
  | .int n => if Numeral.isWritable n then .ok (Numeral.chars n) else .error .longInteger
  | .float x => float policy x
  | .text s => .ok (literal s)
  | .array items => do
    let body ← printItems policy items
    return '[' :: body ++ [']']
  | .object fields => do
    let body ← printFields policy fields
    return '\x7b' :: body ++ ['\x7d']
  | .back => .error .circular
  | .foreign typeName => .error (.foreign typeName)

/-- The texts of values, between commas. -/
def printItems (policy : NonFinite) : List Datum → Except PrintError (List Char)
  | [] => .ok []
  | [x] => print policy x
  | x :: xs => do
    let first ← print policy x
    let rest ← printItems policy xs
    return first ++ ',' :: rest

/-- The texts of fields, between commas. -/
def printFields (policy : NonFinite) : List (String × Datum) → Except PrintError (List Char)
  | [] => .ok []
  | [(k, x)] => do
    let value ← print policy x
    return literal k ++ ':' :: value
  | (k, x) :: xs => do
    let value ← print policy x
    let rest ← printFields policy xs
    return literal k ++ ':' :: value ++ ',' :: rest

end

/-- The JSON text of a value, if it has one; a number that is not finite has none. -/
def write (d : Datum) : Except PrintError String := String.ofList <$> print .refused d

/-- The JSON text of a value in which numbers that are not finite may occur. -/
def writeLoose (d : Datum) : Except PrintError String := String.ofList <$> print .spelled d

end Trialnet.Json
