import Trialnet.Datum.Basic
import Trialnet.Binary64.Text
import Trialnet.Text.Quoted

/-!
# How messages show free-form data

The service may report an error by any datum.  A text is shown as it is; inside arrays and
objects texts are quoted, and the other values have the spellings `None`, `True` and `False`.
-/

namespace Trialnet.Datum

mutual

/-- A value as it is shown inside an array or an object. -/
def inner : Datum → String
  | .null => "None"
  | .bool true => "True"
  | .bool false => "False"
  | .int n => Numeral.text n
  | .float x => x.text
  | .text s => Text.quoted s
  | .array items => "[" ++ innerItems items ++ "]"
  | .object fields => "\x7b" ++ innerFields fields ++ "\x7d"
  | .back => "..."
  | .foreign typeName => typeName

/-- Values between commas. -/
def innerItems : List Datum → String
  | [] => ""
  | [x] => inner x
  | x :: xs => inner x ++ ", " ++ innerItems xs

/-- Named values between commas. -/
def innerFields : List (String × Datum) → String
  | [] => ""
  | [(k, x)] => Text.quoted k ++ ": " ++ inner x
  | (k, x) :: xs => Text.quoted k ++ ": " ++ inner x ++ ", " ++ innerFields xs

end

/-- A value as a message shows it. -/
def display : Datum → String
  | .text s => s
  | x => inner x

end Trialnet.Datum
