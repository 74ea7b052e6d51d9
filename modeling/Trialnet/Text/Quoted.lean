import Trialnet.Text.Printable

/-!
# Quoted text

Messages show a text between quotes so that its ends and its invisible characters can be
seen.  Single quotes are used unless the text holds a single quote and no double quote.
The quote in use, the backslash, line feed, carriage return and tab are escaped by a
backslash, and any other character that is not printable is written by its code point.
-/

namespace Trialnet.Text

/-- The digits of a number in base sixteen, lower case, padded with zeros to a width. -/
def hex (width n : Nat) : List Char :=
  let ds := Nat.toDigits 16 n
  List.replicate (width - ds.length) '0' ++ ds

namespace Quoted

/-- The quote that surrounds a text: a double quote only where it spares an escape. -/
def quoteFor (cs : List Char) : Char :=
  if cs.contains '\x27' && !cs.contains '"' then '"' else '\x27'

/-- How one character is written between quotes of the given kind. -/
def escape (quote c : Char) : List Char :=
  if c = quote ∨ c = '\\' then ['\\', c]
  else if c = '\n' then ['\\', 'n']
  else if c = '\r' then ['\\', 'r']
  else if c = '\t' then ['\\', 't']
  else if isPrintable c then [c]
  else if c.toNat ≤ 0xFF then '\\' :: 'x' :: hex 2 c.toNat
  else if c.toNat ≤ 0xFFFF then '\\' :: 'u' :: hex 4 c.toNat
  else '\\' :: 'U' :: hex 8 c.toNat

end Quoted

/-- A text as messages show it. -/
def quoted (s : String) : String :=
  let cs := s.toList
  let q := Quoted.quoteFor cs
  String.ofList (q :: cs.flatMap (Quoted.escape q) ++ [q])

example : quoted "soon" = "'soon'" := by decide
example : quoted "it's" = "\"it's\"" := by decide
example : quoted "a\tb" = "'a\\tb'" := by decide

end Trialnet.Text
