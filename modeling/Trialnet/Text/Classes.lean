/-!
# Classes of characters

Three classes of characters go beyond ASCII: the letters that match the letters of the service's
words, the spaces and blanks around numerals and durations, and the decimal digits of every script.
-/

namespace Trialnet.Text

/-! ### Lower case

The service's enumerations and setting names are lower-case ASCII words, and a text matches one of
them when its lower-case form does.  Besides the letters A to Z only the Kelvin sign has a
lower-case form that is a single ASCII letter, so lowering those characters alone gives the same
matches as lowering every letter of every script. -/

/-- The lower-case form of a character as far as an ASCII word can match it. -/
def lowerChar (c : Char) : Char := if c = '\u212A' then 'k' else c.toLower

/-- The lower-case form of a text as far as an ASCII word can match it. -/
def lower (s : String) : String := String.ofList (s.toList.map lowerChar)

example : lower "TIMED_Out" = "timed_out" := by decide

/-! ### Spaces and blanks

The *spaces* are the white space characters of the Unicode standard; they may surround a numeral.
The *blanks*, which may surround a duration, are the spaces and the four information separators
U+001C to U+001F. -/

/-- The code points of the spaces, in ascending order. -/
def spaceCodes : List Nat :=
  [0x09, 0x0A, 0x0B, 0x0C, 0x0D, 0x20, 0x85, 0xA0, 0x1680,
   0x2000, 0x2001, 0x2002, 0x2003, 0x2004, 0x2005, 0x2006, 0x2007, 0x2008, 0x2009, 0x200A,
   0x2028, 0x2029, 0x202F, 0x205F, 0x3000]

/-- Whether a character counts as space. -/
def isSpace (c : Char) : Bool := spaceCodes.contains c.toNat

/-- Whether a character counts as blank. -/
def isBlank (c : Char) : Bool := isSpace c || (0x1C ≤ c.toNat ∧ c.toNat ≤ 0x1F)

/-- A text without the characters of a class at its end. -/
def trimEnd (p : Char → Bool) (cs : List Char) : List Char := (cs.reverse.dropWhile p).reverse

/-- A text without the characters of a class at its beginning and at its end. -/
def trim (p : Char → Bool) (cs : List Char) : List Char := trimEnd p (cs.dropWhile p)

@[simp] theorem trim_nil (p : Char → Bool) : trim p [] = [] := rfl

/-! ### Decimal digits

A decimal digit is a character of the Unicode category Nd.  The digits of one script stand in
ascending order from 0 to 9, so the table holds the code point of each zero. -/

/-- The code points of the zeros, one for each run of ten digits. -/
def zeroCodes : List Nat :=
  [0x0030, 0x0660, 0x06F0, 0x07C0, 0x0966, 0x09E6, 0x0A66, 0x0AE6, 0x0B66, 0x0BE6,
   0x0C66, 0x0CE6, 0x0D66, 0x0DE6, 0x0E50, 0x0ED0, 0x0F20, 0x1040, 0x1090, 0x17E0,
   0x1810, 0x1946, 0x19D0, 0x1A80, 0x1A90, 0x1B50, 0x1BB0, 0x1C40, 0x1C50, 0xA620,
   0xA8D0, 0xA900, 0xA9D0, 0xA9F0, 0xAA50, 0xABF0, 0xFF10, 0x104A0, 0x10D30, 0x11066,
   0x110F0, 0x11136, 0x111D0, 0x112F0, 0x11450, 0x114D0, 0x11650, 0x116C0, 0x11730, 0x118E0,
   0x11950, 0x11C50, 0x11D50, 0x11DA0, 0x16A60, 0x16AC0, 0x16B50, 0x1D7CE, 0x1D7D8, 0x1D7E2,
   0x1D7EC, 0x1D7F6, 0x1E140, 0x1E2F0, 0x1E950, 0x1FBF0]

/-- The value of a decimal digit, and nothing for any other character. -/
def digit? (c : Char) : Option Nat :=
  (zeroCodes.find? fun z => z ≤ c.toNat ∧ c.toNat < z + 10).map (c.toNat - ·)

/-- Whether a character is a decimal digit of some script. -/
def isDecimalDigit (c : Char) : Bool := (digit? c).isSome

/-- The number that a run of digits denotes; a character that is no digit counts as zero. -/
def digitsValue (cs : List Char) : Nat :=
  cs.foldl (fun n c => 10 * n + (digit? c).getD 0) 0

example : digit? '7' = some 7 := by decide
example : digit? '٣' = some 3 := by decide
example : digit? '½' = none := by decide
example : digitsValue ['1', '２', '३'] = 123 := by decide

end Trialnet.Text
