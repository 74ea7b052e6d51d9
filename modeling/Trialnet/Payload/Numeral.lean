import Trialnet.Payload.Reading
import Trialnet.Binary64.Decimal
import Trialnet.Text.Classes

/-!
# Numbers written as texts

A payload may give a number as a text.  A text in the plain form of an integer or of a double
stands for its number; other texts are tidied first, and each type of number has its own way
to tidy: an integer may have spaces around it, zeros in front of it, and a point and zeros
after it, a double may have spaces around it, and both may have single underscores inside.
-/

namespace Trialnet.Payload

open Text (isSpace trim)

/-! ### Underscores and signs -/

/-- Whether every underscore stands between two other characters, given whether the character
before is another one. -/
def isSpaced (afterOther : Bool) : List Char → Bool
  | [] => afterOther
  | c :: cs => if c = '_' then afterOther && isSpaced false cs else isSpaced true cs

/-- A text without its underscores; nothing if one stands at an end or next to another. -/
def withoutUnderscores? (cs : List Char) : Option (List Char) :=
  if isSpaced false cs then some (cs.filter (· != '_')) else none

/-- Whether a minus sign stands in front, and what follows it. -/
def splitMinus : List Char → Bool × List Char
  | '-' :: cs => (true, cs)
  | cs => (false, cs)

/-- Whether a sign in front is a minus, and what follows the sign, if there is one. -/
def splitSign : List Char → Bool × List Char
  | '+' :: cs => (false, cs)
  | cs => splitMinus cs

/-- A natural number with or without a minus. -/
def withSign (negative : Bool) (n : Nat) : Int := if negative then -n else n

/-! ### Integers -/

/-- Whether a text is a run of digits without a zero in front of others. -/
def isPlainNatural : List Char → Bool
  | [] => false
  | '0' :: cs => cs.isEmpty
  | cs => cs.all Char.isDigit

/-- The integer that a text is the plain form of: digits, with a minus sign if it is
negative; nothing if it is too long. -/
def plainInteger? (cs : List Char) : Option Int :=
  let (negative, ds) := splitMinus cs
  if isPlainNatural ds ∧ ds.length ≤ Numeral.maxDigits then
    some (withSign negative (Numeral.value ds))
  else none

/-- The number of digits at the beginning of a text, a minus sign aside, that are the
beginning of a plain integer other than zero. -/
def leadingDigits (cs : List Char) : Nat :=
  match (splitMinus cs).2 with
  | '0' :: _ => 0
  | ds => (ds.takeWhile Char.isDigit).length

/-- What is left of a text after the zeros and underscores at its beginning, given the
character before it.  That character stays if a point or nothing follows; otherwise a digit
or a minus sign has to. -/
def afterZeros? (before : Char) : List Char → Option (List Char)
  | [] => some [before]
  | '.' :: cs => some (before :: '.' :: cs)
  | c :: cs =>
    if c = '0' ∨ c = '_' then afterZeros? c cs
    else if c.isDigit ∨ c = '-' then some (c :: cs)
    else none

/-- A text that begins with a digit, without the zeros in front. -/
def withoutZeros? : List Char → Option (List Char)
  | [] => none
  | c :: cs =>
    if c = '0' then afterZeros? c cs
    else if c.isDigit then some (c :: cs)
    else none

/-- A text without a point that is followed by zeros only, at least one of them. -/
def withoutZeroFraction (cs : List Char) : List Char :=
  match cs.dropWhile (· != '.') with
  | _ :: '0' :: zeros => if zeros.all (· == '0') then cs.takeWhile (· != '.') else cs
  | _ => cs

/-- The plain form of an integer that may have spaces and one sign around zeros, digits and
underscores, and a fraction of zeros. -/
def tidyInteger? (cs : List Char) : Option (List Char) := do
  let (negative, rest) := splitSign (trim isSpace cs)
  let rest ← withoutUnderscores? (withoutZeroFraction (← withoutZeros? rest))
  return if negative then '-' :: rest else rest

/-- The integer that a text denotes. -/
def integerOfChars (cs : List Char) : Reading Int :=
  if Numeral.maxDigits < leadingDigits cs then .complain .oversizedInteger
  else match plainInteger? cs <|> (tidyInteger? cs).bind plainInteger? with
    | some n => .ok n
    | none => .complain .unreadableInteger

theorem splitMinus_digits (n : Nat) :
    splitMinus (Numeral.digits n) = (false, Numeral.digits n) := by
  have h : ∀ d ∈ Numeral.digits n, d.isDigit = true := fun _ => Numeral.isDigit_of_mem_digits
  rw [splitMinus]
  intro cs hc
  exact absurd (h '-' (by simp [hc])) (by decide)

theorem isPlainNatural_digits (n : Nat) : isPlainNatural (Numeral.digits n) = true := by
  by_cases hn : n = 0
  · subst hn
    decide
  · have hd := Numeral.head?_digits hn
    have h : ∀ d ∈ Numeral.digits n, d.isDigit = true := fun _ => Numeral.isDigit_of_mem_digits
    cases hc : Numeral.digits n with
    | nil => exact absurd hc (Numeral.digits_ne_nil n)
    | cons c cs =>
      rw [hc] at hd h
      have hc : c ≠ '0' := by simpa using hd
      rw [isPlainNatural]
      · simpa using h
      · simp
      · intro cs' h'
        exact hc (List.cons.inj h').1

/-- The numeral of an integer is its plain form. -/
theorem plainInteger?_chars {n : Int}
    (h : (Numeral.digits n.natAbs).length ≤ Numeral.maxDigits) :
    plainInteger? (Numeral.chars n) = some n := by
  cases n with
  | ofNat k =>
    have h : (Numeral.digits k).length ≤ Numeral.maxDigits := h
    simp [plainInteger?, Numeral.chars, splitMinus_digits, isPlainNatural_digits, h, withSign]
  | negSucc k =>
    have h : (Numeral.digits (k + 1)).length ≤ Numeral.maxDigits := h
    simp [plainInteger?, Numeral.chars, splitMinus, isPlainNatural_digits, h, withSign]
    omega

/-- A minus sign may follow zeros, and underscores may stand among them. -/
example : integerOfChars "+0__0-1_2.0".toList = .ok (-12) := by decide

/-! ### Doubles -/

/-- The digits at the beginning of a text, and the rest. -/
def splitDigits (cs : List Char) : List Char × List Char :=
  (cs.takeWhile Char.isDigit, cs.dropWhile Char.isDigit)

/-- The exponent that a text consists of, zero if it is empty. -/
def exponent? : List Char → Option Int
  | [] => some 0
  | c :: cs =>
    let (negative, ds) := splitSign cs
    if (c = 'e' ∨ c = 'E') ∧ ds ≠ [] ∧ ds.all Char.isDigit then
      some (withSign negative (Numeral.value ds))
    else none

/-- The double that a decimal denotes: digits with an optional point among or beside them
and an optional exponent. -/
def decimal? (negative : Bool) (cs : List Char) : Option Binary64 := do
  let (whole, rest) := splitDigits cs
  let (fraction, rest) := match rest with
    | '.' :: rest => splitDigits rest
    | _ => ([], rest)
  if whole = [] ∧ fraction = [] then none
  let e ← exponent? rest
  return Binary64.ofDecimal negative (Numeral.value (whole ++ fraction)) (e - fraction.length)

/-- The double that a text is the plain form of: a sign if need be, and a decimal or a word
in any case. -/
def plainDouble? (cs : List Char) : Option Binary64 :=
  let (negative, rest) := splitSign cs
  let word := String.ofList (rest.map Char.toLower)
  if word = "inf" ∨ word = "infinity" then some (.infinite negative)
  else if word = "nan" then some .nan
  else decimal? negative rest

/-- The double that a text denotes, with spaces around it or else with underscores in it. -/
def floatOfChars (cs : List Char) : Reading Binary64 :=
  match plainDouble? (trim isSpace cs) <|> (withoutUnderscores? cs).bind plainDouble? with
  | some x => .ok x
  | none => .complain .unreadableFloat

end Trialnet.Payload
