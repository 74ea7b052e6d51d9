import Trialnet.Datum.Basic
import Trialnet.Binary64.Decimal

/-!
# Reading JSON

`Json.read` turns a text into a datum.  Beyond JSON proper it accepts `NaN`, `Infinity` and
`-Infinity`.  Of several fields with one key the last value counts, at the position of the
first.  Numerals of more than 4300 digits are refused, and a number with a fraction or an
exponent is the double nearest to it.

Every array and every object inside another one takes a level of the call stack.  How
many levels there are is a parameter of the reader, and it gives a text up when it would need one
more (`TooDeep`).  That is no verdict on the text: what follows is not looked at, and those who are
ready for texts that are not JSON (`Fault`) are not ready for it.  How many levels are free
depends on how deep the calls are when the reader is called; one number stands for all of them.

A reader consumes a prefix of a list of characters and returns what is left.  A fault is
located by the number of characters that were left when it was found, so that no reader needs
to know its position; `Fault.message` turns that into a line, a column and an index.
-/

namespace Trialnet.Json

/-! ### Faults -/

/-- What is wrong with a text at some position. -/
inductive Defect where
  | valueExpected | nameExpected | colonExpected | commaExpected
  | extraData | byteOrderMark
  | openString | controlCharacter | badEscape | badUnicodeEscape
  deriving DecidableEq

/-- The wording of a defect. -/
def Defect.message : Defect → String
  | .valueExpected => "Expecting value"
  | .nameExpected => "Expecting property name enclosed in double quotes"
  | .colonExpected => "Expecting ':' delimiter"
  | .commaExpected => "Expecting ',' delimiter"
  | .extraData => "Extra data"
  | .byteOrderMark => "Unexpected UTF-8 BOM (decode using utf-8-sig)"
  | .openString => "Unterminated string starting at"
  | .controlCharacter => "Invalid control character at"
  | .badEscape => "Invalid \\escape"
  | .badUnicodeEscape => "Invalid \\uXXXX escape"

/-- Why a text is not JSON. -/
inductive Fault where
  /-- A defect at the position from which so many characters are left. -/
  | defect (what : Defect) (left : Nat)
  /-- A numeral of so many digits. -/
  | longNumeral (count : Nat)
  deriving DecidableEq

/-- The line and the column, both from 1, of the position after the given characters. -/
def lineAndColumn (before : List Char) : Nat × Nat :=
  (before.count '\n' + 1, (before.reverse.takeWhile (· != '\n')).length + 1)

/-- The wording of a fault found in a text. -/
def Fault.message (source : List Char) : Fault → String
  | .defect what left =>
    let index := source.length - left
    let (line, column) := lineAndColumn (source.take index)
    s!"{what.message}: line {line} column {column} (char {index})"
  | .longNumeral count => Numeral.tooLongToRead count

/-- The reader gives a text up at an array or an object for which no level is left. -/
inductive TooDeep where
  | array | object
  deriving DecidableEq

/-- The wording of the failure. -/
def TooDeep.message : TooDeep → String
  | .array =>
    "maximum recursion depth exceeded while decoding a JSON array from a unicode string"
  | .object =>
    "maximum recursion depth exceeded while decoding a JSON object from a unicode string"

/-- Why a reader of values stops. -/
inductive Stop where
  /-- The text is not JSON. -/
  | fault (fault : Fault)
  /-- The text is given up. -/
  | tooDeep (cause : TooDeep)
  deriving DecidableEq

/-- What a reader has found, and the characters after it. -/
abbrev Found (α : Type) := α × List Char

/-- The failure of a reader before the given characters. -/
def fail {α : Type} (what : Defect) (here : List Char) : Except Fault (Found α) :=
  .error (.defect what here.length)

/-- The failure of a reader of values before the given characters. -/
def stop {α : Type} (what : Defect) (here : List Char) : Except Stop (Found α) :=
  .error (.fault (.defect what here.length))

/-! ### Blanks -/

/-- The blanks that JSON allows between tokens. -/
def isBlank (c : Char) : Bool := c == ' ' || c == '\t' || c == '\n' || c == '\r'

/-- The characters after the blanks. -/
def skip (cs : List Char) : List Char := cs.dropWhile isBlank

/-! ### Strings -/

/-- The value of a digit in base sixteen, of either case. -/
def hexDigit? (c : Char) : Option Nat :=
  if '0' ≤ c ∧ c ≤ '9' then some (c.toNat - 0x30)
  else if 'a' ≤ c ∧ c ≤ 'f' then some (c.toNat - 0x57)
  else if 'A' ≤ c ∧ c ≤ 'F' then some (c.toNat - 0x37)
  else none

/-- The number that the first four characters denote in base sixteen, and the rest. -/
def hex4? : List Char → Option (Nat × List Char)
  | a :: b :: c :: d :: rest => do
    let a ← hexDigit? a
    let b ← hexDigit? b
    let c ← hexDigit? c
    let d ← hexDigit? d
    return (((a * 16 + b) * 16 + c) * 16 + d, rest)
  | _ => none

/-- Whether a UTF-16 unit is the first of a pair. -/
def isHighSurrogate (n : Nat) : Bool := 0xD800 ≤ n ∧ n < 0xDC00

/-- Whether a UTF-16 unit is the second of a pair. -/
def isLowSurrogate (n : Nat) : Bool := 0xDC00 ≤ n ∧ n < 0xE000

/-- The character of a UTF-16 unit; a unit of a pair that stands alone has none, and the
replacement character takes its place. -/
def charOfUnit (n : Nat) : Char :=
  if isHighSurrogate n || isLowSurrogate n then '\uFFFD' else Char.ofNat n

/-- The character of a pair of UTF-16 units. -/
def charOfPair (high low : Nat) : Char :=
  Char.ofNat (0x10000 + (high - 0xD800) * 0x400 + (low - 0xDC00))

/-- The unit after the `u` of an escape.  Four digits and one further character, at least the
closing quote, have to follow. -/
def unit (afterU : List Char) : Except Fault (Found Nat) :=
  match hex4? afterU with
  | some (n, c :: rest) => .ok (n, c :: rest)
  | _ => .error (.defect .badUnicodeEscape (afterU.length + 1))

/-- The character of the escape whose `u` precedes the given characters.  Two escapes in a
row make one character if they are a pair of units. -/
def unicodeEscape (afterU : List Char) : Except Fault (Found Char) := do
  let (n, rest) ← unit afterU
  match isHighSurrogate n, rest with
  | true, '\\' :: 'u' :: rest' =>
    if rest.length ≤ 6 then return (charOfUnit n, rest)
    let (m, rest'') ← unit rest'
    if isLowSurrogate m then return (charOfPair n m, rest'')
    return (charOfUnit n, rest)
  | _, _ => return (charOfUnit n, rest)

/-- The character of a one-letter escape. -/
def simpleEscape? : Char → Option Char
  | '"' => some '"'
  | '\\' => some '\\'
  | '/' => some '/'
  | 'b' => some '\x08'
  | 'f' => some '\x0C'
  | 'n' => some '\n'
  | 'r' => some '\r'
  | 't' => some '\t'
  | _ => none

/-- The rest of a string literal whose opening quote was found when `opened` characters were
left.  Each step reads one character, so the length of the text bounds the steps. -/
def stringBody (opened : Nat) : Nat → List Char → Except Fault (Found (List Char))
  | _, [] => .error (.defect .openString opened)
  | 0, _ => .error (.defect .openString opened)
  | steps + 1, c :: rest =>
    if c = '"' then .ok ([], rest)
    else if c = '\\' then
      match rest with
      | [] => .error (.defect .openString opened)
      | 'u' :: afterU => do
        let (x, rest) ← unicodeEscape afterU
        let (xs, rest) ← stringBody opened steps rest
        return (x :: xs, rest)
      | e :: after => match simpleEscape? e with
        | none => fail .badEscape (c :: rest)
        | some x => do
          let (xs, rest) ← stringBody opened steps after
          return (x :: xs, rest)
    else if c.toNat ≤ 0x1F then fail .controlCharacter (c :: rest)
    else do
      let (xs, rest) ← stringBody opened steps rest
      return (c :: xs, rest)

/-- The string literal whose opening quote precedes the given characters. -/
def string (afterQuote : List Char) : Except Fault (Found String) := do
  let (cs, rest) ← stringBody (afterQuote.length + 1) afterQuote.length afterQuote
  return (String.ofList cs, rest)

/-! ### Numbers -/

/-- The digits at the beginning, and the rest. -/
def digitRun (cs : List Char) : List Char × List Char :=
  (cs.takeWhile Char.isDigit, cs.dropWhile Char.isDigit)

/-- The parts of a numeral as they are written. -/
structure NumeralParts where
  /-- Whether it begins with a minus sign. -/
  negative : Bool
  /-- The digits before the point. -/
  whole : List Char
  /-- The digits after the point; none if there is no point. -/
  fraction : List Char
  /-- The exponent, if one is written. -/
  exponent : Option Int
  deriving DecidableEq

/-- A fraction: a point and at least one digit. -/
def fraction (cs : List Char) : List Char × List Char :=
  match cs with
  | '.' :: rest => match digitRun rest with
    | ([], _) => ([], cs)
    | (ds, rest) => (ds, rest)
  | _ => ([], cs)

/-- The digits of an exponent, with its sign; without any digit there is no exponent. -/
def exponentDigits (negative : Bool) (cs : List Char) : Option (Int × List Char) :=
  match digitRun cs with
  | ([], _) => none
  | (ds, rest) =>
    let n : Int := Numeral.value ds
    some (if negative then -n else n, rest)

/-- An exponent: a letter, perhaps a sign, and at least one digit. -/
def exponent (cs : List Char) : Option Int × List Char :=
  let found := match cs with
    | e :: rest =>
      if e = 'e' ∨ e = 'E' then
        match rest with
        | '-' :: rest => exponentDigits true rest
        | '+' :: rest => exponentDigits false rest
        | _ => exponentDigits false rest
      else none
    | [] => none
  match found with
  | some (n, rest) => (some n, rest)
  | none => (none, cs)

/-- Whether there is a minus sign at the beginning, and the rest. -/
def minusSign (cs : List Char) : Bool × List Char :=
  match cs with
  | '-' :: rest => (true, rest)
  | _ => (false, cs)

/-- The digits before the point.  A leading zero stands alone. -/
def wholePart (cs : List Char) : List Char × List Char :=
  match cs with
  | '0' :: rest => (['0'], rest)
  | _ => digitRun cs

/-- The parts of the numeral at the beginning, if there is one, and the rest. -/
def numeral? (cs : List Char) : Option (NumeralParts × List Char) :=
  let (negative, unsigned) := minusSign cs
  match wholePart unsigned with
  | ([], _) => none
  | (whole, rest) =>
    let (frac, rest) := fraction rest
    let (expo, rest) := exponent rest
    some (⟨negative, whole, frac, expo⟩, rest)

/-- The number that a numeral denotes: an integer unless it has a fraction or an exponent. -/
def NumeralParts.value (p : NumeralParts) : Except Fault Datum :=
  if p.fraction = [] ∧ p.exponent = none then
    if Numeral.maxDigits < p.whole.length then .error (.longNumeral p.whole.length)
    else
      let n : Int := Numeral.value p.whole
      .ok (.int (if p.negative then -n else n))
  else
    let m := Numeral.value (p.whole ++ p.fraction)
    let e := p.exponent.getD 0 - p.fraction.length
    .ok (.float (Binary64.ofDecimal p.negative m e))

/-! ### Values -/

/-- The words that stand for values. -/
def words : List (List Char × Datum) :=
  [("null".toList, .null), ("true".toList, .bool true), ("false".toList, .bool false),
   ("NaN".toList, .float .nan), ("Infinity".toList, .float (.infinite false)),
   ("-Infinity".toList, .float (.infinite true))]

/-- The value that begins with neither a quote nor a bracket. -/
def scalar (cs : List Char) : Except Fault (Found Datum) :=
  match words.find? fun w => w.1.isPrefixOf cs with
  | some (word, d) => .ok (d, cs.drop word.length)
  | none => match numeral? cs with
    | none => fail .valueExpected cs
    | some (parts, rest) => do
      let d ← parts.value
      return (d, rest)

mutual

/-- The value at the beginning, in so many steps and with so many levels left.  Of two nested calls
at least one has consumed a character, so twice the length of the text bounds the steps. -/
def value : Nat → Nat → List Char → Except Stop (Found Datum)
  | 0, _, cs => stop .valueExpected cs
  | steps + 1, levels, cs => match cs with
    | '"' :: rest => do
      let (s, rest) ← (string rest).mapError .fault
      return (.text s, rest)
    | '[' :: rest => match levels with
      | 0 => .error (.tooDeep .array)
      | levels + 1 => match skip rest with
        | ']' :: rest => .ok (.array [], rest)
        | rest => do
          let (items, rest) ← elements steps levels rest
          return (.array items, rest)
    | '\x7b' :: rest => match levels with
      | 0 => .error (.tooDeep .object)
      | levels + 1 => match skip rest with
        | '\x7d' :: rest => .ok (.object [], rest)
        | rest => do
          let (writes, rest) ← members steps levels rest
          return (.object (Fields.ofWrites writes), rest)
    | cs => (scalar cs).mapError .fault

/-- The values up to the closing bracket of an array. -/
def elements : Nat → Nat → List Char → Except Stop (Found (List Datum))
  | 0, _, cs => stop .valueExpected cs
  | steps + 1, levels, cs => do
    let (x, rest) ← value steps levels cs
    match skip rest with
    | ']' :: rest => return ([x], rest)
    | ',' :: rest =>
      let (xs, rest) ← elements steps levels (skip rest)
      return (x :: xs, rest)
    | rest => stop .commaExpected rest

/-- The fields up to the closing brace of an object. -/
def members : Nat → Nat → List Char → Except Stop (Found (List (String × Datum)))
  | 0, _, cs => stop .valueExpected cs
  | steps + 1, levels, cs => match cs with
    | '"' :: rest => do
      let (key, rest) ← (string rest).mapError .fault
      match skip rest with
      | ':' :: rest =>
        let (x, rest) ← value steps levels (skip rest)
        match skip rest with
        | '\x7d' :: rest => return ([(key, x)], rest)
        | ',' :: rest =>
          let (xs, rest) ← members steps levels (skip rest)
          return ((key, x) :: xs, rest)
        | rest => stop .commaExpected rest
      | rest => stop .colonExpected rest
    | _ => stop .nameExpected cs

end

/-- The value that the whole of a text denotes. -/
def readChars (levels : Nat) (cs : List Char) : Except Stop Datum :=
  match cs with
  | '\uFEFF' :: _ => .error (.fault (.defect .byteOrderMark cs.length))
  | _ => do
    let (d, rest) ← value (2 * cs.length + 1) levels (skip cs)
    match skip rest with
    | [] => return d
    | rest => .error (.fault (.defect .extraData rest.length))

/-- The levels that are left unless a caller says otherwise. -/
def defaultLevels : Nat := 1000

/-- The verdict on a text, unless it is given up: the value that it denotes, or why it is not
JSON. -/
def read (levels : Nat) (s : String) : Except TooDeep (Except Fault Datum) :=
  match readChars levels s.toList with
  | .ok d => .ok (.ok d)
  | .error (.fault fault) => .ok (.error fault)
  | .error (.tooDeep cause) => .error cause

example : (read 1 "[1, NaN]").toOption.bind (·.toOption)
    = some (.array [.int 1, .float .nan]) := by
  decide +kernel
example : (read 1 "[1,]").toOption.map (·.toOption) = some none := by decide +kernel
example : (read 1 "[[").toOption.map (·.toOption) = none := by decide +kernel

end Trialnet.Json
