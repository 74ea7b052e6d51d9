import Trialnet.Binary64.Decimal

/-!
# The text of a double

`text` writes the shortest decimal that is read back as the same number, positionally or with
an exponent as `Layout` decides, and `fixed` writes a given number of decimal places.
-/

namespace Trialnet.Binary64

/-- How a decimal is laid out: the exponents that are written positionally, and the least
number of digits of an exponent that is written out. -/
structure Layout where
  /-- The least exponent of the leading digit that is written positionally. -/
  least : Int
  /-- The first exponent above those that are written positionally. -/
  bound : Int
  /-- Exponents are padded with zeros to this width. -/
  exponentWidth : Nat

/-- Numbers from 0.0001 up to 10000000000000000 are written positionally, and an exponent has
at least two digits. -/
def layout : Layout := ⟨-4, 16, 2⟩

/-- Zeros in front of a text up to a width. -/
def padLeft (width : Nat) (cs : List Char) : List Char :=
  List.replicate (width - cs.length) '0' ++ cs

/-- A text without the zeros at its end. -/
def dropTrailingZeros (cs : List Char) : List Char := (cs.reverse.dropWhile (· == '0')).reverse

/-- The digits `ds` with the point after the leading digit moved by `e` places. -/
def positional (ds : List Char) (e : Int) : List Char :=
  if e < 0 then '0' :: '.' :: (List.replicate (-e - 1).toNat '0' ++ ds)
  else
    let whole := (e + 1).toNat
    let int := ds.take whole ++ List.replicate (whole - ds.length) '0'
    let frac := ds.drop whole
    int ++ '.' :: (if frac.isEmpty then ['0'] else frac)

/-- The digits `ds` with the point after the leading digit, and the exponent `e`. -/
def scientific (ds : List Char) (e : Int) : List Char :=
  let mantissa := match ds with
    | d :: [] => [d]
    | d :: rest => d :: '.' :: rest
    | [] => []
  let sign := if e < 0 then '-' else '+'
  mantissa ++ 'e' :: sign :: padLeft layout.exponentWidth (Numeral.digits e.natAbs)

/-- The text of the decimal `m * 10 ^ e`, without zeros at the end of its digits. -/
def decimalText (m : Nat) (e : Int) : List Char :=
  let all := Numeral.digits m
  let lead := e + all.length - 1
  let ds := dropTrailingZeros all
  if layout.least ≤ lead ∧ lead < layout.bound then positional ds lead else scientific ds lead

/-- The text of the number at a place. -/
def placeText (place : Nat) : List Char :=
  if place = 0 then ['0', '.', '0'] else decimalText (shortest place).1 (shortest place).2

/-- The characters of the text of a number. -/
def chars : Binary64 → List Char
  | .nan => ['n', 'a', 'n']
  | .infinite false => ['i', 'n', 'f']
  | .infinite true => ['-', 'i', 'n', 'f']
  | .finite false p => placeText p
  | .finite true p => '-' :: placeText p

/-- The text of a number: the shortest that is read back as the same number. -/
def text (x : Binary64) : String := String.ofList x.chars

/-- The text of a number with `places` digits after the point, the exact value being rounded
and a tie going to the even digit. -/
def fixed (places : Nat) : Binary64 → String
  | .finite s p =>
    let scaled := roundDiv (unitsAt p * Nat.pow 10 places) unitsPerOne
    let ds := padLeft (places + 1) (Numeral.digits scaled)
    let cut := ds.length - places
    let sign := if s then ['-'] else []
    String.ofList (sign ++ ds.take cut ++ '.' :: ds.drop cut)
  | x => x.text

example : (ofDecimal false 1 (-1)).text = "0.1" := by decide +kernel
example : (ofDecimal true 1 16).text = "-1e+16" := by decide +kernel
example : (ofDecimal false 1 (-5)).text = "1e-05" := by decide +kernel
example : fixed 2 (ofDecimal false 2675 (-3)) = "2.67" := by decide +kernel

end Trialnet.Binary64
