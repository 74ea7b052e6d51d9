import Trialnet.Binary64.Basic
import Trialnet.Text.Numeral

/-!
# Amounts of 28 digits

A duration is added up in decimal amounts `coefficient * 10 ^ exponent`.  The result of a
multiplication or an addition is rounded to 28 significant digits, a tie going to the even
one; an amount that is merely written down keeps all its digits.  Exponents have no limits here,
which would matter only for texts of about a million characters.
-/

namespace Trialnet.Duration

/-- A non-negative decimal amount. -/
structure Amount where
  coefficient : Nat
  exponent : Int
  deriving DecidableEq

namespace Amount

/-- The number of significant digits that a result keeps. -/
def precision : Nat := 28

/-- The amount rounded to the precision. -/
def round (a : Amount) : Amount :=
  let excess := (Numeral.digits a.coefficient).length - precision
  ⟨Binary64.roundDiv a.coefficient (Nat.pow 10 excess), a.exponent + excess⟩

/-- The coefficient of an amount with respect to a smaller exponent. -/
def scaledTo (a : Amount) (exponent : Int) : Nat :=
  a.coefficient * Nat.pow 10 (a.exponent - exponent).toNat

/-- The rounded sum. -/
def add (a b : Amount) : Amount :=
  let e := min a.exponent b.exponent
  round ⟨a.scaledTo e + b.scaledTo e, e⟩

/-- The rounded product. -/
def mul (a b : Amount) : Amount :=
  round ⟨a.coefficient * b.coefficient, a.exponent + b.exponent⟩

/-- Nothing. -/
def zero : Amount := ⟨0, 0⟩

/-- The natural number that an amount is, if it is one. -/
def toNat? (a : Amount) : Option Nat :=
  if 0 ≤ a.exponent then some (a.coefficient * Nat.pow 10 a.exponent.toNat)
  else
    let d := Nat.pow 10 (-a.exponent).toNat
    if a.coefficient % d = 0 then some (a.coefficient / d) else none

end Amount

end Trialnet.Duration
