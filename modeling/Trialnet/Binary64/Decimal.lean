import Trialnet.Binary64.Basic
import Trialnet.Text.Numeral

/-!
# Decimals and doubles

`ofDecimal` is the double nearest to a decimal `± m * 10 ^ e`, and `shortest` goes the other
way: the decimal with the fewest digits that is read back as the given double, and among
those the one nearest to it.  The search stops at 17 digits, which always suffice; to have a
total function that reads back whatever the search finds, the exact value comes last.
-/

namespace Trialnet.Binary64

/-- Decimals of at least `10 ^ 400` lie beyond every double, and those below `10 ^ -400` are
nearest to zero. -/
def decimalReach : Nat := 400

/-- The double nearest to `± m * 10 ^ e`. -/
def ofDecimal (negative : Bool) (m : Nat) (e : Int) : Binary64 :=
  let width : Int := (Numeral.digits m).length
  if m = 0 ∨ width + e < -decimalReach then signedZero negative
  else if decimalReach < width + e then .infinite negative
  else if 0 ≤ e then ofQuotient negative (m * Nat.pow 10 e.toNat * unitsPerOne) 1
  else ofQuotient negative (m * unitsPerOne) (Nat.pow 10 (-e).toNat)

/-- The number of digits before the decimal point of the number at a place; for a number
below one tenth, minus the number of zeros after the point. -/
def leadingExponent (place : Nat) : Int :=
  (Numeral.digits (unitsAt place * Nat.pow 10 decimalReach / unitsPerOne)).length - decimalReach

/-- The number at a place as a quotient of naturals, counted in steps of `10 ^ e`. -/
def inSteps (place : Nat) (e : Int) : Nat × Nat :=
  if 0 ≤ e then (unitsAt place, unitsPerOne * Nat.pow 10 e.toNat)
  else (unitsAt place * Nat.pow 10 (-e).toNat, unitsPerOne)

/-- Whether `m * 10 ^ e` is read as the number at a place. -/
def readsBack (place m : Nat) (e : Int) : Bool := ofDecimal false m e == ofPlace false place

/-- The decimal `m * 10 ^ e` that is read back as the number at a place, if there is one: of the
two neighbours on the grid the one that is read back, and the nearer if both are. -/
def onGrid (place : Nat) (e : Int) : Option (Nat × Int) :=
  let steps := inSteps place e
  let low := steps.1 / steps.2
  if readsBack place low e then
    if readsBack place (low + 1) e then some (roundDiv steps.1 steps.2, e) else some (low, e)
  else if readsBack place (low + 1) e then some (low + 1, e)
  else none

/-- The decimal with `count` digits that is read back as the number at a place, if there is
one. -/
def withDigits (place count : Nat) : Option (Nat × Int) :=
  onGrid place (leadingExponent place - count)

/-- The decimal `m * 10 ^ e` with the fewest digits that is read back as the number at a
place. -/
def shortest (place : Nat) : Nat × Int :=
  match (List.range 17).findSome? fun k => withDigits place (k + 1) with
  | some (m, e) => (m, e)
  | none => (unitsAt place * Nat.pow 5 1074, -1074)

example : shortest 1 = (5, -324) := by decide +kernel

end Trialnet.Binary64
