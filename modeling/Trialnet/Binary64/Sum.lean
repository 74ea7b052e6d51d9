import Trialnet.Binary64.Basic

/-!
# Exact sums

`sum` adds up any number of doubles without loss and rounds once, so the order of the
summands does not matter to a sum that exists.  While it adds, it keeps the running total as an
*expansion*: a list of doubles, ascending in size and without overlap, whose exact sum is the
total.  A total that leaves the range of finite numbers on the way has no sum, and neither
have infinities of both signs.
-/

namespace Trialnet.Binary64

/-- Why a list of numbers has no sum. -/
inductive SumError where
  /-- A running total of finite numbers exceeded the greatest double. -/
  | overflow
  /-- Both infinities occur. -/
  | opposedInfinities
  deriving DecidableEq

/-- The wording of the error. -/
def SumError.message : SumError → String
  | .overflow => "intermediate overflow in fsum"
  | .opposedInfinities => "-inf + inf in fsum"

/-- The state of a summation. -/
structure Tally where
  /-- The finite part of the running total, as an expansion. -/
  expansion : List Binary64
  /-- The sum of the infinities so far. -/
  infinities : Binary64
  /-- The sum of the infinities and NaNs so far. -/
  specials : Binary64

/-- Adds a number to an expansion: what is left over at each term, and the rounded total. -/
def carry (x : Binary64) : List Binary64 → List Binary64 × Binary64
  | [] => ([], x)
  | y :: ys =>
    let (big, small) := if isSmaller x y then (y, x) else (x, y)
    let high := add big small
    let low := sub small (sub high big)
    let (rest, top) := carry high ys
    (if low.isZero then rest else low :: rest, top)

/-- Adds one summand. -/
def Tally.push (t : Tally) (x : Binary64) : Except SumError Tally :=
  let (low, top) := carry x t.expansion
  if top.isFinite then
    .ok { t with expansion := if top.isZero then low else low ++ [top] }
  else if x.isFinite then .error .overflow
  else
    .ok { expansion := []
          infinities := if x = .nan then t.infinities else add t.infinities x
          specials := add t.specials x }

/-- The exact sum of the finite summands, in units. -/
def exactUnits (xs : List Binary64) : Int := xs.foldr (fun x total => x.units + total) 0

/-- The sum of a list of numbers: the double nearest to the exact sum. -/
def sum (xs : List Binary64) : Except SumError Binary64 := do
  let t ← xs.foldlM Tally.push ⟨[], zero, zero⟩
  if t.specials.isZero then return ofUnits (exactUnits xs)
  else if t.infinities = .nan then throw .opposedInfinities
  else return t.specials

end Trialnet.Binary64
