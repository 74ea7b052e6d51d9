/-!
# Double-precision numbers

Weights, timeouts and free-form data hold IEEE 754 binary64 numbers.  Every finite one is a
whole multiple of `2 ^ -1074`, the *unit*, so values, sums and comparisons are exact integer
arithmetic.  The finite non-negative numbers are counted in ascending order, and the position
of a number in that count (its *place*) represents it uniquely; it is also the bit pattern of
the number without its sign.

* `unitsAt` gives the units of a place, and `nearestPlace` the place nearest to a quotient of
  units, a tie going to the even place;
* `nearestPlace_unitsAt`: a number that is representable is its own nearest number.
-/

namespace Trialnet

/-- How many finite non-negative numbers there are: 2047 blocks of places. -/
abbrev placeCount : Nat := 0x7FF0000000000000

/-- A double-precision number. -/
inductive Binary64 where
  /-- Not a number. -/
  | nan
  /-- Infinity, of either sign. -/
  | infinite (negative : Bool)
  /-- The finite number at a place, of either sign; place 0 is zero. -/
  | finite (negative : Bool) (place : Fin placeCount)
  deriving DecidableEq

namespace Binary64

/-- How many units make one. -/
def unitsPerOne : Nat := Nat.pow 2 1074

/-- The number of places in a block, `2 ^ 52`. -/
def blockSize : Nat := 0x10000000000000

/-- The value of the number at a place, in units of `2 ^ -1074`.  In the first two blocks the
places are one unit apart, and each further block doubles the distance. -/
def unitsAt (place : Nat) : Nat :=
  let k := place / blockSize - 1
  (place - k * blockSize) * Nat.pow 2 k

/-- The whole number nearest to `n / d`; a tie goes to the even one. -/
def roundDiv (n d : Nat) : Nat :=
  let q := n / d
  let r := n % d
  if 2 * r < d then q else if d < 2 * r then q + 1 else q + q % 2

/-- The place nearest to `n / d` units, as if there were no greatest place. -/
def nearestPlace (n d : Nat) : Nat :=
  let k := (n / d).log2 - 52
  k * blockSize + roundDiv n (d * Nat.pow 2 k)

/-- The number at a place, or infinity beyond the last place. -/
def ofPlace (negative : Bool) (place : Nat) : Binary64 :=
  if h : place < placeCount then .finite negative ⟨place, h⟩ else .infinite negative

/-- The number nearest to `± n / d` units. -/
def ofQuotient (negative : Bool) (n d : Nat) : Binary64 :=
  ofPlace negative (nearestPlace n d)

/-- The number nearest to so many units.  Zero comes without a sign. -/
def ofUnits (u : Int) : Binary64 := ofQuotient (u < 0) u.natAbs 1

/-- The number nearest to an integer. -/
def ofInt (n : Int) : Binary64 := ofUnits (n * unitsPerOne)

/-- The value of a finite number in units; infinities and NaN count as zero. -/
def units : Binary64 → Int
  | .finite true p => -(unitsAt p)
  | .finite false p => unitsAt p
  | _ => 0

/-- Zero, of either sign. -/
def signedZero (negative : Bool) : Binary64 := .finite negative ⟨0, by decide⟩

/-- Zero, without a sign. -/
def zero : Binary64 := signedZero false

/-- One. -/
def one : Binary64 := ofInt 1

/-- Neither infinite nor NaN. -/
def isFinite : Binary64 → Bool
  | .finite .. => true
  | _ => false

/-- Zero of either sign. -/
def isZero : Binary64 → Bool
  | .finite _ p => p.val == 0
  | _ => false

/-- The number with its sign reversed. -/
def neg : Binary64 → Binary64
  | .nan => .nan
  | .infinite s => .infinite !s
  | .finite s p => .finite (!s) p

/-- The sum, rounded to the nearest number.  Opposite infinities have none; an exact zero is
negative only as the sum of two negative zeros. -/
def add : Binary64 → Binary64 → Binary64
  | .nan, _ => .nan
  | _, .nan => .nan
  | .infinite s, .infinite t => if s = t then .infinite s else .nan
  | .infinite s, .finite .. => .infinite s
  | .finite .., .infinite t => .infinite t
  | .finite s p, .finite t q =>
    let u := units (.finite s p) + units (.finite t q)
    if u = 0 then signedZero (s && t) else ofUnits u

/-- The difference, rounded to the nearest number. -/
def sub (x y : Binary64) : Binary64 := add x (neg y)

/-- Whether the first number is less than the second.  NaN is less than nothing. -/
def lt : Binary64 → Binary64 → Bool
  | .nan, _ => false
  | _, .nan => false
  | .infinite s, .infinite t => s && !t
  | .infinite s, .finite .. => s
  | .finite .., .infinite t => !t
  | .finite s p, .finite t q => units (.finite s p) < units (.finite t q)

/-- Whether two numbers have the same value.  The two zeros do, and NaN has no value. -/
def sameValue : Binary64 → Binary64 → Bool
  | .nan, _ => false
  | _, .nan => false
  | .infinite s, .infinite t => s = t
  | .finite s p, .finite t q => units (.finite s p) = units (.finite t q)
  | _, _ => false

/-- Whether the first number is at most the second. -/
def le (x y : Binary64) : Bool := lt x y || sameValue x y

/-- Whether the first number has the smaller absolute value. -/
def isSmaller : Binary64 → Binary64 → Bool
  | .finite _ p, .finite _ q => p < q
  | .finite .., .infinite _ => true
  | _, _ => false

/-- The integer that a finite number is, if it is one. -/
def toInt? (x : Binary64) : Option Int :=
  if x.isFinite && x.units % unitsPerOne = 0 then some (x.units / unitsPerOne) else none

/-! ### Representable numbers are their own nearest numbers -/

theorem roundDiv_mul (q : Nat) {d : Nat} (h : 0 < d) : roundDiv (q * d) d = q := by
  simp [roundDiv, Nat.mul_div_cancel q h, h]

theorem nearestPlace_unitsAt (p : Nat) : nearestPlace (unitsAt p) 1 = p := by
  unfold nearestPlace unitsAt blockSize
  simp only [Nat.div_one, Nat.one_mul, Nat.pow_eq]
  generalize hk : p / 0x10000000000000 - 1 = k
  have hm : p - k * 0x10000000000000 < 2 ^ 53 := by omega
  by_cases h : k = 0
  · subst h
    have hp : (p - 0 * 0x10000000000000) * 2 ^ 0 = p := by omega
    rw [hp]
    have hl : p.log2 - 52 = 0 := by
      by_cases h0 : p = 0
      · subst h0; rfl
      · have := (Nat.log2_lt h0).2 (show p < 2 ^ 53 by omega)
        omega
    rw [hl]
    simpa using roundDiv_mul p (d := 1) (by decide)
  · have hm' : 2 ^ 52 ≤ p - k * 0x10000000000000 := by omega
    have hne : (p - k * 0x10000000000000) * 2 ^ k ≠ 0 := Nat.mul_ne_zero (by omega) (by simp)
    have hl : ((p - k * 0x10000000000000) * 2 ^ k).log2 = 52 + k := by
      apply (Nat.log2_eq_iff hne).2
      constructor
      · rw [Nat.pow_add]; exact Nat.mul_le_mul_right _ hm'
      · rw [show 52 + k + 1 = 53 + k by omega, Nat.pow_add]
        exact Nat.mul_lt_mul_of_pos_right hm (Nat.pow_pos (by decide))
    rw [hl, Nat.add_sub_cancel_left, roundDiv_mul _ (Nat.pow_pos (by decide))]
    omega

/-- Only place 0 has no units. -/
theorem unitsAt_pos {p : Nat} (h : p ≠ 0) : 0 < unitsAt p := by
  unfold unitsAt blockSize
  exact Nat.mul_pos (by omega) (Nat.pow_pos (by decide))

end Binary64

end Trialnet
