/-!
# Decimal numerals

The decimal text of a whole number, and the limit on its length: numerals of more than 4300
digits are neither read nor written.
-/

namespace Trialnet.Numeral

/-- The decimal digits of a natural number, without leading zeros. -/
def digits (n : Nat) : List Char := Nat.toDigits 10 n

/-- The decimal text of an integer, with a minus sign when it is negative. -/
def chars : Int → List Char
  | .ofNat n => digits n
  | .negSucc n => '-' :: digits (n + 1)

/-- The decimal text of an integer. -/
def text (n : Int) : String := String.ofList (chars n)

/-- The number that a run of ASCII digits denotes. -/
def value (cs : List Char) : Nat := Nat.ofDigitChars 10 cs 0

/-- The greatest number of digits of a numeral that is read or written. -/
def maxDigits : Nat := 4300

/-- Whether an integer is short enough to be written out. -/
def isWritable (n : Int) : Bool := n.natAbs < Nat.pow 10 maxDigits

/-- What is said of a number that is too long to be written. -/
def tooLongToWrite : String :=
  s!"Exceeds the limit ({maxDigits} digits) for integer string conversion; " ++
    "use sys.set_int_max_str_digits() to increase the limit"

/-- What is said of a numeral of so many digits, which is too long to be read. -/
def tooLongToRead (count : Nat) : String :=
  s!"Exceeds the limit ({maxDigits} digits) for integer string conversion: " ++
    s!"value has {count} digits; use sys.set_int_max_str_digits() to increase the limit"

@[simp] theorem value_digits (n : Nat) : value (digits n) = n := Nat.ofDigitChars_ten_toDigits

theorem digits_ne_nil (n : Nat) : digits n ≠ [] := Nat.toDigits_ne_nil

theorem isDigit_of_mem_digits {n : Nat} {c : Char} (h : c ∈ digits n) : c.isDigit = true :=
  Nat.isDigit_of_mem_toDigits (by decide) (by decide) h

/-- Only the numeral of zero begins with a zero. -/
theorem head?_digits {n : Nat} (hn : n ≠ 0) : (digits n).head? ≠ some '0' := by
  induction n using Nat.strongRecOn with
  | _ n ih =>
    by_cases h : n < 10
    · have small : ∀ k < 10, k ≠ 0 → (digits k).head? ≠ some '0' := by decide
      exact small n h hn
    · have := ih (n / 10) (by omega) (by omega)
      rw [digits] at this
      rw [digits, Nat.toDigits_of_base_le (by omega) (by omega)]
      cases hd : Nat.toDigits 10 (n / 10) with
      | nil => exact absurd hd Nat.toDigits_ne_nil
      | cons c cs => simpa [hd] using this

example : text (-120) = "-120" := by decide

end Trialnet.Numeral
