import Mathlib

/-!
# Rounding to binary digits

A binary floating-point number keeps a fixed number of significant digits.
Arithmetic rounds the exact result to the nearest such number, and to the one
with an even last digit if two are as near.  Exponents are not bounded here.
-/

namespace OneShotOPD.Rounding

/-- The nearest integer, the even one of two. -/
def roundHalfEven (x : ℚ) : ℤ :=
  let below := ⌊x⌋
  if x - below < 1 / 2 then below
  else if 1 / 2 < x - below then below + 1
  else below + below % 2

def powerOfTwo (exponent : ℤ) : ℚ :=
  if 0 ≤ exponent then ((2 ^ exponent.toNat : ℕ) : ℚ) else 1 / ((2 ^ (-exponent).toNat : ℕ) : ℚ)

/-- The place of the first significant digit.  The estimate is at most one too
large. -/
def leadingExponent (x : ℚ) : ℤ :=
  let estimate := (Nat.log2 x.num.natAbs : ℤ) - Nat.log2 x.den
  if powerOfTwo estimate ≤ |x| then estimate else estimate - 1

def roundToDigits (digits : ℕ) (x : ℚ) : ℚ :=
  let unit := powerOfTwo (leadingExponent x + 1 - digits)
  roundHalfEven (x / unit) * unit

/-- Significant digits of a `float`. -/
def float64 : ℕ := 53

/-- Significant digits of a `bfloat16`. -/
def bfloat16 : ℕ := 8

example : [257, 259, -259].map (roundToDigits bfloat16) = [256, 260, -260] := by decide +kernel

end OneShotOPD.Rounding
