/-
  Phrasing/Number/Double.lean
  ===========================
  **Binary numbers of double width, exactly.**

  A finite number is a sign, a mantissa below 2^53 and a power of two from -1074
  to 971.  Each value has one such form: the mantissa is at least 2^52 unless the
  power is the least.  Reading a decimal rounds its exact value to the nearest
  such number, a half to the even mantissa, with no intermediate rounding.
-/
import Phrasing.Number.Power

namespace Phrasing

/-- A double: a signed mantissa times a power of two, an infinity, or no number. -/
inductive Double where
  | finite (negative : Bool) (mantissa : Nat) (exponent : Int)
  | infinite (negative : Bool)
  | nan
deriving DecidableEq

/-- The integer nearest to a quotient, a half to the even neighbour. -/
def roundDiv (num den : Nat) : Nat :=
  let q := num / den
  let r := num % den
  if 2 * r < den then q else if den < 2 * r then q + 1 else if q % 2 = 0 then q else q + 1

namespace Double

/-- Whether `num / den` is at least `2 ^ power`. -/
def reaches (num den : Nat) (power : Int) : Bool :=
  if 0 ≤ power then den * powerOfTwo power.toNat ≤ num
  else den ≤ num * powerOfTwo (-power).toNat

/-- The double nearest to a quotient of natural numbers. -/
def ofRatio (negative : Bool) (num den : Nat) : Double :=
  if num = 0 then .finite negative 0 (-1074)
  else
    let size : Int := (num.log2 : Int) - den.log2
    let exponent := max (-1074) (if reaches num den size then size - 52 else size - 53)
    let mantissa :=
      if 0 ≤ exponent then roundDiv num (den * powerOfTwo exponent.toNat)
      else roundDiv (num * powerOfTwo (-exponent).toNat) den
    let (mantissa, exponent) :=
      if mantissa = powerOfTwo 53 then (powerOfTwo 52, exponent + 1) else (mantissa, exponent)
    if 971 < exponent then .infinite negative else .finite negative mantissa exponent

/-- The double nearest to `digits * 10 ^ scale`.  A scale far outside the range of doubles is
settled without computing the power. -/
def ofDecimal (negative : Bool) (digits : Nat) (scale : Int) : Double :=
  if digits = 0 then .finite negative 0 (-1074)
  else if 400 < scale then .infinite negative
  else if (digits.log2 + 1 : Nat) / 3 + 1 + scale < -400 then .finite negative 0 (-1074)
  else if 0 ≤ scale then ofRatio negative (digits * powerOfTen scale.toNat) 1
  else ofRatio negative digits (powerOfTen (-scale).toNat)

/-- Whether the number is zero, of either sign. -/
def isZero : Double → Bool
  | .finite _ mantissa _ => mantissa == 0
  | _ => false

/-- The integer part of a finite number: its fraction is cut off. -/
def truncate? : Double → Option Int
  | .finite negative mantissa exponent =>
    let n : Nat :=
      if 0 ≤ exponent then mantissa * powerOfTwo exponent.toNat
      else mantissa / powerOfTwo (-exponent).toNat
    some (if negative then -(n : Int) else n)
  | _ => none

end Double

end Phrasing
