/-
  Phrasing/Number/Shortest.lean
  =============================
  **The fewest digits that read back.**

  On the grid of decimals with a given number of digits, a number has two
  neighbours.  The first grid with a neighbour that reads back as the number
  gives its text; of two such neighbours the nearer one, of two equally near the
  even one.  Seventeen digits always suffice.
-/
import Phrasing.Number.Double
import Phrasing.Number.Integer

namespace Phrasing.Double

/-- The value of a finite number as a quotient. -/
def toRatio (mantissa : Nat) (exponent : Int) : Nat × Nat :=
  if 0 ≤ exponent then (mantissa * powerOfTwo exponent.toNat, 1)
  else (mantissa, powerOfTwo (-exponent).toNat)

/-- A quotient in units of `10 ^ scale`. -/
def inUnits (num den : Nat) (scale : Int) : Nat × Nat :=
  if 0 ≤ scale then (num, den * powerOfTen scale.toNat)
  else (num * powerOfTen (-scale).toNat, den)

/-- The power of ten of the first digit of a positive quotient. -/
def leadingPower (num den : Nat) : Int :=
  let guess : Int := ((num.log2 : Int) - den.log2) * 30103 / 100000 - 2
  (List.range 6).foldl (fun best (step : Nat) =>
    let power := guess + step
    let (n, d) := inUnits num den power
    if d ≤ n then power else best) guess

/-- The neighbour on the grid of `10 ^ scale` that reads back, if there is one. -/
def onGrid? (mantissa : Nat) (exponent : Int) (scale : Int) : Option (Nat × Int) :=
  let (num, den) := toRatio mantissa exponent
  let (n, d) := inUnits num den scale
  let low := n / d
  let readsBack (digits : Nat) : Bool :=
    ofDecimal false digits scale == .finite false mantissa exponent
  match readsBack low, readsBack (low + 1) with
  | true, true => some (roundDiv n d, scale)
  | true, false => some (low, scale)
  | false, true => some (low + 1, scale)
  | false, false => none

/-- The digits of a positive finite number as an integer, and the power of ten of its last digit. -/
def shortest (mantissa : Nat) (exponent : Int) : Nat × Int :=
  let (num, den) := toRatio mantissa exponent
  let power := leadingPower num den
  ((List.range 17).findSome? fun (count : Nat) =>
    onGrid? mantissa exponent (power - count)).getD (0, 0)

/-! ### Text of a number -/

/-- An exponent with its sign and at least two digits. -/
def exponentText (power : Int) : Text :=
  let digits := Text.ofNat power.natAbs
  (if power < 0 then '-' else '+') :: (if digits.length < 2 then '0' :: digits else digits)

/-- Digits placed around the decimal point.  From `10 ^ -4` to below `10 ^ 16` every place is
written out, with at least one digit after the point; outside that range an exponent is. -/
def place (digits : Text) (power : Int) : Text :=
  if -4 ≤ power && power < 16 then
    if power < 0 then
      "0." ++ List.replicate ((-power).toNat - 1) ('0' : CodePoint) ++ digits
    else
      let whole := power.toNat + 1
      if digits.length ≤ whole then
        digits ++ List.replicate (whole - digits.length) ('0' : CodePoint) ++ ".0"
      else digits.take whole ++ "." ++ digits.drop whole
  else
    match digits with
    | [] => []
    | first :: [] => first :: 'e' :: exponentText power
    | first :: rest => first :: '.' :: rest ++ "e" ++ exponentText power

/-- A finite number as text, with the sign of zero kept. -/
def finiteText (negative : Bool) (mantissa : Nat) (exponent : Int) : Text :=
  let body : Text :=
    if mantissa = 0 then "0.0"
    else
      let (n, scale) := shortest mantissa exponent
      let all := Text.ofNat n
      let digits := (all.reverse.dropWhile (· == ('0' : CodePoint))).reverse
      place digits (scale + all.length - 1)
  if negative then '-' :: body else body

end Phrasing.Double
