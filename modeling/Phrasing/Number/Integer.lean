/-
  Phrasing/Number/Integer.lean
  ============================
  **Integers in decimal.**

  Integers have no bound, but conversion to and from text stops at a fixed number
  of digits: a longer integer is neither read nor written.  A setting may spell
  its integer with blanks around it, a sign, digits of any script and single
  underscores between digits.
-/
import Phrasing.Number.Power
import Phrasing.Text.Blank
import Phrasing.Text.Digit

namespace Phrasing

/-- The most digits that an integer may have when it is read or written. -/
def digitLimit : Nat := 4300

/-- Whether an integer has more digits than may be written. -/
def isLongInteger (n : Int) : Bool := powerOfTen digitLimit ≤ n.natAbs

/-! ### Writing -/

/-- The decimal digits of a natural number, without leading zeros. -/
def Text.ofNat (n : Nat) : Text := (Nat.toDigits 10 n).map CodePoint.ofChar

/-- An integer in decimal. -/
def Text.ofInt (n : Int) : Text :=
  if n < 0 then '-' :: Text.ofNat n.natAbs else Text.ofNat n.natAbs

/-! ### Reading -/

/-- The number written by digits, most significant first. -/
def ofDigitValues (digits : List Nat) : Nat := digits.foldl (fun n d => 10 * n + d) 0

/-- The digit values of a run of digits in which single underscores may stand between two digits. -/
def digitRun? : Text → Option (List Nat)
  | [] => none
  | [c] => c.digit?.map ([·])
  | c :: d :: rest =>
    match c.digit? with
    | none => none
    | some n =>
      if d = '_' then (digitRun? rest).map (n :: ·) else (digitRun? (d :: rest)).map (n :: ·)

/-- The blanks allowed around an integer: all but the four information separators. -/
def CodePoint.isIntegerPadding (c : CodePoint) : Bool :=
  c.isBlank && !c.within [(0x1C, 0x1F)]

/-- The text without the blanks allowed around an integer. -/
def Text.trimIntegerPadding (t : Text) : Text :=
  ((t.dropWhile CodePoint.isIntegerPadding).reverse.dropWhile CodePoint.isIntegerPadding).reverse

/-- The sign of a number, and what follows it. -/
def Text.splitSign : Text → Bool × Text
  | [] => (false, [])
  | c :: rest =>
    if c = '-' then (true, rest) else if c = '+' then (false, rest) else (false, c :: rest)

/-- The integer that a text spells. -/
def Text.toInt? (t : Text) : Option Int :=
  let (negative, body) := t.trimIntegerPadding.splitSign
  match digitRun? body with
  | none => none
  | some digits =>
    if digits.length ≤ digitLimit then
      let n : Int := ofDigitValues digits
      some (if negative then -n else n)
    else none

end Phrasing
