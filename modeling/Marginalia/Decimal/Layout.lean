import Marginalia.Decimal.Shortest

/-!
# Writing decimals

How the digits of a number are laid out: positionally where the leading
digit has a place in a given range, and else as one digit, a point, the
other digits and an exponent.
-/

namespace Marginalia.Decimal

/-- The choices in the writing of a number. -/
structure Layout where
  /-- The least power of ten of the leading digit that is written
  positionally. -/
  least : Int
  /-- The greatest power of ten of the leading digit that is written
  positionally. -/
  greatest : Int
  /-- What follows the digits of an integral number written
  positionally. -/
  integral : String
  /-- What announces the exponent. -/
  mark : String
  /-- The sign of an exponent that is not negative. -/
  plus : String

namespace Layout

/-- Writes a positive number, given by its digits, the last of which is
not a zero, and the power of ten of the first. -/
def place (l : Layout) (digits : List Char) (leading : Int) : String :=
  if l.least ≤ leading && leading ≤ l.greatest then
    if leading < 0 then
      String.ofList ('0' :: '.' :: List.replicate (-leading - 1).toNat '0' ++ digits)
    else
      let whole := leading.toNat + 1
      if digits.length ≤ whole then
        String.ofList (digits ++ List.replicate (whole - digits.length) '0') ++ l.integral
      else
        String.ofList (digits.take whole ++ '.' :: digits.drop whole)
  else
    let fraction := if digits.length ≤ 1 then [] else '.' :: digits.drop 1
    String.ofList (digits.take 1 ++ fraction) ++ l.mark ++
      (if leading < 0 then "-" else l.plus) ++ toString leading.natAbs

/-- Writes a finite number by its shortest decimal. -/
def write (l : Layout) (x : Float) : String :=
  let sign := if x.toBits.toNat / Nat.pow 2 63 = 1 then "-" else ""
  if x == 0.0 then
    sign ++ l.place ['0'] 0
  else
    let d := (Binary.ofFloat x).shortest
    let digits := Nat.toDigits 10 d.digits
    let significant := (digits.reverse.dropWhile (· == '0')).reverse
    sign ++ l.place significant (d.exponent + digits.length - 1)

end Layout

end Marginalia.Decimal
