/-!
# Shortest decimals

The decimal that stands for a binary floating-point number: of all
decimals that read back as the number it has the fewest digits, and of
those it is the nearest to the number, an even last digit deciding
between two equally near. The arithmetic is exact, on natural numbers.
-/

namespace Marginalia.Decimal

/-- A positive binary number `mantissa * 2 ^ exponent`, with the
interval of the reals that round to it. In quarters of a unit of the
mantissa the interval goes two up, and two down unless the gap below the
number is only half as wide; its ends belong to it if the mantissa is
even. -/
structure Binary where
  mantissa : Nat
  exponent : Int
  narrowBelow : Bool

/-- The decimal `digits * 10 ^ exponent`. -/
structure Numeral where
  digits : Nat
  exponent : Int

namespace Binary

/-- The factors `(n, d)` with `n / d = 2 ^ (exponent - 2) / 10 ^ k`:
what a quarter of a unit is worth in steps of the grid `10 ^ k`. -/
def quarterIn (b : Binary) (k : Int) : Nat × Nat :=
  (Nat.pow 2 (b.exponent - 2).toNat * Nat.pow 10 (-k).toNat,
    Nat.pow 10 k.toNat * Nat.pow 2 (2 - b.exponent).toNat)

/-- Whether `digits * 10 ^ k` rounds to the number. -/
def admits (b : Binary) (k : Int) (digits : Nat) : Bool :=
  let (n, d) := b.quarterIn k
  let low := (4 * b.mantissa - if b.narrowBelow then 1 else 2) * n
  let high := (4 * b.mantissa + 2) * n
  if b.mantissa % 2 = 0 then low ≤ digits * d && digits * d ≤ high
  else low < digits * d && digits * d < high

/-- The power of ten of the leading digit. Every positive number of
double width reaches one when it is moved up by 324 places. -/
def leading (b : Binary) : Int :=
  let (n, d) := b.quarterIn (-324)
  ((Nat.toDigits 10 (4 * b.mantissa * n / d)).length : Int) - 325

/-- The better of the two neighbours of the number on the grid `10 ^ k`
that round to it. -/
def onGrid? (b : Binary) (k : Int) : Option Nat :=
  let (n, d) := b.quarterIn k
  let below := 4 * b.mantissa * n / d
  let excess := 4 * b.mantissa * n % d
  match b.admits k below, b.admits k (below + 1) with
  | true, false => some below
  | false, true => some (below + 1)
  | false, false => none
  | true, true =>
    if 2 * excess < d then some below
    else if d < 2 * excess then some (below + 1)
    else if below % 2 = 0 then some below
    else some (below + 1)

/-- The decimal of the number with the fewest digits, trying `count` of
them at least and `more` grids at most. -/
def shortestFrom (b : Binary) (count : Nat) : Nat → Numeral
  | 0 => ⟨0, 0⟩
  | more + 1 =>
    let k := b.leading - count + 1
    match b.onGrid? k with
    | some digits => ⟨digits, k⟩
    | none => shortestFrom b (count + 1) more

/-- The shortest decimal of the number. Seventeen digits always suffice. -/
def shortest (b : Binary) : Numeral :=
  b.shortestFrom 1 17

/-- The magnitude of a finite number that is not zero. -/
def ofFloat (x : Float) : Binary :=
  let bits := x.toBits.toNat
  let field : Nat := bits / Nat.pow 2 52 % Nat.pow 2 11
  let fraction := bits % Nat.pow 2 52
  if field = 0 then ⟨fraction, -1074, false⟩
  else ⟨Nat.pow 2 52 + fraction, (field : Int) - 1075, fraction = 0 && 1 < field⟩

end Binary

end Marginalia.Decimal
