import TelemetryExport.Number.Binary64

/-! # Shortest decimals

The decimal with the fewest digits among those that read back as a given
double. The reals that round to a double `m * 2 ^ q` form an interval that ends
halfway to its neighbours and includes its ends when `m` is even. The search
goes from coarse decimal grids to fine ones and tests, on each, the two points
next to the number; all comparisons are between naturals.
-/

namespace TelemetryExport

/-- The number `digits * 10 ^ exponent`. -/
structure Decimal where
  digits : Nat
  exponent : Int
  deriving DecidableEq, Repr

/-- A positive finite double as `mantissa * 2 ^ exponent`. -/
structure Dyadic where
  mantissa : Nat
  exponent : Int
  /-- The next double below is half as far away as the next one above. -/
  narrowBelow : Bool
  deriving DecidableEq, Repr

/-- The magnitude of a finite double. -/
def Binary64.magnitude (x : Binary64) : Dyadic :=
  if x.exponentBits = 0 then ⟨x.fractionBits, -1074, false⟩
  else ⟨0x10000000000000 + x.fractionBits, (x.exponentBits : Int) - 1075,
    x.fractionBits == 0 && decide (1 < x.exponentBits)⟩

namespace Decimal

/-- `n` times a power of `base`; a negative exponent counts as zero. -/
def scale (base n : Nat) (exponent : Int) : Nat :=
  n * Nat.pow base exponent.toNat

/-- Compares `digits * 10 ^ exponent` with `m * 2 ^ q`. -/
def compareBinary (d : Decimal) (m : Nat) (q : Int) : Ordering :=
  compare (scale 2 (scale 10 d.digits d.exponent) (-q))
    (scale 10 (scale 2 m q) (-d.exponent))

/-- Whether the decimal rounds to the number, a half going to the even mantissa. -/
def readsBack (d : Decimal) (x : Dyadic) : Bool :=
  let low := if x.narrowBelow then 4 * x.mantissa - 1 else 4 * x.mantissa - 2
  let high := 4 * x.mantissa + 2
  let endsIncluded := x.mantissa % 2 == 0
  let fromLow := d.compareBinary low (x.exponent - 2)
  let fromHigh := d.compareBinary high (x.exponent - 2)
  (fromLow == .gt || (endsIncluded && fromLow == .eq)) &&
    (fromHigh == .lt || (endsIncluded && fromHigh == .eq))

/-- The digits of the greatest point of the grid `10 ^ exponent` that is at most the number. -/
def floorOnGrid (x : Dyadic) (exponent : Int) : Nat :=
  scale 10 (scale 2 x.mantissa x.exponent) (-exponent)
    / scale 10 (scale 2 1 (-x.exponent)) exponent

/-- The point of the grid `10 ^ exponent` that reads back as the number, if a
neighbour of the number on it does. The nearer of two wins, the upper at a tie. -/
def onGrid? (x : Dyadic) (exponent : Int) : Option Decimal :=
  let below := floorOnGrid x exponent
  let lower : Decimal := ⟨below, exponent⟩
  let upper : Decimal := ⟨below + 1, exponent⟩
  match lower.readsBack x, upper.readsBack x with
  | false, false => none
  | true, false => some lower
  | false, true => some upper
  | true, true =>
      if (⟨2 * below + 1, exponent⟩ : Decimal).compareBinary (2 * x.mantissa) x.exponent = .gt then
        some lower
      else some upper

/-- The exact value of the number. -/
def exact (x : Dyadic) : Decimal :=
  if 0 ≤ x.exponent then ⟨scale 2 x.mantissa x.exponent, 0⟩
  else ⟨scale 5 x.mantissa (-x.exponent), x.exponent⟩

/-- The decimal on the first of `count` grids that has one, each grid ten times
finer than the one before it. -/
def search (x : Dyadic) : Nat → Int → Decimal
  | 0, _ => exact x
  | count + 1, exponent => (onGrid? x exponent).getD (search x count (exponent - 1))

/-- A decimal exponent at or above that of the number's leading digit. -/
def leadingExponent (x : Dyadic) : Int :=
  ((x.mantissa.log2 : Int) + x.exponent) * 30103 / 100000 + 1

/-- The shortest decimal that reads back as a positive finite double. -/
def shortest (x : Dyadic) : Decimal :=
  search x 20 (leadingExponent x)

/-- The decimal in positional notation, without an exponent. -/
def positional (d : Decimal) : String :=
  let text := toString d.digits
  if 0 ≤ d.exponent then text ++ "".pushn '0' d.exponent.toNat
  else
    let places := (-d.exponent).toNat
    let padded := "".pushn '0' (places + 1 - text.length) ++ text
    let whole := padded.length - places
    String.ofList (padded.toList.take whole) ++ "." ++ String.ofList (padded.toList.drop whole)

end Decimal

/-- A double in positional notation with the fewest digits that identify it. An
integral value has no point, and zero keeps its sign. -/
def Binary64.text (x : Binary64) : String :=
  if x.isNaN then "NaN"
  else
    let magnitude :=
      if x.isInfinite then "inf"
      else if x.isZero then "0"
      else (Decimal.shortest x.magnitude).positional
    if x.isNegative then "-" ++ magnitude else magnitude

end TelemetryExport
