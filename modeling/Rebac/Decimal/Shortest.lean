/-
  This file defines the shortest decimal that reads back as
  a given binary number.

  A binary number with a significand and an exponent stands
  for all the reals that are rounded to it. A decimal is a
  whole number of steps on a grid of powers of ten; the
  coarser the grid, the fewer digits it has.

  Key definitions include:
    * `Decimal`
    * `Binary`
    * `Binary.ofFloat`
    * `Binary.Scaled`
    * `Binary.onGrid`
    * `Binary.nearest?`
    * `Binary.shortest`
-/

namespace Rebac

------------------------------------------------------------
-- Numbers
------------------------------------------------------------

/- A positive decimal: `steps` times ten to the `exponent`. -/
structure Decimal where
  steps : Nat
  exponent : Int
  deriving DecidableEq, Repr

/-
  A positive binary number: a significand times two to the
  exponent. A number at the edge is the least one of its
  exponent, so that its neighbour below is nearer than the
  one above.
-/
structure Binary where
  significand : Nat
  exponent : Int
  atEdge : Bool
  deriving DecidableEq, Repr

namespace Binary

/- The place of the sign of a number: 2 to the 63rd. -/
def signPlace : Nat :=
  9223372036854775808

/- The place of its exponent: 2 to the 52nd. -/
def exponentPlace : Nat :=
  4503599627370496

/- The absolute value of a finite number other than zero. -/
def ofFloat (number : Float) : Binary :=
  let bits : Nat := number.toBits.toNat % signPlace
  let raised : Nat := bits / exponentPlace
  let fraction : Nat := bits % exponentPlace
  if raised = 0 then
    { significand := fraction
      exponent := -1074
      atEdge := false }
  else
    { significand := exponentPlace + fraction
      exponent := (raised : Int) - 1075
      atEdge := fraction = 0 && raised > 1 }

------------------------------------------------------------
-- Grids
------------------------------------------------------------

/-
  A number and the ends of its interval as fractions with a
  common denominator, in steps of a grid.
-/
structure Scaled where
  low : Nat
  middle : Nat
  high : Nat
  denominator : Nat
  deriving DecidableEq, Repr

/- A number in steps of ten to the given exponent. -/
def onGrid (number : Binary) (grid : Int) : Scaled :=
  let factor :=
    Nat.pow 2 number.exponent.toNat *
      Nat.pow 10 (-grid).toNat
  { low :=
      (4 * number.significand - if number.atEdge then 1 else 2) *
        factor
    middle := 4 * number.significand * factor
    high := (4 * number.significand + 2) * factor
    denominator :=
      4 * Nat.pow 2 (-number.exponent).toNat *
        Nat.pow 10 grid.toNat }

/-
  Whether a number of steps lies in the interval. The ends
  belong to it if the significand is even.
-/
def holds
    (number : Binary)
    (scaled : Scaled)
    (steps : Nat) : Bool :=
  let point := steps * scaled.denominator
  if number.significand % 2 = 0 then
    scaled.low ≤ point && point ≤ scaled.high
  else
    scaled.low < point && point < scaled.high

/-
  The point of a grid in the interval that is nearest to the
  number. Of two equally near ones the even one is taken.
-/
def nearest? (number : Binary) (grid : Int) : Option Decimal :=
  let scaled := number.onGrid grid
  let below := scaled.middle / scaled.denominator
  let above := below + 1
  let rest := 2 * (scaled.middle % scaled.denominator)
  let upward :=
    rest > scaled.denominator ||
      (rest == scaled.denominator && below % 2 == 1)
  let (first, second) :=
    if upward then (above, below) else (below, above)
  if number.holds scaled first then
    some { steps := first, exponent := grid }
  else if number.holds scaled second then
    some { steps := second, exponent := grid }
  else
    none

/- The grids from the coarsest that can matter to the finest. -/
def grids : List Int :=
  (List.range 653).map fun index : Nat => 309 - (index : Int)

/-
  The decimal with the fewest digits that reads back as the
  number: the nearest one on the coarsest possible grid.
-/
def shortest (number : Binary) : Decimal :=
  (grids.findSome? number.nearest?).getD
    { steps := 0, exponent := 0 }

end Binary

end Rebac
