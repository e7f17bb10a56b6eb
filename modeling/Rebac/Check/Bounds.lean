/-
  This file defines the limits of an evaluation and what it
  has used of them.

  An evaluation counts the tuples that it looks at and the
  depth that it reaches. It looks at the clock at each of
  its steps, and the time may have run out at any of them.

  Key definitions include:
    * `Interruption`
    * `Bounds`
    * `Meter`
    * `Meter.enter`
    * `Meter.charge`
-/

namespace Rebac

/- Why an evaluation stops without an answer. -/
inductive Interruption where
  | maxDepth
  | maxExpansions
  | deadline
  | storage
  deriving DecidableEq, Repr

/-
  The limits of an evaluation: the greatest depth, the
  greatest number of tuples, and whether the time has run
  out at each look at the clock.
-/
structure Bounds where
  maxDepth : Nat
  maxExpansions : Nat
  expired : (look : Nat) → Bool

/- What an evaluation has used so far. -/
structure Meter where
  expansions : Nat := 0
  deepest : Nat := 0
  looks : Nat := 0
  deriving DecidableEq, Repr

namespace Meter

/-
  Enters a step at a depth. The depth counts as reached even
  if it is too great.
-/
def enter
    (bounds : Bounds)
    (depth : Nat)
    (meter : Meter) : Except Interruption Unit × Meter :=
  let meter :=
    { meter with deepest := max meter.deepest depth }
  if bounds.maxDepth < depth then
    (.error .maxDepth, meter)
  else if bounds.expired meter.looks then
    (.error .deadline, { meter with looks := meter.looks + 1 })
  else
    (.ok (), { meter with looks := meter.looks + 1 })

/- Counts a tuple before it is looked at. -/
def charge
    (bounds : Bounds)
    (meter : Meter) : Except Interruption Unit × Meter :=
  let meter :=
    { meter with expansions := meter.expansions + 1 }
  if bounds.maxExpansions < meter.expansions then
    (.error .maxExpansions, meter)
  else
    (.ok (), meter)

end Meter

end Rebac
