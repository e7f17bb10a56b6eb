import Rebac.Check.Request

/-
  This file defines what a service counts.

  Key definitions include:
    * `Statistics`
    * `Statistics.countCheck`
    * `Statistics.countChanges`
    * `Statistics.checksPerSecond`
    * `Statistics.allowRate`
    * `Statistics.hitRate`
    * `Statistics.Snapshot`
-/

namespace Rebac

/- The counts since a time in milliseconds. -/
structure Statistics where
  since : Int
  checks : Nat := 0
  allowed : Nat := 0
  denied : Nat := 0
  aborted : Nat := 0
  cacheHits : Nat := 0
  tupleChanges : Nat := 0
  deriving DecidableEq, Repr

namespace Statistics

/- Counts a decision, and whether it came from the cache. -/
def countCheck
    (decision : Decision)
    (fromCache : Bool)
    (statistics : Statistics) : Statistics :=
  let statistics :=
    { statistics with
      checks := statistics.checks + 1
      cacheHits :=
        statistics.cacheHits + if fromCache then 1 else 0 }
  match decision with
  | .allowed =>
      { statistics with allowed := statistics.allowed + 1 }
  | .denied => { statistics with denied := statistics.denied + 1 }
  | .aborted _ =>
      { statistics with aborted := statistics.aborted + 1 }

/- Counts the tuples that a batch changed. -/
def countChanges
    (count : Nat)
    (statistics : Statistics) : Statistics :=
  { statistics with
    tupleChanges := statistics.tupleChanges + count }

/- The checks per second up to a time. -/
def checksPerSecond
    (statistics : Statistics)
    (now : Int) : Float :=
  if statistics.since < now then
    let nanoseconds := (now - statistics.since) * 1000000
    Float.ofNat statistics.checks /
      (Float.ofInt nanoseconds / 1000000000.0)
  else
    0.0

/- A share of all checks. -/
def share (statistics : Statistics) (count : Nat) : Float :=
  if statistics.checks = 0 then
    0.0
  else
    Float.ofNat count / Float.ofNat statistics.checks

/- The share of checks that were allowed. -/
def allowRate (statistics : Statistics) : Float :=
  statistics.share statistics.allowed

/- The share of checks that the cache decided. -/
def hitRate (statistics : Statistics) : Float :=
  statistics.share statistics.cacheHits

/- The counts at a time. -/
structure Snapshot where
  counts : Statistics
  time : Int
  deriving DecidableEq, Repr

end Statistics

end Rebac
