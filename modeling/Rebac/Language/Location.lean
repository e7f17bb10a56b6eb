import Rebac.Numeral

/-
  This file defines places in a model source.

  Key definitions include:
    * `Location`
    * `Location.advance`
-/

namespace Rebac

/-
  A place in a model source. Lines and columns count from
  one, offsets from zero; all of them count bytes, save that
  a tab in a line's indentation is four columns wide.
-/
structure Location where
  line : Nat := 1
  column : Nat := 1
  offset : Nat := 0
  deriving DecidableEq, Repr, Inhabited

namespace Location

/- The place a number of bytes further on the same line. -/
def advance
    (location : Location)
    (count : Nat) : Location :=
  { location with
    column := location.column + count
    offset := location.offset + count }

end Location

end Rebac
