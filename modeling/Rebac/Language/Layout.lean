import Rebac.Language.Error

/-
  This file defines how the indentation of lines opens and
  closes blocks.

  The open blocks are kept as the list of their widths, the
  innermost first. Outside all blocks the width is zero.

  Key definitions include:
    * `Layout.indentation`
    * `Layout.Blocks`
    * `Layout.Blocks.width`
    * `Layout.Change`
    * `Layout.Blocks.move?`
-/

namespace Rebac

namespace Layout

------------------------------------------------------------
-- Indentation
------------------------------------------------------------

/-
  The columns that a byte of indentation takes, or `none`
  for a byte that ends the indentation. A carriage return
  takes no column.
-/
def columns? (byte : UInt8) : Option Nat :=
  if byte = 32 then
    some 1
  else if byte = 9 then
    some 4
  else if byte = 13 then
    some 0
  else
    none

/-
  The width of a line's indentation, the number of its bytes
  and what follows it.
-/
def indentation : Bytes → Nat × Nat × Bytes
  | [] => (0, 0, [])
  | byte :: rest =>
      match columns? byte with
      | none => (0, 0, byte :: rest)
      | some columns =>
          let (width, count, content) := indentation rest
          (columns + width, count + 1, content)

------------------------------------------------------------
-- Blocks
------------------------------------------------------------

/- The widths of the open blocks, the innermost first. -/
abbrev Blocks :=
  List Nat

/- What a line's indentation does to the open blocks. -/
inductive Change where
  | same
  | opened
  | closed (count : Nat)
  deriving DecidableEq, Repr

namespace Blocks

/- The width of the innermost open block. -/
def width (blocks : Blocks) : Nat :=
  blocks.headD 0

/-
  The blocks that stay open at a line of the given width. A
  wider line opens one block. A narrower line closes every
  block that is wider than it, and has to meet the width of
  the block that is then innermost; else the answer is
  `none`.
-/
def move?
    (blocks : Blocks)
    (width : Nat) : Option (Change × Blocks) :=
  if blocks.width < width then
    some (.opened, width :: blocks)
  else if width < blocks.width then
    let kept : Blocks := blocks.dropWhile (width < ·)
    if kept.width = width then
      some (.closed (blocks.length - kept.length), kept)
    else
      none
  else
    some (.same, blocks)

end Blocks

end Layout

end Rebac
