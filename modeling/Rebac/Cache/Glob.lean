import Rebac.Bytes

/-
  This file defines patterns of keys.

  In a pattern `*` stands for any run of bytes and a
  backslash takes the byte behind it literally. Servers also
  know `?` for any single byte and classes in brackets.

  Key definitions include:
    * `Glob.Piece`
    * `Glob.Dialect`
    * `Glob.pieces`
    * `Glob.matchesPieces`
    * `Glob.Matches`
    * `Glob.escape`
-/

namespace Rebac

namespace Glob

------------------------------------------------------------
-- Pieces
------------------------------------------------------------

/- What a pattern is made of. -/
inductive Piece where
  | literal (byte : UInt8)
  | anyRun
  | anyByte
  | oneOf (inside : Bool) (ranges : List (UInt8 × UInt8))
  deriving DecidableEq, Repr

/-
  Which signs are special: only the star and the backslash,
  or the question mark and the opening bracket as well.
-/
inductive Dialect where
  | simple
  | full
  deriving DecidableEq, Repr

/-
  The ranges of a class up to its closing bracket, and what
  follows it. A class that is not closed runs to the end.
-/
def classRanges :
    Bytes → List (UInt8 × UInt8) × Bytes
  | [] => ([], [])
  | 93 :: rest => ([], rest)
  | 92 :: byte :: rest =>
      let (ranges, behind) := classRanges rest
      ((byte, byte) :: ranges, behind)
  | low :: 45 :: high :: rest =>
      let (ranges, behind) := classRanges rest
      ((min low high, max low high) :: ranges, behind)
  | byte :: rest =>
      let (ranges, behind) := classRanges rest
      ((byte, byte) :: ranges, behind)

theorem classRanges_not_longer (text : Bytes) :
    (classRanges text).2.length ≤ text.length := by
  fun_induction classRanges text <;>
    simp_all only [List.length_cons, List.length_nil] <;> omega

/-
  Whether the members of a class are listed, and not those
  that it leaves out, and the text that they start with.
-/
def classStart : Bytes → Bool × Bytes
  | 94 :: rest => (false, rest)
  | text => (true, text)

theorem classStart_not_longer (text : Bytes) :
    (classStart text).2.length ≤ text.length := by
  fun_cases classStart text <;>
    simp only [List.length_cons] <;> omega

/- The pieces of a pattern. -/
def pieces (dialect : Dialect) (pattern : Bytes) : List Piece :=
  match pattern with
  | [] => []
  | 42 :: rest => .anyRun :: pieces dialect rest
  | 92 :: byte :: rest => .literal byte :: pieces dialect rest
  | byte :: rest =>
      if dialect = .full ∧ byte = 63 then
        .anyByte :: pieces dialect rest
      else if dialect = .full ∧ byte = 91 then
        let start := classStart rest
        let members := classRanges start.2
        .oneOf start.1 members.1 :: pieces dialect members.2
      else
        .literal byte :: pieces dialect rest
termination_by pattern.length
decreasing_by
  · simp only [List.length_cons]
    omega
  · simp only [List.length_cons]
    omega
  · simp only [List.length_cons]
    omega
  · have hStart := classStart_not_longer rest
    have hRanges := classRanges_not_longer (classStart rest).2
    simp only [List.length_cons]
    omega
  · simp only [List.length_cons]
    omega

------------------------------------------------------------
-- Matching
------------------------------------------------------------

/- Whether a piece other than a run stands for a byte. -/
def Piece.admits (piece : Piece) (byte : UInt8) : Bool :=
  match piece with
  | .literal expected => byte == expected
  | .anyRun => false
  | .anyByte => true
  | .oneOf inside ranges =>
      inside ==
        ranges.any fun (low, high) => low ≤ byte && byte ≤ high

/- Whether pieces stand for a whole text. -/
def matchesPieces : List Piece → Bytes → Bool
  | [], text => text.isEmpty
  | .anyRun :: pieces, [] => matchesPieces pieces []
  | .anyRun :: pieces, byte :: rest =>
      matchesPieces pieces (byte :: rest) ||
        matchesPieces (.anyRun :: pieces) rest
  | _ :: _, [] => false
  | piece :: pieces, byte :: rest =>
      piece.admits byte && matchesPieces pieces rest
termination_by pieces text => (pieces.length, text.length)

/- Whether a pattern stands for a whole text. -/
def Matches
    (dialect : Dialect)
    (pattern text : Bytes) : Prop :=
  matchesPieces (pieces dialect pattern) text = true

instance
    (dialect : Dialect)
    (pattern text : Bytes) :
    Decidable (Matches dialect pattern text) := by
  unfold Matches
  infer_instance

------------------------------------------------------------
-- Escaping
------------------------------------------------------------

/- The signs that mean something in a pattern. -/
def isSpecial (byte : UInt8) : Bool :=
  byte == 42 || byte == 63 || byte == 91 || byte == 93 ||
    byte == 92

/- The pattern that stands for exactly the given text. -/
def escape (text : Bytes) : Bytes :=
  text.flatMap fun byte =>
    if isSpecial byte then [92, byte] else [byte]

end Glob

end Rebac
