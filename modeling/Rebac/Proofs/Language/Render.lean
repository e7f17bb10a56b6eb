import Rebac.Proofs.Language.Expression
import Rebac.Proofs.Language.Line
import Rebac.Proofs.Language.Spelling

/-
  This file defines the canonical source of a declaration and
  proves which tokens it is divided into.

  The header and the relations are indented, and every type
  and every relation has a line of its own. How the lines are
  indented decides which blocks open and close between them.

  Key definitions include:
    * `Declaration.Expression.lexemes`
    * `Line`
    * `Declaration.lines`
    * `Declaration.render`
    * `Layout.LaidOut`

  Key theorems include:
    * `Declaration.Expression.spelled_lexemes`
    * `Token.exists_scan_of_laidOut`
-/

namespace Rebac

------------------------------------------------------------
-- Canonical Sources
------------------------------------------------------------

/- A line of a source: its indentation and its lexemes. -/
structure Line where
  indent : Nat
  lexemes : List Lexeme

namespace Line

def text (line : Line) : Bytes :=
  List.replicate line.indent 32 ++ Lexeme.line line.lexemes

/- Whether a line has lexemes and all can be written. -/
structure IsWritten (line : Line) : Prop where
  some : line.lexemes ≠ []
  each : ∀ lexeme ∈ line.lexemes, lexeme.IsWritten

end Line

namespace Declaration

mutual

/- The canonical spelling of an expression. -/
def Expression.lexemes : Expression → List Lexeme
  | .direct entries _ =>
      .mark .openBracket ::
        ([.mark .comma].intercalate
          (entries.map TypeRef.lexemes) ++
            [.mark .closeBracket])
  | .computed relation _ => [.identifier relation]
  | .tupleToUserset tupleset relation _ =>
      [.identifier tupleset, .mark .arrow,
        .identifier relation]
  | .union operands _ =>
      [.keyword .or].intercalate (lexemesOfAll operands)
  | .intersection operands _ =>
      [.keyword .and].intercalate (lexemesOfAll operands)
  | .exclusion base subtract _ =>
      base.lexemes ++
        .keyword .but :: .keyword .not :: subtract.lexemes

def lexemesOfAll : List Expression → List (List Lexeme)
  | [] => []
  | operand :: others =>
      operand.lexemes :: lexemesOfAll others

end

def Relation.line (relation : Relation) : Line :=
  { indent := 4
    lexemes :=
      .keyword .define :: .identifier relation.name ::
        .mark .colon :: relation.expression.lexemes }

def TypeBlock.line (block : TypeBlock) : Line :=
  { indent := 0
    lexemes := [.keyword .type, .identifier block.name] }

/- The line before the relations of a type. -/
def relationsLine : Line :=
  { indent := 2
    lexemes := [.keyword .relations] }

/- The lines of a type. Without relations it is one line. -/
def TypeBlock.lines (block : TypeBlock) : List Line :=
  block.line ::
    if block.relations = [] then
      []
    else
      relationsLine :: block.relations.map Relation.line

def lines (declaration : Declaration) : List Line :=
  { indent := 0
    lexemes := [.keyword .model] } ::
  { indent := 2
    lexemes :=
      [.keyword .schema, .version declaration.schemaVersion] } ::
  declaration.types.flatMap TypeBlock.lines

/- The canonical source of a declaration. -/
def render (declaration : Declaration) : Bytes :=
  declaration.lines.flatMap fun line => line.text ++ [10]

theorem lexemesOfAll_eq_map (operands : List Expression) :
    lexemesOfAll operands =
      operands.map Expression.lexemes := by
  induction operands with
  | nil => rfl
  | cons operand others ih =>
      rw [lexemesOfAll, ih, List.map_cons]

/- If every operand is spelled canonically, so are all. -/
theorem forall₂_lexemesOfAll
    {operands : List Expression}
    (hEach : ∀ operand ∈ operands,
      operand.Spelled operand.lexemes) :
    List.Forall₂ Expression.Spelled operands
      (lexemesOfAll operands) := by
  rw [lexemesOfAll_eq_map, List.forall₂_map_right_iff,
    List.forall₂_same]
  exact hEach

/- The canonical spelling is a spelling. -/
theorem Expression.spelled_lexemes (expression : Expression) :
    expression.Spelled expression.lexemes := by
  induction expression using Expression.induct with
  | combine whole ih =>
      cases whole with
      | direct entries location => exact .direct _ _
      | computed relation location => exact .computed _ _
      | tupleToUserset tupleset relation location =>
          exact .arrow _ _ _
      | union operands location =>
          exact .union _ (forall₂_lexemesOfAll ih)
      | intersection operands location =>
          exact .intersection _ (forall₂_lexemesOfAll ih)
      | exclusion base subtract location =>
          have hBase := ih base List.mem_cons_self
          have hSubtract := ih subtract
            (List.mem_cons_of_mem _ List.mem_cons_self)
          exact .exclusion _ hBase hSubtract

------------------------------------------------------------
-- Written Lexemes
------------------------------------------------------------

/- What all pieces and the sign have, what they form has. -/
theorem forall_mem_intercalate
    {sign : Lexeme}
    {pieces : List (List Lexeme)}
    {property : Lexeme → Prop}
    (hSign : property sign)
    (hPieces : ∀ piece ∈ pieces,
      ∀ lexeme ∈ piece, property lexeme) :
    ∀ lexeme ∈ [sign].intercalate pieces, property lexeme := by
  cases pieces with
  | nil => exact List.forall_mem_nil _
  | cons first others =>
      rcases List.forall_mem_cons.mp hPieces with
        ⟨hFirst, hOthers⟩
      rw [intercalate_cons, List.forall_mem_append]
      refine ⟨hFirst, ?_⟩
      intro lexeme hLexeme
      rcases List.mem_flatMap.mp hLexeme with
        ⟨piece, hPiece, hInner⟩
      rcases List.mem_cons.mp hInner with rfl | hBehind
      · exact hSign
      · exact hOthers piece hPiece lexeme hBehind

theorem TypeRef.Named.isWritten
    {entry : TypeRef}
    (hNamed : entry.Named) :
    ∀ lexeme ∈ entry.lexemes, lexeme.IsWritten := by
  rcases entry with ⟨spec, location⟩
  cases spec with
  | any => simp [lexemes, Lexeme.IsWritten]
  | plain type =>
      simpa [lexemes, Lexeme.IsWritten, Named] using hNamed
  | userset type relation =>
      simpa [lexemes, Lexeme.IsWritten, Named] using hNamed
  | wildcard type =>
      simpa [lexemes, Lexeme.IsWritten, Named] using hNamed

namespace Expression

variable {expression : Expression}

theorem IsPrimary.isWritten
    (hPrimary : expression.IsPrimary) :
    ∀ lexeme ∈ expression.lexemes, lexeme.IsWritten := by
  cases expression with
  | direct entries location =>
      rw [lexemes, List.forall_mem_cons,
        List.forall_mem_append, List.forall_mem_singleton]
      refine ⟨trivial, forall_mem_intercalate trivial ?_, trivial⟩
      intro piece hPiece
      rcases List.mem_map.mp hPiece with ⟨entry, hEntry, rfl⟩
      exact (hPrimary.2 entry hEntry).isWritten
  | computed relation location =>
      simpa [lexemes, Lexeme.IsWritten, IsPrimary]
        using hPrimary
  | tupleToUserset tupleset relation location =>
      simpa [lexemes, Lexeme.IsWritten, IsPrimary]
        using hPrimary
  | _ => cases hPrimary

theorem IsDifference.isWritten
    (hDifference : expression.IsDifference) :
    ∀ lexeme ∈ expression.lexemes, lexeme.IsWritten := by
  cases expression with
  | exclusion base subtract location =>
      rw [lexemes, List.forall_mem_append,
        List.forall_mem_cons, List.forall_mem_cons]
      exact ⟨hDifference.1.isWritten, trivial, trivial,
        hDifference.2.isWritten⟩
  | _ => exact IsPrimary.isWritten hDifference

theorem isWritten_operands
    {operands : List Expression}
    {word : Keyword}
    (hEach : ∀ operand ∈ operands,
      ∀ lexeme ∈ operand.lexemes, lexeme.IsWritten) :
    ∀ lexeme ∈
      [.keyword word].intercalate (lexemesOfAll operands),
      lexeme.IsWritten := by
  rw [lexemesOfAll_eq_map]
  refine forall_mem_intercalate trivial ?_
  intro piece hPiece
  rcases List.mem_map.mp hPiece with ⟨operand, hOperand, rfl⟩
  exact hEach operand hOperand

theorem IsProduct.isWritten
    (hProduct : expression.IsProduct) :
    ∀ lexeme ∈ expression.lexemes, lexeme.IsWritten := by
  cases expression with
  | intersection operands location =>
      rw [lexemes]
      refine isWritten_operands fun operand hOperand => ?_
      exact (hProduct.2 operand hOperand).isWritten
  | _ => exact IsDifference.isWritten hProduct

theorem IsUnion.isWritten
    (hUnion : expression.IsUnion) :
    ∀ lexeme ∈ expression.lexemes, lexeme.IsWritten := by
  cases expression with
  | union operands location =>
      rw [lexemes]
      refine isWritten_operands fun operand hOperand => ?_
      exact (hUnion.2 operand hOperand).isWritten
  | _ => exact IsProduct.isWritten hUnion

end Expression

theorem TypeBlock.WellFormed.isWritten
    {block : TypeBlock}
    (hBlock : block.WellFormed) :
    ∀ line ∈ block.lines, line.IsWritten := by
  rw [lines, List.forall_mem_cons]
  refine ⟨⟨List.cons_ne_nil _ _, ?_⟩, ?_⟩
  · simpa [TypeBlock.line, Lexeme.IsWritten] using hBlock.name
  · split
    · exact List.forall_mem_nil _
    · rw [List.forall_mem_cons]
      refine ⟨⟨List.cons_ne_nil _ _, ?_⟩, ?_⟩
      · simp [relationsLine, Lexeme.IsWritten]
      · intro line hLine
        rcases List.mem_map.mp hLine with
          ⟨relation, hRelation, rfl⟩
        have hRead := hBlock.relations relation hRelation
        refine ⟨List.cons_ne_nil _ _, ?_⟩
        rw [Relation.line, List.forall_mem_cons,
          List.forall_mem_cons, List.forall_mem_cons]
        exact ⟨trivial, hRead.name, trivial,
          hRead.expression.isWritten⟩

theorem WellFormed.isWritten
    {declaration : Declaration}
    (hWellFormed : declaration.WellFormed) :
    ∀ line ∈ declaration.lines, line.IsWritten := by
  rw [lines, List.forall_mem_cons, List.forall_mem_cons]
  refine ⟨⟨List.cons_ne_nil _ _, ?_⟩,
    ⟨List.cons_ne_nil _ _, ?_⟩, ?_⟩
  · simp [Lexeme.IsWritten]
  · simpa [Lexeme.IsWritten] using hWellFormed.version
  · intro line hLine
    rcases List.mem_flatMap.mp hLine with
      ⟨block, hBlock, hInner⟩
    exact (hWellFormed.types block hBlock).isWritten line hInner

end Declaration

------------------------------------------------------------
-- Layout
------------------------------------------------------------

namespace Layout

def Change.lexemes : Change → List Lexeme
  | .same => []
  | .opened => [.openBlock]
  | .closed count => List.replicate count .closeBlock

/- The lexemes of some lines, with the blocks they are in. -/
inductive LaidOut :
    Blocks → List Line → List Lexeme → Prop where
  | done (blocks : Blocks) :
      LaidOut blocks []
        (List.replicate blocks.length .closeBlock ++
          [.endOfSource])
  | line
      {blocks kept : Blocks}
      {change : Change}
      {line : Line}
      {others : List Line}
      {lexemes : List Lexeme} :
      blocks.move? line.indent = some (change, kept) →
        LaidOut kept others lexemes →
          LaidOut blocks (line :: others)
            (change.lexemes ++ line.lexemes ++
              .newline :: lexemes)

/- What is written behind blanks is indented by them. -/
theorem indentation_replicate
    {first : UInt8}
    (hStarts : Lexeme.Starts first)
    (rest : Bytes)
    (count : Nat) :
    indentation (List.replicate count 32 ++ first :: rest) =
      (count, count, first :: rest) := by
  induction count with
  | zero =>
      rcases hStarts with ⟨hTab, _, hReturn, hSpace, _⟩
      have hColumns : columns? first = none := by
        rw [columns?, if_neg hSpace, if_neg hTab,
          if_neg hReturn]
      rw [List.replicate_zero, List.nil_append, indentation,
        hColumns]
  | succ count ih =>
      rw [List.replicate_succ, List.cons_append, indentation]
      simp only [columns?, if_pos, ih]
      rw [Nat.add_comm 1 count]

end Layout

namespace Line

variable {line : Line}

/- Behind the indentation of a line its lexemes are found. -/
theorem IsWritten.content
    (hLine : line.IsWritten) :
    Layout.indentation line.text =
        (line.indent, line.indent,
          Lexeme.line line.lexemes) ∧
      ¬ (Lexeme.line line.lexemes = [] ∨
        Token.opensComment (Lexeme.line line.lexemes) =
          true) := by
  rcases List.exists_cons_of_ne_nil hLine.some with
    ⟨lexeme, others, hLexemes⟩
  have hLexeme : lexeme.IsWritten :=
    hLine.each lexeme (hLexemes ▸ List.mem_cons_self)
  rcases Lexeme.exists_line hLexeme others with
    ⟨first, more, hText, hStarts⟩
  rw [text, hLexemes, hText]
  refine ⟨Layout.indentation_replicate hStarts more _, ?_⟩
  rintro (hNone | hComment)
  · cases hNone
  · exact Token.opensComment_of_ne hStarts.2.2.2.2 more
      hComment

theorem IsWritten.newline_not_mem
    (hLine : line.IsWritten) :
    10 ∉ line.text := by
  rw [text, List.mem_append]
  rintro (hBlank | hLexemes)
  · cases List.eq_of_mem_replicate hBlank
  · exact Lexeme.newline_not_mem_line hLine.each hLexemes

end Line

namespace Bytes

theorem split_append_cons
    {separator : UInt8}
    {part : Bytes}
    (hPart : separator ∉ part)
    (rest : Bytes) :
    split separator (part ++ separator :: rest) =
      part :: split separator rest := by
  induction part with
  | nil => rw [List.nil_append, split, if_pos rfl]
  | cons byte others ih =>
      rw [List.mem_cons, not_or] at hPart
      rw [List.cons_append, split, if_neg (Ne.symm hPart.1),
        ih hPart.2]

/- The lines of a text that ends each of them. -/
theorem lines_flatMap
    {texts : List Bytes}
    (hTexts : ∀ text ∈ texts, 10 ∉ text) :
    lines (texts.flatMap fun text => text ++ [10]) =
      texts ++ [[]] := by
  induction texts with
  | nil => rfl
  | cons text others ih =>
      rcases List.forall_mem_cons.mp hTexts with
        ⟨hText, hOthers⟩
      rw [List.flatMap_cons, List.append_assoc, lines]
      exact (split_append_cons hText _).trans
        (congrArg (text :: ·) (ih hOthers))

end Bytes

namespace Token

theorem map_lexeme_ofChange
    (location : Location)
    (change : Layout.Change) :
    (ofChange location change).map lexeme =
      change.lexemes := by
  cases change with
  | same => rfl
  | opened => rfl
  | closed count => exact List.map_replicate

theorem exists_scanLines
    {blocks : Layout.Blocks}
    {lines : List Line}
    {lexemes : List Lexeme}
    (hLaidOut : Layout.LaidOut blocks lines lexemes)
    (hWritten : ∀ line ∈ lines, line.IsWritten)
    (finish : Location)
    (number offset : Nat) :
    ∃ tokens,
      scanLines finish number offset blocks
          (lines.map Line.text ++ [[]]) = .ok tokens ∧
        tokens.map lexeme = lexemes := by
  induction hLaidOut generalizing number offset with
  | done blocks =>
      refine ⟨_, rfl, ?_⟩
      rw [List.map_append, map_lexeme_ofChange]
      rfl
  | @line blocks kept change line others _ hMove _ ih =>
      rcases List.forall_mem_cons.mp hWritten with
        ⟨hLine, hMore⟩
      rcases hLine.content with ⟨hIndentation, hContent⟩
      rcases divides_line hLine.each
        { line := number
          column := line.indent + 1
          offset := offset + line.indent } with
        ⟨found, hFound, hLexemes⟩
      rcases ih hMore (number + 1)
        (offset + line.text.length + 1) with
        ⟨behind, hBehind, hRest⟩
      rw [List.map_cons, List.cons_append, scanLines]
      simp only [hIndentation, if_neg hContent, hMove, hFound,
        hBehind]
      refine ⟨_, rfl, ?_⟩
      rw [List.map_append, List.map_append,
        map_lexeme_ofChange, List.map_cons, hLexemes, hRest]
      rfl

/- A canonical source is divided into its laid-out lexemes. -/
theorem exists_scan_of_laidOut
    {lines : List Line}
    {lexemes : List Lexeme}
    (hLaidOut : Layout.LaidOut [] lines lexemes)
    (hWritten : ∀ line ∈ lines, line.IsWritten) :
    ∃ tokens,
      scan (lines.flatMap fun line => line.text ++ [10]) =
          .ok tokens ∧
        tokens.map lexeme = lexemes := by
  have hTexts : ∀ text ∈ lines.map Line.text, 10 ∉ text := by
    intro text hText
    rcases List.mem_map.mp hText with ⟨line, hLine, rfl⟩
    exact (hWritten line hLine).newline_not_mem
  have hLines := Bytes.lines_flatMap hTexts
  rw [List.flatMap_map] at hLines
  rw [scan, hLines]
  exact exists_scanLines hLaidOut hWritten _ _ _

end Token

end Rebac
