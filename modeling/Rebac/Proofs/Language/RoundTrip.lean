import Mathlib.Data.List.TakeWhile
import Rebac.Proofs.Language.Accept
import Rebac.Proofs.Language.Render

/-
  This file proves that the canonical source of a well-formed
  declaration is read as this declaration, up to places.

  First the blocks are found that open and close between the
  lines of the source. Then its tokens are read part by part.

  Key definitions include:
    * `Declaration.TypeBlock.laidOut`

  Key theorems include:
    * `Declaration.laidOut_lines`
    * `Declaration.reads_type`
    * `Declaration.read_render`
-/

namespace Rebac

namespace Declaration

open Layout (LaidOut)
open Lexeme (Stops)

------------------------------------------------------------
-- Layout
------------------------------------------------------------

/- The lexemes of a relation and the end of its line. -/
def Relation.laidOut (relation : Relation) : List Lexeme :=
  relation.line.lexemes ++ [.newline]

/- The lexemes of a type with the blocks that it opens. -/
def TypeBlock.laidOut (block : TypeBlock) : List Lexeme :=
  .keyword .type :: .identifier block.name :: .newline ::
    if block.relations = [] then
      []
    else
      .openBlock :: .keyword .relations :: .newline ::
        .openBlock ::
          (block.relations.flatMap Relation.laidOut ++
            [.closeBlock, .closeBlock])

/- A line that is not indented closes all blocks. -/
theorem move?_zero
    {blocks : Layout.Blocks}
    (hOpen : ∀ width ∈ blocks, 0 < width) :
    ∃ change, blocks.move? 0 = some (change, []) ∧
      change.lexemes =
        List.replicate blocks.length .closeBlock := by
  cases blocks with
  | nil => exact ⟨.same, rfl, rfl⟩
  | cons width others =>
      have hWidth : 0 < Layout.Blocks.width (width :: others) :=
        hOpen width List.mem_cons_self
      have hKept :
          (width :: others).dropWhile (0 < ·) = [] := by
        rw [List.dropWhile_eq_nil_iff]
        exact fun found hFound =>
          decide_eq_true (hOpen found hFound)
      refine ⟨.closed (width :: others).length, ?_, rfl⟩
      rw [Layout.Blocks.move?, if_neg (Nat.not_lt_zero _),
        if_pos hWidth, hKept]
      rfl

theorem laidOut_relations
    {lines : List Line}
    {lexemes : List Lexeme}
    (hLines : LaidOut [4, 2] lines lexemes)
    (relations : List Relation) :
    LaidOut [4, 2] (relations.map Relation.line ++ lines)
      (relations.flatMap Relation.laidOut ++ lexemes) := by
  induction relations with
  | nil => exact hLines
  | cons relation others ih =>
      have hFirst : LaidOut [4, 2]
          (relation.line ::
            (others.map Relation.line ++ lines)) _ :=
        .line rfl ih
      simpa [Relation.laidOut, Layout.Change.lexemes]
        using hFirst

/- The first relation opens a block for all. -/
theorem laidOut_relations_of_some
    {lines : List Line}
    {lexemes : List Lexeme}
    {relations : List Relation}
    (hLines : LaidOut [4, 2] lines lexemes)
    (hSome : relations ≠ []) :
    LaidOut [2] (relations.map Relation.line ++ lines)
      (.openBlock ::
        (relations.flatMap Relation.laidOut ++ lexemes)) := by
  cases relations with
  | nil => exact absurd rfl hSome
  | cons relation others =>
      have hFirst : LaidOut [2]
          (relation.line ::
            (others.map Relation.line ++ lines)) _ :=
        .line rfl (laidOut_relations hLines others)
      simpa [Relation.laidOut, Layout.Change.lexemes]
        using hFirst

/- The blocks of a type are closed where the next one starts. -/
theorem laidOut_types
    {blocks : Layout.Blocks}
    (hOpen : ∀ width ∈ blocks, 0 < width)
    (types : List TypeBlock) :
    LaidOut blocks (types.flatMap TypeBlock.lines)
      (List.replicate blocks.length .closeBlock ++
        (types.flatMap TypeBlock.laidOut ++
          [.endOfSource])) := by
  -- The blocks that are open are those of the type before.
  induction types generalizing blocks with
  | nil => exact .done blocks
  | cons block others ih =>
      rcases move?_zero hOpen with ⟨change, hMove, hChange⟩
      rw [List.flatMap_cons, TypeBlock.lines]
      by_cases hNone : block.relations = []
      · rw [if_pos hNone]
        have hBlock : LaidOut blocks
            (block.line :: others.flatMap TypeBlock.lines) _ :=
          .line hMove (ih (List.forall_mem_nil _))
        simpa [hChange, TypeBlock.line, TypeBlock.laidOut,
          hNone] using hBlock
      · rw [if_neg hNone]
        have hOthers : LaidOut [4, 2]
            (others.flatMap TypeBlock.lines) _ :=
          ih (by decide)
        have hRelations : LaidOut []
            (relationsLine ::
              (block.relations.map Relation.line ++
                others.flatMap TypeBlock.lines)) _ :=
          .line rfl (laidOut_relations_of_some hOthers hNone)
        simp only [Layout.Change.lexemes, relationsLine]
          at hRelations
        have hBlock : LaidOut blocks
            (block.line :: relationsLine ::
              (block.relations.map Relation.line ++
                others.flatMap TypeBlock.lines)) _ :=
          .line hMove hRelations
        simpa [hChange, TypeBlock.line, TypeBlock.laidOut,
          hNone, List.replicate] using hBlock

/- The header's block is closed before the first type. -/
theorem laidOut_lines (declaration : Declaration) :
    LaidOut [] declaration.lines
      (.keyword .model :: .newline :: .openBlock ::
        .keyword .schema ::
          .version declaration.schemaVersion :: .newline ::
            .closeBlock ::
              (declaration.types.flatMap TypeBlock.laidOut ++
                [.endOfSource])) := by
  have hTypes : LaidOut [2]
      (declaration.types.flatMap TypeBlock.lines) _ :=
    laidOut_types (by decide) declaration.types
  have hSchema : LaidOut [] declaration.lines.tail _ :=
    .line rfl hTypes
  have hModel : LaidOut [] declaration.lines _ :=
    .line rfl hSchema
  exact hModel

------------------------------------------------------------
-- Blocks
------------------------------------------------------------

variable {tokens rest : List Token}
variable {after : List Lexeme}

theorem reads_relation
    {relation : Relation}
    (hRelation : relation.WellFormed)
    (after : List Lexeme) :
    Reads readRelation (·.unplaced = relation.unplaced)
      relation.laidOut after := by
  intro tokens hTokens
  simp only [Relation.laidOut, Relation.line,
    List.cons_append, List.append_assoc] at hTokens
  rcases Token.exists_of_cons hTokens with
    ⟨_, place, _, rfl, hWord⟩
  rcases Token.exists_of_identifier hWord with
    ⟨_, _, rfl, hName⟩
  rcases Token.exists_of_cons hName with
    ⟨_, _, body, rfl, hBody⟩
  rcases readBy_union hRelation.expression
    relation.expression.spelled_lexemes (.cons (by decide) _)
    body hBody with
    ⟨found, behind, hFound, hSame, hBehind⟩
  rcases Token.exists_of_cons hBehind with
    ⟨_, _, rest, rfl, hRest⟩
  refine ⟨⟨relation.name, found, place⟩, rest, ?_, ?_, hRest⟩
  · simp [readRelation, take, takeLineEnd, Lexeme.kind, hFound]
  · simp only [Relation.unplaced, hSame]

theorem readRelations_none
    (hDefine : nextIs (.keyword .define) tokens = false) :
    readRelations tokens = .ok ([], tokens) := by
  unfold readRelations
  rw [hDefine, if_neg Bool.false_ne_true]

theorem readRelations_more
    {relation : Relation}
    {relations : List Relation}
    {behind : List Token}
    (hDefine : nextIs (.keyword .define) tokens = true)
    (hRelation : readRelation tokens = .ok (relation, behind))
    (hMore : readRelations behind = .ok (relations, rest)) :
    readRelations tokens = .ok (relation :: relations, rest) := by
  rw [readRelations]
  grind

/- The relations of a type end where its block is closed. -/
theorem reads_relations
    {relations : List Relation}
    (hEach : ∀ relation ∈ relations, relation.WellFormed)
    (after : List Lexeme) :
    Reads readRelations
      (·.map Relation.unplaced =
        relations.map Relation.unplaced)
      (relations.flatMap Relation.laidOut)
      (.closeBlock :: after) := by
  induction relations with
  | nil =>
      intro tokens hTokens
      rcases Token.exists_of_cons hTokens with
        ⟨_, _, _, rfl, _⟩
      exact ⟨[], _, readRelations_none rfl, rfl, hTokens⟩
  | cons relation others ih =>
      rcases List.forall_mem_cons.mp hEach with
        ⟨hRelation, hOthers⟩
      intro tokens hTokens
      rw [List.flatMap_cons, List.append_assoc] at hTokens
      rcases reads_relation hRelation _ tokens hTokens with
        ⟨found, behind, hFound, hSame, hBehind⟩
      rcases ih hOthers behind hBehind with
        ⟨more, rest, hMore, hAll, hRest⟩
      rcases Token.exists_of_cons hTokens with
        ⟨_, _, _, rfl, _⟩
      exact ⟨found :: more, rest,
        readRelations_more rfl hFound hMore,
        congrArg₂ (· :: ·) hSame hAll, hRest⟩

theorem reads_typeBody
    {relations : List Relation}
    (hEach : ∀ relation ∈ relations, relation.WellFormed)
    (after : List Lexeme) :
    Reads readTypeBody
      (·.map Relation.unplaced =
        relations.map Relation.unplaced)
      (.openBlock :: .keyword .relations :: .newline ::
        .openBlock ::
          (relations.flatMap Relation.laidOut ++
            [.closeBlock, .closeBlock]))
      after := by
  intro tokens hTokens
  simp only [List.cons_append, List.append_assoc] at hTokens
  rcases Token.exists_of_cons hTokens with
    ⟨_, _, _, rfl, hOpen⟩
  rcases Token.exists_of_cons hOpen with
    ⟨_, _, _, rfl, hWord⟩
  rcases Token.exists_of_cons hWord with
    ⟨_, _, _, rfl, hLine⟩
  rcases Token.exists_of_cons hLine with
    ⟨_, _, inner, rfl, hInner⟩
  rcases reads_relations hEach _ inner hInner with
    ⟨found, behind, hFound, hSame, hBehind⟩
  rcases Token.exists_of_cons hBehind with
    ⟨_, _, _, rfl, hClose⟩
  rcases Token.exists_of_cons hClose with
    ⟨_, _, rest, rfl, hRest⟩
  refine ⟨found, rest, ?_, hSame, hRest⟩
  simp [readTypeBody, readRelationBlock, take, takeLineEnd,
    Lexeme.kind, hFound]

theorem reads_type
    {block : TypeBlock}
    (hBlock : block.WellFormed)
    (hStops : Stops [.openBlock] after) :
    Reads readType (·.unplaced = block.unplaced) block.laidOut
      after := by
  intro tokens hTokens
  rw [TypeBlock.laidOut] at hTokens
  rcases Token.exists_of_cons hTokens with
    ⟨_, place, _, rfl, hWord⟩
  rcases Token.exists_of_identifier hWord with
    ⟨_, _, rfl, hName⟩
  rcases Token.exists_of_cons hName with
    ⟨_, _, body, rfl, hBody⟩
  by_cases hNone : block.relations = []
  · rw [if_pos hNone] at hBody
    rcases take_error .endOfLine hBody hStops with
      ⟨error, hError⟩
    refine ⟨⟨block.name, [], place⟩, body, ?_, ?_, hBody⟩
    · simp [readType, take_cons, takeLineEnd, Lexeme.kind,
        readTypeBody, hError]
    · simp [TypeBlock.unplaced, hNone]
  · rw [if_neg hNone] at hBody
    rcases reads_typeBody hBlock.relations after body hBody with
      ⟨found, rest, hFound, hSame, hRest⟩
    refine ⟨⟨block.name, found, place⟩, rest, ?_, ?_, hRest⟩
    · simp [readType, take, takeLineEnd, Lexeme.kind, hFound]
    · simp only [TypeBlock.unplaced, hSame]

------------------------------------------------------------
-- Models
------------------------------------------------------------

section Types

variable {headerOpen : Bool}
variable {token : Token}

theorem readTypes_end
    (hSkip : skipNewlines tokens = token :: rest)
    (hEnd : token.kind = .endOfSource) :
    readTypes headerOpen tokens = .ok [] := by
  unfold readTypes
  grind

/- Behind the header its block is closed. -/
theorem readTypes_header
    {line close : Token}
    (hLine : line.kind = .newline)
    (hClose : close.kind = .closeBlock) :
    readTypes true (line :: close :: rest) =
      readTypes false rest := by
  have hSkip :
      skipNewlines (line :: close :: rest) = close :: rest := by
    simp [skipNewlines, hLine, hClose]
  rw [readTypes]
  grind

theorem readTypes_more
    {block : TypeBlock}
    {types : List TypeBlock}
    {behind : List Token}
    (hSkip : skipNewlines tokens = token :: rest)
    (hType : token.kind = .keyword .type)
    (hBlock : readType (token :: rest) = .ok (block, behind))
    (hMore : readTypes headerOpen behind = .ok types) :
    readTypes headerOpen tokens = .ok (block :: types) := by
  rw [readTypes]
  grind

end Types

theorem readTypes_laidOut
    {types : List TypeBlock}
    (hEach : ∀ block ∈ types, block.WellFormed)
    (hTokens :
      tokens.map Token.lexeme =
        types.flatMap TypeBlock.laidOut ++ [.endOfSource]) :
    ∃ found, readTypes false tokens = .ok found ∧
      found.map TypeBlock.unplaced =
        types.map TypeBlock.unplaced := by
  induction types generalizing tokens with
  | nil =>
      rcases Token.exists_of_cons hTokens with
        ⟨_, _, _, rfl, _⟩
      exact ⟨[], readTypes_end rfl rfl, rfl⟩
  | cons block others ih =>
      rcases List.forall_mem_cons.mp hEach with
        ⟨hBlock, hOthers⟩
      rw [List.flatMap_cons, List.append_assoc] at hTokens
      have hStops : Stops [.openBlock]
          (others.flatMap TypeBlock.laidOut ++
            [.endOfSource]) := by
        cases others with
        | nil => exact .cons (by decide) _
        | cons next more => exact .cons (by decide) _
      rcases reads_type hBlock hStops tokens hTokens with
        ⟨found, behind, hFound, hSame, hBehind⟩
      rcases ih hOthers hBehind with ⟨more, hMore, hAll⟩
      rcases Token.exists_of_cons hTokens with
        ⟨_, _, _, rfl, _⟩
      exact ⟨found :: more, readTypes_more rfl rfl hFound hMore,
        congrArg₂ (· :: ·) hSame hAll⟩

theorem ofTokens_laidOut
    {declaration : Declaration}
    (hWellFormed : declaration.WellFormed)
    (hTokens :
      tokens.map Token.lexeme =
        .keyword .model :: .newline :: .openBlock ::
          .keyword .schema ::
            .version declaration.schemaVersion :: .newline ::
              .closeBlock ::
                (declaration.types.flatMap TypeBlock.laidOut ++
                  [.endOfSource])) :
    ∃ found, ofTokens tokens = .ok found ∧
      found.unplaced = declaration.unplaced := by
  rcases Token.exists_of_cons hTokens with
    ⟨_, place, _, rfl, hModel⟩
  rcases Token.exists_of_cons hModel with
    ⟨_, _, _, rfl, hHeader⟩
  rcases Token.exists_of_cons hHeader with
    ⟨_, _, _, rfl, hSchema⟩
  rcases Token.exists_of_cons hSchema with
    ⟨_, _, _, rfl, hVersion⟩
  rcases Token.exists_of_version hVersion with
    ⟨_, _, rfl, hLine⟩
  rcases Token.exists_of_cons hLine with
    ⟨_, _, _, rfl, hClose⟩
  rcases Token.exists_of_cons hClose with
    ⟨_, _, behind, rfl, hBehind⟩
  rcases readTypes_laidOut hWellFormed.types hBehind with
    ⟨types, hTypes, hAll⟩
  refine ⟨⟨declaration.schemaVersion, types, place⟩, ?_, ?_⟩
  · simp [ofTokens, skipNewlines, take, nextIs, Lexeme.kind,
      readTypes_header, hTypes]
  · simp only [unplaced, hAll]

/-
  The canonical source of a well-formed declaration is read,
  and as this declaration up to places.
-/
theorem read_render
    {declaration : Declaration}
    (hWellFormed : declaration.WellFormed) :
    (read declaration.render).map unplaced =
      .ok declaration.unplaced := by
  rcases Token.exists_scan_of_laidOut
    (laidOut_lines declaration) hWellFormed.isWritten with
    ⟨tokens, hScan, hTokens⟩
  rcases ofTokens_laidOut hWellFormed hTokens with
    ⟨found, hFound, hSame⟩
  rw [read, render, hScan]
  dsimp only
  rw [hFound, Except.map, hSame]

------------------------------------------------------------
-- An Example
------------------------------------------------------------

namespace Library

def owner : Expression :=
  .direct
    [⟨.any, {}⟩, ⟨.plain (utf8 "user"), {}⟩,
      ⟨.userset (utf8 "group") (utf8 "member"), {}⟩,
      ⟨.wildcard (utf8 "user"), {}⟩]
    {}

def reader : Expression :=
  .union
    [.intersection
      [.computed (utf8 "owner") {},
        .exclusion
          (.tupleToUserset (utf8 "shelf") (utf8 "reader") {})
          (.computed (utf8 "2_late") {}) {}] {},
      .computed (utf8 "owner") {}]
    {}

def declaration : Declaration where
  schemaVersion := utf8 "1.1"
  types :=
    [{ name := utf8 "user", relations := [], location := {} },
      { name := utf8 "book"
        relations :=
          [⟨utf8 "owner", owner, {}⟩, ⟨utf8 "reader", reader, {}⟩]
        location := {} }]
  location := {}

example :
    declaration.render =
      utf8 "model
  schema 1.1
type user
type book
  relations
    define owner: [*, user, group#member, user:*]
    define reader: owner and shelf->reader but not 2_late or owner
" := by
  decide +kernel

theorem declaration_read :
    declaration.WellFormed ∧
      (read declaration.render).map unplaced =
        .ok declaration.unplaced := by
  have hOwner : owner.IsUnion :=
    ⟨by decide, by
      simp [TypeRef.Named]
      decide⟩
  have hReader : reader.IsUnion := by
    simp [reader, Expression.IsUnion, Expression.IsProduct,
      Expression.IsDifference, Expression.IsPrimary]
    decide
  have hWellFormed : declaration.WellFormed := by
    refine ⟨by decide, ?_⟩
    rw [declaration, List.forall_mem_cons,
      List.forall_mem_singleton]
    refine ⟨⟨by decide, List.forall_mem_nil _⟩,
      ⟨by decide, ?_⟩⟩
    rw [List.forall_mem_cons, List.forall_mem_singleton]
    exact ⟨⟨by decide, hOwner⟩, ⟨by decide, hReader⟩⟩
  exact ⟨hWellFormed, read_render hWellFormed⟩

end Library

end Declaration

end Rebac
