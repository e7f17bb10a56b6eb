import Mathlib.Data.List.Forall2
import Rebac.Language.Declaration
import Rebac.Proofs.Language.Lexeme

/-
  This file defines which declarations are well-formed and
  which lexemes spell a declaration.

  An operator has two operands at least, and these are no
  weaker operators, so that no brackets are needed. Where a
  declaration can be spelled in several ways, each of them
  is a constructor or a disjunct of its own.

  Key definitions include:
    * `Declaration.Expression.IsPrimary`
    * `Declaration.Expression.IsDifference`
    * `Declaration.Expression.IsProduct`
    * `Declaration.Expression.IsUnion`
    * `Declaration.WellFormed`
    * `Declaration.Expression.Spelled`
    * `Declaration.Spelled`
-/

namespace Rebac

namespace Declaration

------------------------------------------------------------
-- Shapes
------------------------------------------------------------

/- Whether the words of an entry are identifiers. -/
def TypeRef.Named (entry : TypeRef) : Prop :=
  match entry.spec with
  | .any => True
  | .plain type => Lexeme.IsIdentifier type
  | .userset type relation =>
      Lexeme.IsIdentifier type ∧ Lexeme.IsIdentifier relation
  | .wildcard type => Lexeme.IsIdentifier type

namespace Expression

/- A direct list with an entry, or a relation. -/
def IsPrimary : Expression → Prop
  | .direct entries _ =>
      entries ≠ [] ∧ ∀ entry ∈ entries, entry.Named
  | .computed relation _ => Lexeme.IsIdentifier relation
  | .tupleToUserset tupleset relation _ =>
      Lexeme.IsIdentifier tupleset ∧
        Lexeme.IsIdentifier relation
  | _ => False

/- A primary, or one less another. -/
def IsDifference : Expression → Prop
  | .exclusion base subtract _ =>
      base.IsPrimary ∧ subtract.IsPrimary
  | expression => expression.IsPrimary

/- A difference, or several between `and`s. -/
def IsProduct : Expression → Prop
  | .intersection operands _ =>
      2 ≤ operands.length ∧
        ∀ operand ∈ operands, operand.IsDifference
  | expression => expression.IsDifference

/- A product, or several between `or`s. -/
def IsUnion : Expression → Prop
  | .union operands _ =>
      2 ≤ operands.length ∧
        ∀ operand ∈ operands, operand.IsProduct
  | expression => expression.IsProduct

variable {expression : Expression}

theorem IsPrimary.isDifference
    (hPrimary : expression.IsPrimary) :
    expression.IsDifference := by
  cases expression <;> first | exact hPrimary | cases hPrimary

theorem IsDifference.isProduct
    (hDifference : expression.IsDifference) :
    expression.IsProduct := by
  cases expression <;>
    first | exact hDifference | cases hDifference

theorem IsProduct.isUnion
    (hProduct : expression.IsProduct) :
    expression.IsUnion := by
  cases expression <;> first | exact hProduct | cases hProduct

end Expression

/- A relation with a name and a union. -/
structure Relation.WellFormed (relation : Relation) : Prop where
  name : Lexeme.IsIdentifier relation.name
  expression : relation.expression.IsUnion

/- A type with a name and well-formed relations. -/
structure TypeBlock.WellFormed (block : TypeBlock) : Prop where
  name : Lexeme.IsIdentifier block.name
  relations : ∀ relation ∈ block.relations, relation.WellFormed

/- A model with a version and well-formed types. -/
structure WellFormed (declaration : Declaration) : Prop where
  version : Lexeme.IsVersion declaration.schemaVersion
  types : ∀ block ∈ declaration.types, block.WellFormed

------------------------------------------------------------
-- Spellings
------------------------------------------------------------

/- The lexemes of an entry of a direct list. -/
def TypeRef.lexemes (entry : TypeRef) : List Lexeme :=
  match entry.spec with
  | .any => [.mark .star]
  | .plain type => [.identifier type]
  | .userset type relation =>
      [.identifier type, .mark .hash, .identifier relation]
  | .wildcard type =>
      [.identifier type, .mark .colon, .mark .star]

/-
  Whether some lexemes spell an expression. A relation on
  another object has two spellings, and no other expression
  has more than its parts have.
-/
inductive Expression.Spelled :
    Expression → List Lexeme → Prop where
  | direct (entries : List TypeRef) (location : Location) :
      Spelled (.direct entries location)
        (.mark .openBracket ::
          ([.mark .comma].intercalate
            (entries.map TypeRef.lexemes) ++
              [.mark .closeBracket]))
  | computed (relation : Bytes) (location : Location) :
      Spelled (.computed relation location)
        [.identifier relation]
  | arrow (tupleset relation : Bytes) (location : Location) :
      Spelled (.tupleToUserset tupleset relation location)
        [.identifier tupleset, .mark .arrow,
          .identifier relation]
  | via (tupleset relation : Bytes) (location : Location) :
      Spelled (.tupleToUserset tupleset relation location)
        [.identifier relation, .keyword .via,
          .identifier tupleset]
  | union
      {operands : List Expression}
      {pieces : List (List Lexeme)}
      (location : Location) :
      List.Forall₂ Spelled operands pieces →
        Spelled (.union operands location)
          ([.keyword .or].intercalate pieces)
  | intersection
      {operands : List Expression}
      {pieces : List (List Lexeme)}
      (location : Location) :
      List.Forall₂ Spelled operands pieces →
        Spelled (.intersection operands location)
          ([.keyword .and].intercalate pieces)
  | exclusion
      {base subtract : Expression}
      {first second : List Lexeme}
      (location : Location) :
      Spelled base first → Spelled subtract second →
        Spelled (.exclusion base subtract location)
          (first ++ .keyword .but :: .keyword .not :: second)

/- Each piece behind the first has the sign before it. -/
theorem intercalate_cons
    (sign : Lexeme)
    (piece : List Lexeme)
    (pieces : List (List Lexeme)) :
    [sign].intercalate (piece :: pieces) =
      piece ++ pieces.flatMap (sign :: ·) := by
  induction pieces generalizing piece with
  | nil =>
      rw [List.intercalate_singleton, List.flatMap_nil,
        List.append_nil]
  | cons next others ih =>
      rw [List.intercalate_cons_cons, ih, List.flatMap_cons,
        List.append_assoc]
      rfl

/- Whether some lexemes spell a relation. -/
def Relation.Spelled
    (relation : Relation)
    (lexemes : List Lexeme) : Prop :=
  ∃ body, relation.expression.Spelled body ∧
    lexemes =
      .keyword .define :: .identifier relation.name ::
        .mark .colon :: body

/-
  Whether some lexemes spell a type. The word `relations`
  stands before its relations, and may stand there if there
  are none.
-/
def TypeBlock.Spelled
    (block : TypeBlock)
    (lexemes : List Lexeme) : Prop :=
  (block.relations = [] ∧
    lexemes = [.keyword .type, .identifier block.name]) ∨
  ∃ pieces,
    List.Forall₂ Relation.Spelled block.relations pieces ∧
      lexemes =
        .keyword .type :: .identifier block.name ::
          .keyword .relations :: pieces.flatten

/- Whether some lexemes spell a model. -/
def Spelled
    (declaration : Declaration)
    (lexemes : List Lexeme) : Prop :=
  ∃ pieces,
    List.Forall₂ TypeBlock.Spelled declaration.types pieces ∧
      lexemes =
        .keyword .model :: .keyword .schema ::
          .version declaration.schemaVersion :: pieces.flatten

end Declaration

end Rebac
