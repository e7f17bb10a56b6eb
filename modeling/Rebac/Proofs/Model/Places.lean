import Rebac.Proofs.Language.Places
import Rebac.Proofs.Model.Acceptance

/-
  This file proves that compiling does not depend on places.

  A declaration without places has the schema that it has
  with them, and it has errors if it has them with places.
  So sources with the same tokens up to places are read as
  the same declaration up to places, and are compiled to the
  same schema.

  Key theorems include:
    * `Declaration.errors_unplaced`
    * `Declaration.schema_unplaced`
    * `schema?_of_forgetting`
-/

namespace Rebac

namespace Declaration

------------------------------------------------------------
-- Errors
------------------------------------------------------------

theorem relationNames_unplaced
    (declaration : Declaration)
    (type : Bytes) :
    declaration.unplaced.relationNames type =
      declaration.relationNames type := by
  simp [relationNames, unplaced, List.flatMap_map,
    TypeBlock.unplaced, Relation.unplaced, Function.comp_def]

theorem Expression.resolves_unplaced
    (known : List Bytes)
    (owner : Bytes)
    (expression : Expression) :
    expression.unplaced.Resolves known owner ↔
      expression.Resolves known owner := by
  cases expression <;> simp [Expression.unplaced, Resolves]

theorem Expression.operands_unplaced (expression : Expression) :
    expression.unplaced.operands =
      expression.operands.map Expression.unplaced := by
  cases expression <;>
    simp [Expression.unplaced, operands, unplacedOfAll_eq_map]

theorem Expression.errors_unplaced
    (owner : Owner)
    (known : List Bytes)
    (expression : Expression) :
    expression.unplaced.errors owner known = [] ↔
      expression.errors owner known = [] := by
  induction expression using Expression.induct with
  | combine whole ih =>
      rw [errors_eq_nil, errors_eq_nil, resolves_unplaced,
        operands_unplaced, List.forall_mem_map]
      exact and_congr_right fun _ => forall₂_congr ih

theorem TypeBlock.errors_unplaced
    (declaration : Declaration)
    (block : TypeBlock) :
    block.unplaced.errors declaration.unplaced = [] ↔
      block.errors declaration = [] := by
  rw [TypeBlock.errors, TypeBlock.errors, errors_go_eq_nil_iff,
    errors_go_eq_nil_iff, repeated_eq_nil_iff,
    repeated_eq_nil_iff, relationNames_unplaced]
  simp [TypeBlock.unplaced, Relation.unplaced,
    Function.comp_def, Expression.errors_unplaced]

/- Errors are there with places or without. -/
theorem errors_unplaced (declaration : Declaration) :
    declaration.unplaced.errors = [] ↔
      declaration.errors = [] := by
  have hNames :
      declaration.unplaced.types.map TypeBlock.name =
        declaration.types.map TypeBlock.name := by
    simp [unplaced, TypeBlock.unplaced, Function.comp_def]
  rw [errors_eq_nil_iff_blocks, errors_eq_nil_iff_blocks, hNames]
  refine and_congr_right fun _ => ?_
  simp [unplaced, ← TypeBlock.errors_unplaced declaration]

------------------------------------------------------------
-- Schemas
------------------------------------------------------------

theorem Expression.rule_unplaced (expression : Expression) :
    expression.unplaced.rule = expression.rule := by
  induction expression using Expression.induct with
  | combine whole ih =>
      cases whole with
      | direct entries location =>
          simp [Expression.unplaced, rule, TypeRef.unplaced]
      | computed => rfl
      | tupleToUserset => rfl
      | union operands location =>
          rw [unplaced_union, rule, rule, rulesOfAll_eq_map,
            rulesOfAll_eq_map, List.map_map]
          exact congrArg _ (List.map_congr_left ih)
      | intersection operands location =>
          rw [unplaced_intersection, rule, rule,
            rulesOfAll_eq_map, rulesOfAll_eq_map, List.map_map]
          exact congrArg _ (List.map_congr_left ih)
      | exclusion base subtract location =>
          rw [Expression.unplaced, rule, rule,
            ih base (by simp [operands]),
            ih subtract (by simp [operands])]

theorem Relation.definition_unplaced (relation : Relation) :
    relation.unplaced.definition = relation.definition := by
  rw [Relation.definition, Relation.definition,
    Relation.unplaced, relation.expression.rule_unplaced]

theorem TypeBlock.definition_unplaced (block : TypeBlock) :
    block.unplaced.definition = block.definition := by
  have hRelations :
      block.unplaced.relations.map Relation.definition =
        block.relations.map Relation.definition := by
    rw [TypeBlock.unplaced, List.map_map]
    exact List.map_congr_left fun relation _ =>
      relation.definition_unplaced
  rw [TypeBlock.definition, TypeBlock.definition, hRelations]
  rfl

theorem schema_unplaced (declaration : Declaration) :
    declaration.unplaced.schema = declaration.schema := by
  simp [schema, unplaced, TypeBlock.definition_unplaced,
    Function.comp_def]

end Declaration

------------------------------------------------------------
-- Compilation
------------------------------------------------------------

/- The schema of a source that is read without errors. -/
theorem schema?_of_read
    {source : Bytes}
    {declaration : Declaration}
    (hRead : Declaration.read source = .ok declaration) :
    (compile source).schema? =
      if declaration.errors = [] then
        some declaration.schema
      else
        none := by
  rw [compile, hRead]
  by_cases hErrors : declaration.errors = []
  · simp [hErrors, Compilation.schema?]
  · simp [hErrors, Compilation.schema?]

/- Sources that are read alike are compiled alike. -/
theorem schema?_of_forgetting
    {source other : Bytes}
    (hSame :
      Declaration.forgetting Declaration.unplaced
          (Declaration.read other) =
        Declaration.forgetting Declaration.unplaced
          (Declaration.read source)) :
    (compile other).schema? = (compile source).schema? := by
  cases hOther : Declaration.read other with
  | error first =>
      cases hSource : Declaration.read source with
      | error second =>
          rw [compile, compile, hOther, hSource]
          rfl
      | ok second =>
          rw [hOther, hSource] at hSame
          cases hSame
  | ok first =>
      cases hSource : Declaration.read source with
      | error second =>
          rw [hOther, hSource] at hSame
          cases hSame
      | ok second =>
          rw [hOther, hSource] at hSame
          have hUnplaced : first.unplaced = second.unplaced :=
            Except.ok.inj hSame
          have hErrors : first.errors = [] ↔ second.errors = [] := by
            rw [← first.errors_unplaced, hUnplaced,
              second.errors_unplaced]
          have hSchema : first.schema = second.schema := by
            rw [← first.schema_unplaced, hUnplaced,
              second.schema_unplaced]
          rw [schema?_of_read hOther, schema?_of_read hSource,
            hSchema]
          exact if_congr hErrors rfl rfl

end Rebac
