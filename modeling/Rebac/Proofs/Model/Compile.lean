import Rebac.Model.Compile
import Rebac.Proofs.Language.Read
import Rebac.Proofs.Model.Schema

/-
  This file proves what a source is compiled to, if its types
  and relations are in order already, and that whatever it is
  compiled to is well-formed.

  Key definitions include:
    * `Schema.Ordered`
    * `Declaration.outline`
    * `Schema.WellFormed`

  Key theorems include:
    * `Declaration.schema_eq_outline`
    * `schema?_of_outline`
    * `wellFormed_of_compile`
-/

namespace Rebac

/- The types are in order, and so are the relations of each. -/
structure Schema.Ordered (schema : Schema) : Prop where
  types : schema.types.Pairwise fun first second =>
    first.name ≤ second.name
  relations : ∀ type ∈ schema.types,
    type.relations.Pairwise fun first second =>
      first.name ≤ second.name

namespace Declaration

/- The schema of a source, in the order of the source. -/
def outline (declaration : Declaration) : Schema :=
  { version := declaration.schemaVersion
    types := declaration.types.map fun block =>
      { name := block.name
        relations := block.relations.map Relation.definition } }

/- What is in order already keeps its place. -/
theorem schema_eq_outline
    {declaration : Declaration}
    (hOrdered : declaration.outline.Ordered) :
    declaration.schema = declaration.outline := by
  have hBlocks :
      declaration.types.map TypeBlock.definition =
        declaration.outline.types := by
    refine List.map_congr_left fun block hBlock => ?_
    have hRelations :=
      hOrdered.relations _ (List.mem_map_of_mem hBlock)
    rw [TypeBlock.definition, List.mergeSort_of_pairwise]
    simpa using hRelations
  rw [schema, hBlocks, List.mergeSort_of_pairwise]
  · rfl
  · simpa using hOrdered.types

end Declaration

/- A source without errors is compiled to its outline. -/
theorem schema?_of_outline
    {source : Bytes}
    {schema : Schema}
    (hRead :
      (Declaration.read source).toOption.map
          (fun declaration =>
            (declaration.errors, declaration.outline)) =
        some ([], schema))
    (hOrdered : schema.Ordered) :
    (compile source).schema? = some schema := by
  rcases Option.map_eq_some_iff.mp hRead with
    ⟨declaration, hDeclaration, hOutline⟩
  rcases Prod.mk.inj hOutline with ⟨hErrors, rfl⟩
  have hSource :
      Declaration.read source = .ok declaration := by
    cases hResult : Declaration.read source with
    | error error =>
        rw [hResult] at hDeclaration
        cases hDeclaration
    | ok found =>
        rw [hResult] at hDeclaration
        cases hDeclaration
        rfl
  rw [compile, hSource]
  dsimp only
  rw [if_pos hErrors, Compilation.schema?,
    Declaration.schema_eq_outline hOrdered]

------------------------------------------------------------
-- Well-Formed Schemas
------------------------------------------------------------

/- The types and relations have names, and the rules are proper. -/
structure Schema.WellFormed (schema : Schema) : Prop where
  names : ∀ type ∈ schema.types, Bytes.IsName type.name
  rules : ∀ type ∈ schema.types,
    ∀ definition ∈ type.relations,
      Bytes.IsName definition.name ∧ definition.rule.Proper

/- What is found in a well-formed schema has a proper rule. -/
theorem Schema.WellFormed.proper
    {schema : Schema}
    {type relation : Bytes}
    {definition : RelationDefinition}
    (hWellFormed : schema.WellFormed)
    (hFind : schema.find? type relation = some definition) :
    definition.rule.Proper := by
  rcases (Schema.mem_of_find? hFind).2 with
    ⟨found, hFound, hDefinition⟩
  exact (hWellFormed.rules found hFound definition hDefinition).2

/- A type that has a relation has a name. -/
theorem Schema.WellFormed.isName
    {schema : Schema}
    {type relation : Bytes}
    {definition : RelationDefinition}
    (hWellFormed : schema.WellFormed)
    (hFind : schema.find? type relation = some definition) :
    Bytes.IsName type := by
  rcases Option.bind_eq_some_iff.mp hFind with
    ⟨found, hType, _⟩
  have hSame : found.name = type := by
    simpa using List.find?_some hType
  rw [← hSame]
  exact hWellFormed.names found
    (List.mem_of_find?_eq_some hType)

namespace Declaration

theorem rulesOfAll_eq_map (operands : List Expression) :
    rulesOfAll operands = operands.map Expression.rule := by
  induction operands with
  | nil => rfl
  | cons operand others ih => rw [rulesOfAll, ih, List.map_cons]

namespace Expression

variable {expression : Expression}

theorem IsPrimary.proper
    (hPrimary : expression.IsPrimary) :
    expression.rule.Proper := by
  cases expression with
  | direct entries location =>
      simp [Rule.Proper, rule, Rule.parts]
  | computed relation location =>
      simp [Rule.Proper, rule, Rule.parts]
  | tupleToUserset tupleset relation location =>
      simp [Rule.Proper, rule, Rule.parts]
  | _ => cases hPrimary

theorem IsDifference.proper
    (hDifference : expression.IsDifference) :
    expression.rule.Proper := by
  cases expression with
  | exclusion base subtract location =>
      rw [rule]
      refine Rule.proper_of_children Rule.noConfusion ?_
      exact List.forall_mem_cons.mpr
        ⟨hDifference.1.proper,
          List.forall_mem_singleton.mpr hDifference.2.proper⟩
  | _ => exact IsPrimary.proper hDifference

theorem IsProduct.proper
    (hProduct : expression.IsProduct) :
    expression.rule.Proper := by
  cases expression with
  | intersection operands location =>
      rcases hProduct with ⟨hTwo, hEach⟩
      rw [rule, rulesOfAll_eq_map]
      refine Rule.proper_of_children ?_ ?_
      · rw [Ne, Rule.intersection.injEq, List.map_eq_nil_iff]
        rintro rfl
        exact absurd hTwo (by decide)
      · intro child hChild
        rcases List.mem_map.mp hChild with
          ⟨operand, hOperand, rfl⟩
        exact (hEach operand hOperand).proper
  | _ => exact IsDifference.proper hProduct

theorem IsUnion.proper
    (hUnion : expression.IsUnion) :
    expression.rule.Proper := by
  cases expression with
  | union operands location =>
      rw [rule, rulesOfAll_eq_map]
      refine Rule.proper_of_children Rule.noConfusion ?_
      intro child hChild
      rcases List.mem_map.mp hChild with
        ⟨operand, hOperand, rfl⟩
      exact (hUnion.2 operand hOperand).proper
  | _ => exact IsProduct.proper hUnion

end Expression

theorem WellFormed.schema
    {declaration : Declaration}
    (hWellFormed : declaration.WellFormed) :
    declaration.schema.WellFormed := by
  have hBlocks : ∀ type ∈ declaration.schema.types,
      ∃ block ∈ declaration.types, block.definition = type := by
    intro type hType
    rw [Declaration.schema, List.mem_mergeSort] at hType
    exact List.mem_map.mp hType
  constructor
  · intro type hType
    rcases hBlocks type hType with ⟨block, hBlock, rfl⟩
    exact (hWellFormed.types block hBlock).name.1
  · intro type hType definition hDefinition
    rcases hBlocks type hType with ⟨block, hBlock, rfl⟩
    rw [TypeBlock.definition, List.mem_mergeSort] at hDefinition
    rcases List.mem_map.mp hDefinition with
      ⟨relation, hRelation, rfl⟩
    have hRead :=
      (hWellFormed.types block hBlock).relations relation
        hRelation
    exact ⟨hRead.name.1, hRead.expression.proper⟩

end Declaration

/- A schema that a source is compiled to is well-formed. -/
theorem wellFormed_of_compile
    {source : Bytes}
    {schema : Schema}
    (hCompiled : (compile source).schema? = some schema) :
    schema.WellFormed := by
  unfold compile at hCompiled
  split at hCompiled
  · cases hCompiled
  · next declaration hRead =>
      split at hCompiled
      · cases hCompiled
        exact (Declaration.wellFormed_of_read hRead).schema
      · cases hCompiled

end Rebac
