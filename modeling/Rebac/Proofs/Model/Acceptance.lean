import Mathlib.Data.List.Forall2
import Mathlib.Data.List.Nodup
import Rebac.Proofs.Language.Expression
import Rebac.Proofs.Model.Compile

/-
  This file proves which sources are compiled, and what they
  are compiled to.

  Key definitions include:
    * `Declaration.Compilable`
    * `Declaration.Expression.Translates`
    * `Schema.Describes`

  Key theorems include:
    * `Declaration.errors_eq_nil_iff`
    * `Declaration.Expression.translates_rule`
    * `Declaration.Compilable.describes`
    * `compiles_iff`
-/

namespace Rebac

namespace Declaration

------------------------------------------------------------
-- Expressions
------------------------------------------------------------

/-
  Whether an expression, apart from its operands, refers to
  relations that there are. A computed relation has to be
  another one than the relation that is defined.
-/
def Expression.Resolves
    (known : List Bytes)
    (owner : Bytes) : Expression → Prop
  | .computed relation _ => relation ∈ known ∧ relation ≠ owner
  | .tupleToUserset tupleset _ _ => tupleset ∈ known
  | _ => True

theorem errorsOfAll_eq_flatMap
    (owner : Owner)
    (known : List Bytes)
    (operands : List Expression) :
    errorsOfAll owner known operands =
      operands.flatMap (Expression.errors owner known) := by
  induction operands with
  | nil => rfl
  | cons operand others ih =>
      rw [errorsOfAll, ih, List.flatMap_cons]

/- The errors of an expression are its own and those of its operands. -/
theorem Expression.errors_eq_nil
    {owner : Owner}
    {known : List Bytes}
    {expression : Expression} :
    expression.errors owner known = [] ↔
      expression.Resolves known owner.relation ∧
        ∀ operand ∈ expression.operands,
          operand.errors owner known = [] := by
  cases expression with
  | computed relation location =>
      simp [errors, Resolves, operands]
  | _ =>
      simp [errors, Resolves, operands, errorsOfAll_eq_flatMap]

theorem Expression.errors_eq_nil_iff
    {owner : Owner}
    {known : List Bytes}
    (expression : Expression) :
    expression.errors owner known = [] ↔
      ∀ part : Expression, part.Within expression →
        part.Resolves known owner.relation := by
  induction expression using Expression.induct with
  | combine whole ih =>
      rw [errors_eq_nil, forall_within_iff]
      exact and_congr_right fun _ => forall₂_congr ih

------------------------------------------------------------
-- Names
------------------------------------------------------------

/- A key is reported if it occurred before. -/
theorem repeated_eq_nil_iff
    {Part : Type}
    {key : Part → Bytes}
    {seen : List Bytes}
    {parts : List Part} :
    repeated key seen parts = [] ↔
      (parts.map key).Nodup ∧ ∀ part ∈ parts, key part ∉ seen := by
  induction parts generalizing seen with
  | nil => simp [repeated]
  | cons part others ih =>
      rw [repeated]
      split
      · next hSeen => simp [hSeen]
      · next hFresh =>
          rw [ih, List.map_cons, List.nodup_cons,
            List.forall_mem_cons]
          simp only [List.mem_cons, not_or, List.mem_map,
            not_exists, not_and, hFresh, not_false_eq_true,
            true_and]
          constructor
          · rintro ⟨hNodup, hOthers⟩
            exact ⟨⟨fun other hOther => (hOthers other hOther).1,
              hNodup⟩, fun other hOther => (hOthers other hOther).2⟩
          · rintro ⟨⟨hNew, hNodup⟩, hOthers⟩
            exact ⟨hNodup, fun other hOther =>
              ⟨hNew other hOther, hOthers other hOther⟩⟩

/- A type that is declared once has only relations of its own. -/
theorem mem_relationNames_iff
    {declaration : Declaration}
    {block : TypeBlock}
    {relation : Bytes}
    (hTypes : (declaration.types.map TypeBlock.name).Nodup)
    (hBlock : block ∈ declaration.types) :
    relation ∈ declaration.relationNames block.name ↔
      relation ∈ block.relations.map Relation.name := by
  rw [relationNames, List.mem_flatMap]
  constructor
  · rintro ⟨other, hOther, hRelation⟩
    split at hRelation
    · next hSame =>
        have hOnce :=
          List.inj_on_of_nodup_map hTypes hOther hBlock hSame
        rwa [hOnce] at hRelation
    · cases hRelation
  · intro hRelation
    exact ⟨block, hBlock, by rwa [if_pos rfl]⟩

------------------------------------------------------------
-- Sources
------------------------------------------------------------

/-
  What a source has to be like to be compiled. No name is
  declared twice, and what an expression refers to on its
  own object is a relation of its own type.
-/
structure Compilable (declaration : Declaration) : Prop where
  types : (declaration.types.map TypeBlock.name).Nodup
  relations : ∀ block ∈ declaration.types,
    (block.relations.map Relation.name).Nodup
  computed : ∀ block ∈ declaration.types,
    ∀ relation ∈ block.relations, ∀ name location,
      (Expression.computed name location).Within
          relation.expression →
        name ∈ block.relations.map Relation.name ∧
          name ≠ relation.name
  tuplesets : ∀ block ∈ declaration.types,
    ∀ relation ∈ block.relations, ∀ tupleset name location,
      (Expression.tupleToUserset tupleset name location).Within
          relation.expression →
        tupleset ∈ block.relations.map Relation.name

/- The errors of some relations of a type. -/
theorem TypeBlock.errors_go_eq_nil_iff
    {block : TypeBlock}
    {known seen : List Bytes}
    {relations : List Relation} :
    TypeBlock.errors.go block known seen relations = [] ↔
      repeated Relation.name seen relations = [] ∧
        ∀ relation ∈ relations,
          relation.expression.errors ⟨block.name, relation.name⟩
            known = [] := by
  induction relations generalizing seen with
  | nil => simp [TypeBlock.errors.go, repeated]
  | cons relation others ih =>
      rw [TypeBlock.errors.go, repeated]
      split
      · simp
      · simp [ih, and_left_comm]

theorem TypeBlock.errors_eq_nil_iff
    {declaration : Declaration}
    {block : TypeBlock} :
    block.errors declaration = [] ↔
      (block.relations.map Relation.name).Nodup ∧
        ∀ relation ∈ block.relations, ∀ part : Expression,
          part.Within relation.expression →
            part.Resolves (declaration.relationNames block.name)
              relation.name := by
  rw [TypeBlock.errors, errors_go_eq_nil_iff,
    repeated_eq_nil_iff]
  simp [Expression.errors_eq_nil_iff]

/- The errors of a source are repeated types and those of each. -/
theorem errors_eq_nil_iff_blocks
    {declaration : Declaration} :
    declaration.errors = [] ↔
      (declaration.types.map TypeBlock.name).Nodup ∧
        ∀ block ∈ declaration.types,
          block.errors declaration = [] := by
  rw [errors, List.append_eq_nil_iff, List.map_eq_nil_iff,
    repeated_eq_nil_iff, List.flatMap_eq_nil_iff]
  simp

theorem errors_eq_nil_iff
    {declaration : Declaration} :
    declaration.errors = [] ↔ declaration.Compilable := by
  rw [errors_eq_nil_iff_blocks]
  simp only [TypeBlock.errors_eq_nil_iff]
  constructor
  · rintro ⟨hTypes, hBlocks⟩
    refine ⟨hTypes, fun block hBlock => (hBlocks block hBlock).1,
      ?_, ?_⟩
    · intro block hBlock relation hRelation name location hPart
      have hResolves :=
        (hBlocks block hBlock).2 relation hRelation _ hPart
      rwa [← mem_relationNames_iff hTypes hBlock]
    · intro block hBlock relation hRelation tupleset name
        location hPart
      have hResolves :=
        (hBlocks block hBlock).2 relation hRelation _ hPart
      rwa [← mem_relationNames_iff hTypes hBlock]
  · intro hCompilable
    refine ⟨hCompilable.types, fun block hBlock =>
      ⟨hCompilable.relations block hBlock, ?_⟩⟩
    intro relation hRelation part hPart
    cases part with
    | computed name location =>
        have hName := hCompilable.computed block hBlock relation
          hRelation name location hPart
        rwa [← mem_relationNames_iff hCompilable.types hBlock]
          at hName
    | tupleToUserset tupleset name location =>
        have hTupleset := hCompilable.tuplesets block hBlock
          relation hRelation tupleset name location hPart
        rwa [← mem_relationNames_iff hCompilable.types hBlock]
          at hTupleset
    | _ => trivial

------------------------------------------------------------
-- Rules
------------------------------------------------------------

/-
  A rule translates an expression node by node: it has the
  same form, the same names and entries, and translates the
  operands in their order.
-/
inductive Expression.Translates : Expression → Rule → Prop where
  | direct
      (entries : List TypeRef)
      (location : Location) :
      Translates (.direct entries location)
        (.direct (entries.map TypeRef.spec))
  | computed
      (relation : Bytes)
      (location : Location) :
      Translates (.computed relation location)
        (.computed relation)
  | tupleToUserset
      (tupleset computed : Bytes)
      (location : Location) :
      Translates (.tupleToUserset tupleset computed location)
        (.tupleToUserset tupleset computed)
  | union
      {operands : List Expression}
      {children : List Rule}
      (location : Location) :
      List.Forall₂ Translates operands children →
        Translates (.union operands location) (.union children)
  | intersection
      {operands : List Expression}
      {children : List Rule}
      (location : Location) :
      List.Forall₂ Translates operands children →
        Translates (.intersection operands location)
          (.intersection children)
  | exclusion
      {base subtract : Expression}
      {first second : Rule}
      (location : Location) :
      Translates base first → Translates subtract second →
        Translates (.exclusion base subtract location)
          (.exclusion first second)

/- An expression is translated to its rule. -/
theorem Expression.translates_rule (expression : Expression) :
    expression.Translates expression.rule := by
  induction expression using Expression.induct with
  | combine whole ih =>
      have hOperands :
          List.Forall₂ Translates whole.operands
            (rulesOfAll whole.operands) := by
        rw [rulesOfAll_eq_map, List.forall₂_map_right_iff,
          List.forall₂_same]
        exact ih
      cases whole with
      | direct entries location => exact .direct entries location
      | computed relation location =>
          exact .computed relation location
      | tupleToUserset tupleset relation location =>
          exact .tupleToUserset tupleset relation location
      | union operands location => exact .union location hOperands
      | intersection operands location =>
          exact .intersection location hOperands
      | exclusion base subtract location =>
          exact .exclusion location
            (ih base List.mem_cons_self)
            (ih subtract (by simp [operands]))

/- It is translated to no other rule. -/
theorem Expression.Translates.eq_rule
    {expression : Expression}
    {rule : Rule}
    (hTranslates : expression.Translates rule) :
    rule = expression.rule := by
  induction expression using Expression.induct
    generalizing rule with
  | combine whole ih =>
      have hOperands : ∀ {children : List Rule},
          List.Forall₂ Translates whole.operands children →
            children = rulesOfAll whole.operands := by
        intro children hChildren
        have hEach := (List.forall₂_and_left _ _).mpr
          ⟨ih, hChildren⟩
        have hSame :
            List.Forall₂ Eq (whole.operands.map Expression.rule)
              children := by
          rw [List.forall₂_map_left_iff]
          exact hEach.imp fun operand child hChild =>
            (hChild.1 hChild.2).symm
        rw [List.forall₂_eq_eq_eq] at hSame
        rw [rulesOfAll_eq_map, hSame]
      cases hTranslates with
      | direct entries location => rfl
      | computed relation location => rfl
      | tupleToUserset tupleset computed location => rfl
      | union location hAll =>
          rw [Expression.rule, hOperands hAll, operands]
      | intersection location hAll =>
          rw [Expression.rule, hOperands hAll, operands]
      | exclusion location hBase hSubtract =>
          rw [Expression.rule, ih _ List.mem_cons_self hBase,
            ih _ (by simp [operands]) hSubtract]

end Declaration

------------------------------------------------------------
-- Schemas
------------------------------------------------------------

/-
  Whether a definition is that of a declared relation. The
  users that may be assigned are known exactly if all of the
  expression is a direct list.
-/
structure RelationDefinition.Defines
    (definition : RelationDefinition)
    (relation : Declaration.Relation) : Prop where
  name : definition.name = relation.name
  rule : relation.expression.Translates definition.rule
  assignable : ∀ allowed,
    definition.assignable? = some allowed ↔
      ∃ entries location,
        relation.expression = .direct entries location ∧
          allowed = entries.map Declaration.TypeRef.spec

/-
  Whether a schema has exactly the types and the relations
  that are declared, and finds their definitions.
-/
structure Schema.Describes
    (schema : Schema)
    (declaration : Declaration) : Prop where
  version : schema.version = declaration.schemaVersion
  types : (schema.types.map TypeDefinition.name).Perm
    (declaration.types.map Declaration.TypeBlock.name)
  relations : ∀ block ∈ declaration.types,
    ∃ type, schema.findType? block.name = some type ∧
      (type.relations.map RelationDefinition.name).Perm
        (block.relations.map Declaration.Relation.name)
  finds : ∀ type name definition,
    schema.find? type name = some definition ↔
      ∃ block ∈ declaration.types, block.name = type ∧
        ∃ relation ∈ block.relations, relation.name = name ∧
          definition.Defines relation

/- With distinct keys, a lookup finds the part with its key. -/
theorem find?_key_eq_some_iff
    {Part : Type}
    {key : Part → Bytes}
    {parts : List Part}
    {wanted : Bytes}
    {part : Part}
    (hDistinct : (parts.map key).Nodup) :
    parts.find? (fun candidate => key candidate = wanted) =
        some part ↔
      part ∈ parts ∧ key part = wanted := by
  constructor
  · intro hFind
    exact ⟨List.mem_of_find?_eq_some hFind,
      by simpa using List.find?_some hFind⟩
  · rintro ⟨hPart, rfl⟩
    cases hFind :
        parts.find? fun candidate => key candidate = key part with
    | none =>
        have hNone := List.find?_eq_none.mp hFind part hPart
        simp at hNone
    | some other =>
        have hSame : key other = key part := by
          simpa using List.find?_some hFind
        rw [List.inj_on_of_nodup_map hDistinct
          (List.mem_of_find?_eq_some hFind) hPart hSame]

namespace Declaration

theorem Relation.defines_definition (relation : Relation) :
    relation.definition.Defines relation where
  name := rfl
  rule := relation.expression.translates_rule
  assignable := by
    intro allowed
    rw [RelationDefinition.assignable?, Relation.definition]
    cases relation.expression with
    | direct entries location =>
        simp [Expression.rule, eq_comm]
    | _ => simp [Expression.rule]

theorem Relation.defines_iff
    {relation : Relation}
    {definition : RelationDefinition} :
    definition.Defines relation ↔
      definition = relation.definition := by
  constructor
  · intro hDefines
    rcases definition with ⟨name, rule⟩
    have hName : name = relation.name := hDefines.name
    have hRule : rule = relation.expression.rule :=
      hDefines.rule.eq_rule
    rw [hName, hRule, Relation.definition]
  · rintro rfl
    exact relation.defines_definition

/- The definitions of a type keep the names of its relations. -/
theorem TypeBlock.names_definition (block : TypeBlock) :
    (block.definition.relations.map
        RelationDefinition.name).Perm
      (block.relations.map Relation.name) := by
  have hPerm := (List.mergeSort_perm
    (block.relations.map Relation.definition)
    fun first second => first.name ≤ second.name).map
      RelationDefinition.name
  rwa [List.map_map] at hPerm

theorem names_schema (declaration : Declaration) :
    (declaration.schema.types.map TypeDefinition.name).Perm
      (declaration.types.map TypeBlock.name) := by
  have hPerm := (List.mergeSort_perm
    (declaration.types.map TypeBlock.definition)
    fun first second => first.name ≤ second.name).map
      TypeDefinition.name
  rwa [List.map_map] at hPerm

/- A type is found if and only if it is declared. -/
theorem findType?_schema_iff
    {declaration : Declaration}
    {name : Bytes}
    {type : TypeDefinition}
    (hTypes : (declaration.types.map TypeBlock.name).Nodup) :
    declaration.schema.findType? name = some type ↔
      ∃ block ∈ declaration.types, block.name = name ∧
        block.definition = type := by
  have hDistinct :=
    declaration.names_schema.nodup_iff.mpr hTypes
  rw [Schema.findType?, find?_key_eq_some_iff hDistinct,
    schema, List.mem_mergeSort, List.mem_map]
  constructor
  · rintro ⟨⟨block, hBlock, rfl⟩, rfl⟩
    exact ⟨block, hBlock, rfl, rfl⟩
  · rintro ⟨block, hBlock, rfl, rfl⟩
    exact ⟨⟨block, hBlock, rfl⟩, rfl⟩

/- A relation is found if and only if it is declared. -/
theorem find?_definition_iff
    {block : TypeBlock}
    {name : Bytes}
    {definition : RelationDefinition}
    (hRelations : (block.relations.map Relation.name).Nodup) :
    block.definition.find? name = some definition ↔
      ∃ relation ∈ block.relations, relation.name = name ∧
        definition.Defines relation := by
  have hDistinct :=
    block.names_definition.nodup_iff.mpr hRelations
  rw [TypeDefinition.find?, find?_key_eq_some_iff hDistinct,
    TypeBlock.definition, List.mem_mergeSort, List.mem_map]
  simp only [Relation.defines_iff]
  constructor
  · rintro ⟨⟨relation, hRelation, rfl⟩, rfl⟩
    exact ⟨relation, hRelation, rfl, rfl⟩
  · rintro ⟨relation, hRelation, rfl, rfl⟩
    exact ⟨⟨relation, hRelation, rfl⟩, rfl⟩

theorem Compilable.describes
    {declaration : Declaration}
    (hCompilable : declaration.Compilable) :
    declaration.schema.Describes declaration := by
  refine ⟨rfl, declaration.names_schema, ?_, ?_⟩
  · intro block hBlock
    exact ⟨block.definition,
      (findType?_schema_iff hCompilable.types).mpr
        ⟨block, hBlock, rfl, rfl⟩,
      block.names_definition⟩
  · intro type name definition
    rw [Schema.find?, Option.bind_eq_some_iff]
    constructor
    · rintro ⟨found, hType, hFind⟩
      rcases (findType?_schema_iff hCompilable.types).mp hType
        with ⟨block, hBlock, hName, rfl⟩
      exact ⟨block, hBlock, hName,
        (find?_definition_iff
          (hCompilable.relations block hBlock)).mp hFind⟩
    · rintro ⟨block, hBlock, hName, hDefined⟩
      exact ⟨block.definition,
        (findType?_schema_iff hCompilable.types).mpr
          ⟨block, hBlock, hName, rfl⟩,
        (find?_definition_iff
          (hCompilable.relations block hBlock)).mpr hDefined⟩

end Declaration

------------------------------------------------------------
-- Compilation
------------------------------------------------------------

/-
  A source that can be read is compiled if and only if no
  name is declared twice and all references on the same
  object are to other relations of the same type. What it is
  compiled to has exactly the types and relations declared.
-/
theorem compiles_iff
    {source : Bytes}
    {declaration : Declaration}
    (hRead : Declaration.read source = .ok declaration) :
    ((compile source).succeeded = true ↔
      declaration.Compilable) ∧
    ∀ schema, (compile source).schema? = some schema →
      schema.Describes declaration := by
  by_cases hErrors : declaration.errors = []
  · have hCompiled :
        compile source =
          .accepted declaration.schema declaration.warnings := by
      rw [compile, hRead]
      exact if_pos hErrors
    have hCompilable := Declaration.errors_eq_nil_iff.mp hErrors
    rw [hCompiled]
    refine ⟨iff_of_true rfl hCompilable, ?_⟩
    intro schema hSchema
    cases hSchema
    exact hCompilable.describes
  · have hRejected :
        compile source =
          .rejected declaration.errors declaration.warnings := by
      rw [compile, hRead]
      exact if_neg hErrors
    have hNot : ¬ declaration.Compilable :=
      mt Declaration.errors_eq_nil_iff.mpr hErrors
    rw [hRejected]
    refine ⟨iff_of_false Bool.false_ne_true hNot, ?_⟩
    intro schema hSchema
    cases hSchema

------------------------------------------------------------
-- An Example
------------------------------------------------------------

namespace Notes

/- Relations may be used before they are defined. -/
def source : Bytes :=
  utf8 "model
  schema 1.1
type note
  relations
    define viewer: [user] or editor but not banned or viewer from folder
    define editor: [user]
    define banned: [user:*, user]
    define folder: [note]
type user
"

theorem source_described :
    ∃ declaration, Declaration.read source = .ok declaration ∧
      declaration.Compilable ∧
        ∃ schema, (compile source).schema? = some schema ∧
          schema.Describes declaration := by
  have hSucceeded : (compile source).succeeded = true := by
    decide +kernel
  rcases Option.isSome_iff_exists.mp hSucceeded with
    ⟨schema, hSchema⟩
  cases hRead : Declaration.read source with
  | error error =>
      rw [compile, hRead] at hSucceeded
      cases hSucceeded
  | ok declaration =>
      rcases compiles_iff hRead with ⟨hIff, hDescribes⟩
      exact ⟨declaration, rfl, hIff.mp hSucceeded, schema,
        hSchema, hDescribes schema hSchema⟩

end Notes

end Rebac
