import Rebac.Language.Read
import Rebac.Model.Cycle
import Rebac.Model.Diagnostic
import Rebac.Model.Schema

/-
  This file defines the compilation of a model source into a
  schema, with the errors that forbid it and the warnings
  that do not.

  Names may be used before they are defined, so the names of
  the whole source are known to every check. Errors are
  listed in this order: repeated types, then for each type
  its relations one by one.

  Key definitions include:
    * `Compilation`
    * `Declaration.Expression.errors`
    * `Declaration.Expression.warnings`
    * `Declaration.errors`
    * `Declaration.warnings`
    * `Declaration.schema`
    * `compile`
-/

namespace Rebac

------------------------------------------------------------
-- Results
------------------------------------------------------------

/- A compilation succeeds exactly when there are no errors. -/
inductive Compilation where
  | accepted (schema : Schema) (warnings : List Diagnostic)
  | rejected (errors warnings : List Diagnostic)
  deriving Repr

namespace Compilation

/- The schema of a compilation that succeeded. -/
def schema? : Compilation → Option Schema
  | .accepted schema _ => some schema
  | .rejected _ _ => none

/- The errors of a compilation. -/
def errors : Compilation → List Diagnostic
  | .accepted _ _ => []
  | .rejected errors _ => errors

/- The warnings of a compilation. -/
def warnings : Compilation → List Diagnostic
  | .accepted _ warnings => warnings
  | .rejected _ warnings => warnings

/- Whether a compilation succeeded. -/
def succeeded (compilation : Compilation) : Bool :=
  compilation.schema?.isSome

end Compilation

namespace Declaration

------------------------------------------------------------
-- Names
------------------------------------------------------------

/- Types that may be referred to without being defined. -/
def builtinTypes : List Bytes :=
  [utf8 "user", utf8 "admin", utf8 "operator", utf8 "*"]

/- Whether a source defines a type. -/
def definesType
    (declaration : Declaration)
    (type : Bytes) : Bool :=
  declaration.types.any fun block => block.name = type

/- The relations of all types of the given name. -/
def relationNames
    (declaration : Declaration)
    (type : Bytes) : List Bytes :=
  declaration.types.flatMap fun block =>
    if block.name = type then
      block.relations.map (·.name)
    else
      []

/-
  Elements of a list whose key occurred before them, each
  with the repeated key.
-/
def repeated
    {Part : Type}
    (key : Part → Bytes) :
    (seen : List Bytes) → List Part → List Part
  | _, [] => []
  | seen, part :: others =>
      if key part ∈ seen then
        part :: repeated key seen others
      else
        repeated key (key part :: seen) others

------------------------------------------------------------
-- Errors
------------------------------------------------------------

/- The type and the relation that an expression belongs to. -/
structure Owner where
  type : Bytes
  relation : Bytes
  deriving DecidableEq, Repr

/- The relation, if it has a name. -/
def Owner.relation? (owner : Owner) : Option Bytes :=
  if owner.relation = [] then none else some owner.relation

/- An error at a place in the source. -/
def Owner.error
    (owner : Owner)
    (problem : Diagnostic.Problem)
    (location : Location) : Diagnostic :=
  { type := owner.type
    relation := owner.relation?
    problem := problem
    position := some (location.line, location.column) }

/- A warning; it names no place. -/
def Owner.warning
    (owner : Owner)
    (problem : Diagnostic.Problem) : Diagnostic :=
  { type := owner.type
    relation := owner.relation?
    problem := problem
    position := none }

mutual

/-
  The errors of an expression. A computed relation has to be
  another relation of the same type, and a tupleset has to
  be a relation of that type.
-/
def Expression.errors
    (owner : Owner)
    (known : List Bytes) :
    Expression → List Diagnostic
  | .direct _ _ => []
  | .computed relation location =>
      (if relation ∈ known then []
       else
         [owner.error
           (.undefinedComputed relation owner.type)
           location]) ++
      (if relation = owner.relation then
         [owner.error (.selfReference relation) location]
       else [])
  | .tupleToUserset tupleset _ location =>
      if tupleset ∈ known then []
      else
        [owner.error
          (.undefinedTupleset tupleset owner.type)
          location]
  | .union operands _ => errorsOfAll owner known operands
  | .intersection operands _ =>
      errorsOfAll owner known operands
  | .exclusion base subtract _ =>
      base.errors owner known ++ subtract.errors owner known

/- The errors of several expressions, in their order. -/
def errorsOfAll
    (owner : Owner)
    (known : List Bytes) :
    List Expression → List Diagnostic
  | [] => []
  | operand :: others =>
      operand.errors owner known ++
        errorsOfAll owner known others

end

/- The errors of the relations of one type, in their order. -/
def TypeBlock.errors
    (declaration : Declaration)
    (block : TypeBlock) : List Diagnostic :=
  let known := declaration.relationNames block.name
  go known [] block.relations
where
  go (known seen : List Bytes) :
      List Relation → List Diagnostic
    | [] => []
    | relation :: others =>
        let owner : Owner := ⟨block.name, relation.name⟩
        (if relation.name ∈ seen then
           [owner.error (.duplicateRelation relation.name)
             relation.location]
         else []) ++
        relation.expression.errors owner known ++
        go known (relation.name :: seen) others

/- The errors of a whole source. -/
def errors (declaration : Declaration) : List Diagnostic :=
  (repeated (·.name) [] declaration.types).map
    (fun block =>
      { type := block.name
        relation := none
        problem := .duplicateType block.name
        position :=
          some (block.location.line, block.location.column) }) ++
  declaration.types.flatMap (TypeBlock.errors declaration)

------------------------------------------------------------
-- Warnings
------------------------------------------------------------

/- The warnings of one entry of a direct list. -/
def TypeRef.warnings
    (declaration : Declaration)
    (owner : Owner)
    (entry : TypeRef) : List Diagnostic :=
  let type := entry.spec.typeName
  (if declaration.definesType type ∨ type ∈ builtinTypes then []
   else [owner.warning (.undefinedType type)]) ++
  (match entry.spec with
   | .userset type relation =>
       if declaration.definesType type ∧
           relation ∉ declaration.relationNames type then
         [owner.warning (.undefinedMember relation type)]
       else []
   | _ => [])

mutual

/- The warnings of an expression. -/
def Expression.warnings
    (declaration : Declaration)
    (owner : Owner) :
    Expression → List Diagnostic
  | .direct entries _ =>
      entries.flatMap (TypeRef.warnings declaration owner)
  | .computed _ _ => []
  | .tupleToUserset _ _ _ => []
  | .union operands _ =>
      warningsOfAll declaration owner operands
  | .intersection operands _ =>
      warningsOfAll declaration owner operands
  | .exclusion base subtract _ =>
      base.warnings declaration owner ++
        subtract.warnings declaration owner

/- The warnings of several expressions, in their order. -/
def warningsOfAll
    (declaration : Declaration)
    (owner : Owner) :
    List Expression → List Diagnostic
  | [] => []
  | operand :: others =>
      operand.warnings declaration owner ++
        warningsOfAll declaration owner others

end

/- The warnings of one type; its cycles come last. -/
def TypeBlock.warnings
    (declaration : Declaration)
    (block : TypeBlock) : List Diagnostic :=
  block.relations.flatMap
    (fun relation =>
      relation.expression.warnings declaration
        ⟨block.name, relation.name⟩) ++
  block.cyclicRelations.map
    (fun relation =>
      Owner.warning ⟨block.name, relation⟩
        (.computedCycle relation))

/- The warnings of a whole source. -/
def warnings (declaration : Declaration) : List Diagnostic :=
  declaration.types.flatMap (TypeBlock.warnings declaration)

------------------------------------------------------------
-- Schemas
------------------------------------------------------------

mutual

/- The rule that an expression stands for. -/
def Expression.rule : Expression → Rule
  | .direct entries _ => .direct (entries.map (·.spec))
  | .computed relation _ => .computed relation
  | .tupleToUserset tupleset computed _ =>
      .tupleToUserset tupleset computed
  | .union operands _ => .union (rulesOfAll operands)
  | .intersection operands _ =>
      .intersection (rulesOfAll operands)
  | .exclusion base subtract _ =>
      .exclusion base.rule subtract.rule

/- The rules that several expressions stand for. -/
def rulesOfAll : List Expression → List Rule
  | [] => []
  | operand :: others =>
      operand.rule :: rulesOfAll others

end

/- The definition of a relation. -/
def Relation.definition
    (relation : Relation) : RelationDefinition :=
  { name := relation.name
    rule := relation.expression.rule }

/- The definition of a type, its relations put in order. -/
def TypeBlock.definition (block : TypeBlock) : TypeDefinition :=
  { name := block.name
    relations :=
      (block.relations.map Relation.definition).mergeSort
        fun first second => first.name ≤ second.name }

/- The schema of a source, its types put in order. -/
def schema (declaration : Declaration) : Schema :=
  { version := declaration.schemaVersion
    types :=
      (declaration.types.map TypeBlock.definition).mergeSort
        fun first second => first.name ≤ second.name }

end Declaration

------------------------------------------------------------
-- Compilation
------------------------------------------------------------

/- Compiles a model source. -/
def compile (source : Bytes) : Compilation :=
  match Declaration.read source with
  | .error error =>
      .rejected [Diagnostic.ofSourceError error] []
  | .ok declaration =>
      if declaration.errors = [] then
        .accepted declaration.schema declaration.warnings
      else
        .rejected declaration.errors declaration.warnings

end Rebac
