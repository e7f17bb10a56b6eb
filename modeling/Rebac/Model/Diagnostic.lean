import Rebac.Language.Error

/-
  This file defines what a compilation reports.

  Key definitions include:
    * `Diagnostic.Problem`
    * `Diagnostic`
    * `Diagnostic.message`
    * `Diagnostic.ofSourceError`
-/

namespace Rebac

/-
  What can be wrong with a model. The last three problems
  are warnings: the model is usable in spite of them.
-/
inductive Diagnostic.Problem where
  | source (error : SourceError)
  | duplicateType (type : Bytes)
  | duplicateRelation (relation : Bytes)
  | undefinedComputed (relation type : Bytes)
  | selfReference (relation : Bytes)
  | undefinedTupleset (relation type : Bytes)
  | undefinedType (type : Bytes)
  | undefinedMember (relation type : Bytes)
  | computedCycle (relation : Bytes)
  deriving DecidableEq, Repr

/-
  A problem, the type and relation that it is found in, and
  its line and column if they are known. An unreadable
  source is reported under the type `parse`.
-/
structure Diagnostic where
  type : Bytes
  relation : Option Bytes
  problem : Diagnostic.Problem
  position : Option (Nat × Nat)
  deriving DecidableEq, Repr

namespace Diagnostic

/- Puts a text into single quotes. -/
def quoted (text : Bytes) : Bytes :=
  utf8 "'" ++ text ++ utf8 "'"

/- The wording of a problem. -/
def Problem.message : Problem → Bytes
  | .source error => error.message
  | .duplicateType type => utf8 "Duplicate type name: " ++ type
  | .duplicateRelation relation =>
      utf8 "Duplicate relation name: " ++ relation
  | .undefinedComputed relation type =>
      utf8 "Computed relation " ++ quoted relation ++
        utf8 " is not defined in type " ++ quoted type
  | .selfReference relation =>
      utf8 "Relation " ++ quoted relation ++
        utf8 " cannot reference itself directly"
  | .undefinedTupleset relation type =>
      utf8 "Tupleset relation " ++ quoted relation ++
        utf8 " is not defined in type " ++ quoted type
  | .undefinedType type =>
      utf8 "Referenced type " ++ quoted type ++
        utf8 " is not defined in the model"
  | .undefinedMember relation type =>
      utf8 "Referenced relation " ++ quoted relation ++
        utf8 " is not defined in type " ++ quoted type
  | .computedCycle relation =>
      utf8 "Relation " ++ quoted relation ++
        utf8 " is part of a computed relation cycle"

/- The wording of a diagnostic. -/
def message (diagnostic : Diagnostic) : Bytes :=
  diagnostic.problem.message

/- The diagnostic of a source that cannot be read. -/
def ofSourceError (error : SourceError) : Diagnostic :=
  { type := utf8 "parse"
    relation := none
    problem := .source error
    position := some (error.location.line, error.location.column) }

end Diagnostic

end Rebac
