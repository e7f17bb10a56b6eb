import Rebac.Language.Token

/-
  This file defines the errors of a model source.

  Reading stops at the first error, so a source has at most
  one of them. An error is a cause and a place; its wording
  is derived from both.

  Key definitions include:
    * `Expectation`
    * `SourceError`
    * `SourceError.message`
-/

namespace Rebac

------------------------------------------------------------
-- Expectations
------------------------------------------------------------

/- What a declaration needs at some place. -/
inductive Expectation where
  | modelKeyword
  | schemaKeyword
  | schemaVersion
  | typeKeyword
  | typeName
  | endOfLine
  | relationsKeyword
  | defineKeyword
  | endOfTypeBlock
  | relationName
  | colon
  | notAfterBut
  | closingBracket
  | expression
  | relationAfterArrow
  | relationAfterVia
  | relationAfterHash
  | starAfterColon
  deriving DecidableEq, Repr

namespace Expectation

/- The wording of an expectation. -/
def text : Expectation → Bytes
  | .modelKeyword => utf8 "\"model\" keyword"
  | .schemaKeyword => utf8 "\"schema\" keyword"
  | .schemaVersion => utf8 "schema version"
  | .typeKeyword => utf8 "\"type\" keyword"
  | .typeName => utf8 "type name"
  | .endOfLine => utf8 "end of line"
  | .relationsKeyword => utf8 "\"relations\" keyword"
  | .defineKeyword => utf8 "\"define\" keyword"
  | .endOfTypeBlock => utf8 "end of type block"
  | .relationName => utf8 "relation name"
  | .colon => utf8 "\":\""
  | .notAfterBut => utf8 "\"not\" after \"but\""
  | .closingBracket => utf8 "\"]\""
  | .expression => utf8 "rewrite expression"
  | .relationAfterArrow => utf8 "relation name after \"->\""
  | .relationAfterVia => utf8 "relation name after \"from\""
  | .relationAfterHash => utf8 "relation name after \"#\""
  | .starAfterColon => utf8 "\"*\" after \":\""

end Expectation

------------------------------------------------------------
-- Source Errors
------------------------------------------------------------

/- Why a source cannot be read. -/
inductive SourceError.Cause where
  | unexpectedByte (byte : UInt8)
  | inconsistentIndentation
  | unmet (expected : Expectation) (found : Token)
  | noTokens
  deriving DecidableEq, Repr

/- A cause and the place where it was found. -/
structure SourceError where
  cause : SourceError.Cause
  location : Location := {}
  deriving DecidableEq, Repr

namespace SourceError

/- A place as the messages of the scanner name it. -/
def place (location : Location) : Bytes :=
  utf8 " at line " ++ Numeral.ofNat location.line ++
    utf8 ", column " ++ Numeral.ofNat location.column

/- The wording of an error. -/
def message (error : SourceError) : Bytes :=
  match error.cause with
  | .unexpectedByte byte =>
      utf8 "Unexpected character: " ++ [byte] ++
        place error.location
  | .inconsistentIndentation =>
      utf8 "Inconsistent indentation" ++ place error.location
  | .unmet expected found =>
      utf8 "Expected " ++ expected.text ++
        utf8 ", got " ++ found.described
  | .noTokens => utf8 "Empty token stream"

end SourceError

end Rebac
