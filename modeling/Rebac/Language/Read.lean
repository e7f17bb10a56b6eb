import Rebac.Language.Declaration
import Rebac.Language.Scan

/-
  This file defines how tokens are read as declarations.

  The grammar, from the weakest operator to the strongest:

    model      : `model` `schema` VERSION type*
    type       : `type` NAME (`relations` relation*)?
    relation   : `define` NAME `:` union
    union      : product (`or` product)*
    product    : difference (`and` difference)*
    difference : primary (`but` `not` primary)?
    primary    : `[` entry (`,` entry)* `]`
               | NAME `->` NAME
               | NAME `from` NAME
               | NAME
    entry      : `*` | NAME (`#` NAME | `:` `*`)?

  A chain of one operator is one n-ary expression. Each
  reader takes tokens from the head of a list and returns
  the rest; the lemmas beside the readers say that the rest
  is shorter, so the readers of repeated parts end.

  Key definitions include:
    * `Declaration.readEntry`
    * `Declaration.readPrimary`
    * `Declaration.readUnion`
    * `Declaration.readRelation`
    * `Declaration.readType`
    * `Declaration.ofTokens`
    * `Declaration.read`
-/

namespace Rebac

namespace Declaration

------------------------------------------------------------
-- Single Tokens
------------------------------------------------------------

/- What a reader returns: a part, and the tokens behind it. -/
abbrev Reading (Part : Type) :=
  Except SourceError (Part × List Token)

/- The error of a token other than the expected one. -/
def unmet
    (expected : Expectation)
    (tokens : List Token) : SourceError :=
  let found := tokens.headD Token.endOfSource
  { cause := .unmet expected found
    location := found.location }

/- Whether the next token has the given kind. -/
def nextIs
    (kind : TokenKind)
    (tokens : List Token) : Bool :=
  (tokens.headD Token.endOfSource).kind = kind

/- Takes a token of the given kind. -/
def take
    (kind : TokenKind)
    (expected : Expectation)
    (tokens : List Token) : Reading Token :=
  match tokens with
  | [] => .error (unmet expected tokens)
  | token :: rest =>
      if token.kind = kind then
        .ok (token, rest)
      else
        .error (unmet expected tokens)

theorem take_shorter
    {kind : TokenKind}
    {expected : Expectation}
    {tokens rest : List Token}
    {token : Token}
    (hTake : take kind expected tokens = .ok (token, rest)) :
    rest.length < tokens.length := by
  unfold take at hTake
  split at hTake
  · cases hTake
  · split at hTake
    · cases hTake
      simp
    · cases hTake

/- Takes the end of a line; the end of the source is one. -/
def takeLineEnd
    (tokens : List Token) : Reading Unit :=
  match tokens with
  | [] => .ok ((), [])
  | token :: rest =>
      if token.kind = .newline then
        .ok ((), rest)
      else if token.kind = .endOfSource then
        .ok ((), tokens)
      else
        .error (unmet .endOfLine tokens)

theorem takeLineEnd_not_longer
    {tokens rest : List Token}
    (hTake : takeLineEnd tokens = .ok ((), rest)) :
    rest.length ≤ tokens.length := by
  unfold takeLineEnd at hTake
  split at hTake
  · cases hTake
    simp
  · split at hTake
    · cases hTake
      simp
    · split at hTake <;> cases hTake
      simp

------------------------------------------------------------
-- Direct Lists
------------------------------------------------------------

/- Reads one entry of a direct list. -/
def readEntry (tokens : List Token) : Reading TypeRef :=
  match take (.mark .star) .typeName tokens with
  | .ok (star, rest) =>
      .ok ({ spec := .any, location := star.location }, rest)
  | .error _ =>
      match take .identifier .typeName tokens with
      | .error error => .error error
      | .ok (name, rest) =>
          match rest with
          | [] =>
              .ok
                ({ spec := .plain name.text
                   location := name.location }, rest)
          | next :: others =>
              if next.kind = .mark .hash then
                match
                  take .identifier .relationAfterHash others
                with
                | .error error => .error error
                | .ok (relation, behind) =>
                    .ok
                      ({ spec :=
                           .userset name.text relation.text
                         location := name.location }, behind)
              else if next.kind = .mark .colon then
                match
                  take (.mark .star) .starAfterColon others
                with
                | .error error => .error error
                | .ok (_, behind) =>
                    .ok
                      ({ spec := .wildcard name.text
                         location := name.location }, behind)
              else
                .ok
                  ({ spec := .plain name.text
                     location := name.location }, rest)

theorem readEntry_shorter
    {tokens rest : List Token}
    {entry : TypeRef}
    (hRead : readEntry tokens = .ok (entry, rest)) :
    rest.length < tokens.length := by
  unfold readEntry at hRead
  split at hRead
  · rename_i hStar
    cases hRead
    exact take_shorter hStar
  · split at hRead
    · cases hRead
    · rename_i hName
      have hShorter := take_shorter hName
      split at hRead
      · cases hRead
        exact hShorter
      · simp only [List.length_cons] at hShorter
        split at hRead
        · split at hRead
          · cases hRead
          · rename_i hRelation
            have hBehind := take_shorter hRelation
            cases hRead
            omega
        · split at hRead
          · split at hRead
            · cases hRead
            · rename_i hStar
              have hBehind := take_shorter hStar
              cases hRead
              omega
          · cases hRead
            simpa using hShorter

/- Reads the entries of a direct list, between commas. -/
def readEntries
    (tokens : List Token) : Reading (List TypeRef) :=
  match _ : readEntry tokens with
  | .error error => .error error
  | .ok (entry, rest) =>
      match _ : take (.mark .comma) .closingBracket rest with
      | .error _ => .ok ([entry], rest)
      | .ok (_, others) =>
          match readEntries others with
          | .error error => .error error
          | .ok (entries, behind) =>
              .ok (entry :: entries, behind)
termination_by tokens.length
decreasing_by
  have hRest := readEntry_shorter ‹readEntry tokens = _›
  have hOthers := take_shorter ‹take _ _ rest = _›
  omega

theorem readEntries_shorter
    {tokens rest : List Token}
    {entries : List TypeRef}
    (hRead : readEntries tokens = .ok (entries, rest)) :
    rest.length < tokens.length := by
  fun_induction readEntries tokens generalizing entries rest with
  | case1 => cases hRead
  | case2 tokens entry behind hEntry =>
      cases hRead
      exact readEntry_shorter hEntry
  | case3 => cases hRead
  | case4 tokens entry behind hEntry comma others hComma
      found ends hMore ih =>
      have hRest := readEntry_shorter hEntry
      have hOthers := take_shorter hComma
      have hEnd := ih hMore
      cases hRead
      omega

------------------------------------------------------------
-- Primaries
------------------------------------------------------------

/-
  Reads a direct list, a relation on another object, or a
  relation. `X from Y` means the same as `Y->X`.
-/
def readPrimary (tokens : List Token) : Reading Expression :=
  match take (.mark .openBracket) .expression tokens with
  | .ok (bracket, rest) =>
      match readEntries rest with
      | .error error => .error error
      | .ok (entries, behind) =>
          match
            take (.mark .closeBracket) .closingBracket behind
          with
          | .error error => .error error
          | .ok (_, others) =>
              .ok (.direct entries bracket.location, others)
  | .error _ =>
      match take .identifier .expression tokens with
      | .error error => .error error
      | .ok (name, rest) =>
          match rest with
          | [] => .ok (.computed name.text name.location, rest)
          | next :: others =>
              if next.kind = .mark .arrow then
                match
                  take .identifier .relationAfterArrow others
                with
                | .error error => .error error
                | .ok (relation, behind) =>
                    .ok
                      (.tupleToUserset name.text relation.text
                        name.location, behind)
              else if next.kind = .keyword .via then
                match
                  take .identifier .relationAfterVia others
                with
                | .error error => .error error
                | .ok (tupleset, behind) =>
                    .ok
                      (.tupleToUserset tupleset.text name.text
                        name.location, behind)
              else
                .ok (.computed name.text name.location, rest)

theorem readPrimary_shorter
    {tokens rest : List Token}
    {expression : Expression}
    (hRead : readPrimary tokens = .ok (expression, rest)) :
    rest.length < tokens.length := by
  unfold readPrimary at hRead
  split at hRead
  · rename_i hBracket
    have hRest := take_shorter hBracket
    split at hRead
    · cases hRead
    · rename_i hEntries
      have hBehind := readEntries_shorter hEntries
      split at hRead
      · cases hRead
      · rename_i hClose
        have hOthers := take_shorter hClose
        cases hRead
        omega
  · split at hRead
    · cases hRead
    · rename_i hName
      have hShorter := take_shorter hName
      split at hRead
      · cases hRead
        exact hShorter
      · simp only [List.length_cons] at hShorter
        split at hRead
        · split at hRead
          · cases hRead
          · rename_i hRelation
            have hBehind := take_shorter hRelation
            cases hRead
            omega
        · split at hRead
          · split at hRead
            · cases hRead
            · rename_i hRelation
              have hBehind := take_shorter hRelation
              cases hRead
              omega
          · cases hRead
            simpa using hShorter

------------------------------------------------------------
-- Operators
------------------------------------------------------------

/- Reads a primary, perhaps less another one. -/
def readDifference
    (tokens : List Token) : Reading Expression :=
  match readPrimary tokens with
  | .error error => .error error
  | .ok (base, rest) =>
      match take (.keyword .but) .endOfLine rest with
      | .error _ => .ok (base, rest)
      | .ok (_, others) =>
          match take (.keyword .not) .notAfterBut others with
          | .error error => .error error
          | .ok (_, behind) =>
              match readPrimary behind with
              | .error error => .error error
              | .ok (subtract, ends) =>
                  .ok
                    (.exclusion base subtract base.location,
                      ends)

theorem readDifference_shorter
    {tokens rest : List Token}
    {expression : Expression}
    (hRead : readDifference tokens = .ok (expression, rest)) :
    rest.length < tokens.length := by
  unfold readDifference at hRead
  split at hRead
  · cases hRead
  · rename_i hBase
    have hRest := readPrimary_shorter hBase
    split at hRead
    · cases hRead
      exact hRest
    · rename_i hBut
      have hOthers := take_shorter hBut
      split at hRead
      · cases hRead
      · rename_i hNot
        have hBehind := take_shorter hNot
        split at hRead
        · cases hRead
        · rename_i hSubtract
          have hEnds := readPrimary_shorter hSubtract
          cases hRead
          omega

/- Reads the operands that follow the first of a product. -/
def readFactors
    (tokens : List Token) : Reading (List Expression) :=
  match _ : take (.keyword .and) .endOfLine tokens with
  | .error _ => .ok ([], tokens)
  | .ok (_, others) =>
      match _ : readDifference others with
      | .error error => .error error
      | .ok (factor, behind) =>
          match readFactors behind with
          | .error error => .error error
          | .ok (factors, ends) => .ok (factor :: factors, ends)
termination_by tokens.length
decreasing_by
  have hOthers := take_shorter ‹take _ _ tokens = _›
  have hBehind := readDifference_shorter
    ‹readDifference others = _›
  omega

theorem readFactors_not_longer
    {tokens rest : List Token}
    {factors : List Expression}
    (hRead : readFactors tokens = .ok (factors, rest)) :
    rest.length ≤ tokens.length := by
  fun_induction readFactors tokens generalizing factors rest with
  | case1 =>
      cases hRead
      exact Nat.le_refl _
  | case2 => cases hRead
  | case3 => cases hRead
  | case4 tokens word others hAnd factor behind hFactor
      found ends hMore ih =>
      have hOthers := take_shorter hAnd
      have hBehind := readDifference_shorter hFactor
      have hEnd := ih hMore
      cases hRead
      omega

/- Reads differences between `and`s. -/
def readProduct (tokens : List Token) : Reading Expression :=
  match readDifference tokens with
  | .error error => .error error
  | .ok (first, rest) =>
      match readFactors rest with
      | .error error => .error error
      | .ok ([], behind) => .ok (first, behind)
      | .ok (factors, behind) =>
          .ok
            (.intersection (first :: factors) first.location,
              behind)

theorem readProduct_shorter
    {tokens rest : List Token}
    {expression : Expression}
    (hRead : readProduct tokens = .ok (expression, rest)) :
    rest.length < tokens.length := by
  unfold readProduct at hRead
  split at hRead
  · cases hRead
  · rename_i hFirst
    have hRest := readDifference_shorter hFirst
    split at hRead
    · cases hRead
    · rename_i hFactors
      have hBehind := readFactors_not_longer hFactors
      cases hRead
      omega
    · rename_i hFactors
      have hBehind := readFactors_not_longer hFactors
      cases hRead
      omega

/- Reads the operands that follow the first of a union. -/
def readSummands
    (tokens : List Token) : Reading (List Expression) :=
  match _ : take (.keyword .or) .endOfLine tokens with
  | .error _ => .ok ([], tokens)
  | .ok (_, others) =>
      match _ : readProduct others with
      | .error error => .error error
      | .ok (summand, behind) =>
          match readSummands behind with
          | .error error => .error error
          | .ok (summands, ends) =>
              .ok (summand :: summands, ends)
termination_by tokens.length
decreasing_by
  have hOthers := take_shorter ‹take _ _ tokens = _›
  have hBehind := readProduct_shorter ‹readProduct others = _›
  omega

theorem readSummands_not_longer
    {tokens rest : List Token}
    {summands : List Expression}
    (hRead : readSummands tokens = .ok (summands, rest)) :
    rest.length ≤ tokens.length := by
  fun_induction readSummands tokens generalizing summands rest with
  | case1 =>
      cases hRead
      exact Nat.le_refl _
  | case2 => cases hRead
  | case3 => cases hRead
  | case4 tokens word others hOr summand behind hSummand
      found ends hMore ih =>
      have hOthers := take_shorter hOr
      have hBehind := readProduct_shorter hSummand
      have hEnd := ih hMore
      cases hRead
      omega

/- Reads products between `or`s. -/
def readUnion (tokens : List Token) : Reading Expression :=
  match readProduct tokens with
  | .error error => .error error
  | .ok (first, rest) =>
      match readSummands rest with
      | .error error => .error error
      | .ok ([], behind) => .ok (first, behind)
      | .ok (summands, behind) =>
          .ok
            (.union (first :: summands) first.location, behind)

theorem readUnion_shorter
    {tokens rest : List Token}
    {expression : Expression}
    (hRead : readUnion tokens = .ok (expression, rest)) :
    rest.length < tokens.length := by
  unfold readUnion at hRead
  split at hRead
  · cases hRead
  · rename_i hFirst
    have hRest := readProduct_shorter hFirst
    split at hRead
    · cases hRead
    · rename_i hSummands
      have hBehind := readSummands_not_longer hSummands
      cases hRead
      omega
    · rename_i hSummands
      have hBehind := readSummands_not_longer hSummands
      cases hRead
      omega

------------------------------------------------------------
-- Relations
------------------------------------------------------------

/- Reads one relation and the end of its line. -/
def readRelation (tokens : List Token) : Reading Relation :=
  match take (.keyword .define) .defineKeyword tokens with
  | .error error => .error error
  | .ok (word, rest) =>
      match take .identifier .relationName rest with
      | .error error => .error error
      | .ok (name, others) =>
          match take (.mark .colon) .colon others with
          | .error error => .error error
          | .ok (_, behind) =>
              match readUnion behind with
              | .error error => .error error
              | .ok (expression, ends) =>
                  match takeLineEnd ends with
                  | .error error => .error error
                  | .ok (_, next) =>
                      .ok
                        ({ name := name.text
                           expression := expression
                           location := word.location }, next)

theorem readRelation_shorter
    {tokens rest : List Token}
    {relation : Relation}
    (hRead : readRelation tokens = .ok (relation, rest)) :
    rest.length < tokens.length := by
  unfold readRelation at hRead
  split at hRead
  · cases hRead
  · rename_i hWord
    have hRest := take_shorter hWord
    split at hRead
    · cases hRead
    · rename_i hName
      have hOthers := take_shorter hName
      split at hRead
      · cases hRead
      · rename_i hColon
        have hBehind := take_shorter hColon
        split at hRead
        · cases hRead
        · rename_i hExpression
          have hEnds := readUnion_shorter hExpression
          split at hRead
          · cases hRead
          · rename_i hLine
            have hNext := takeLineEnd_not_longer hLine
            cases hRead
            omega

/- Reads relations as long as the next token starts one. -/
def readRelations
    (tokens : List Token) : Reading (List Relation) :=
  if nextIs (.keyword .define) tokens then
    match _ : readRelation tokens with
    | .error error => .error error
    | .ok (relation, rest) =>
        match readRelations rest with
        | .error error => .error error
        | .ok (relations, behind) =>
            .ok (relation :: relations, behind)
  else
    .ok ([], tokens)
termination_by tokens.length
decreasing_by
  exact readRelation_shorter ‹readRelation tokens = _›

theorem readRelations_not_longer
    {tokens rest : List Token}
    {relations : List Relation}
    (hRead : readRelations tokens = .ok (relations, rest)) :
    rest.length ≤ tokens.length := by
  fun_induction readRelations tokens
    generalizing relations rest with
  | case1 => cases hRead
  | case2 => cases hRead
  | case3 tokens hDefine relation behind hRelation found ends
      hMore ih =>
      have hRest := readRelation_shorter hRelation
      have hEnd := ih hMore
      cases hRead
      omega
  | case4 =>
      cases hRead
      exact Nat.le_refl _

------------------------------------------------------------
-- Types
------------------------------------------------------------

/- Reads the block of relations behind `relations`, if any. -/
def readRelationBlock
    (tokens : List Token) : Reading (List Relation) :=
  match take .openBlock .endOfLine tokens with
  | .error _ => .ok ([], tokens)
  | .ok (_, rest) =>
      match readRelations rest with
      | .error error => .error error
      | .ok (relations, behind) =>
          match take .closeBlock .defineKeyword behind with
          | .error error => .error error
          | .ok (_, others) => .ok (relations, others)

theorem readRelationBlock_not_longer
    {tokens rest : List Token}
    {relations : List Relation}
    (hRead :
      readRelationBlock tokens = .ok (relations, rest)) :
    rest.length ≤ tokens.length := by
  unfold readRelationBlock at hRead
  split at hRead
  · cases hRead
    exact Nat.le_refl _
  · rename_i hOpen
    have hRest := take_shorter hOpen
    split at hRead
    · cases hRead
    · rename_i hRelations
      have hBehind := readRelations_not_longer hRelations
      split at hRead
      · cases hRead
      · rename_i hClose
        have hOthers := take_shorter hClose
        cases hRead
        omega

/- Reads the indented block of a type, if it has one. -/
def readTypeBody
    (tokens : List Token) : Reading (List Relation) :=
  match take .openBlock .endOfLine tokens with
  | .error _ => .ok ([], tokens)
  | .ok (_, rest) =>
      match
        take (.keyword .relations) .relationsKeyword rest
      with
      | .error error => .error error
      | .ok (_, others) =>
          match takeLineEnd others with
          | .error error => .error error
          | .ok (_, behind) =>
              match readRelationBlock behind with
              | .error error => .error error
              | .ok (relations, ends) =>
                  match
                    take .closeBlock .endOfTypeBlock ends
                  with
                  | .error error => .error error
                  | .ok (_, next) => .ok (relations, next)

theorem readTypeBody_not_longer
    {tokens rest : List Token}
    {relations : List Relation}
    (hRead : readTypeBody tokens = .ok (relations, rest)) :
    rest.length ≤ tokens.length := by
  unfold readTypeBody at hRead
  split at hRead
  · cases hRead
    exact Nat.le_refl _
  · rename_i hOpen
    have hRest := take_shorter hOpen
    split at hRead
    · cases hRead
    · rename_i hWord
      have hOthers := take_shorter hWord
      split at hRead
      · cases hRead
      · rename_i hLine
        have hBehind := takeLineEnd_not_longer hLine
        split at hRead
        · cases hRead
        · rename_i hBlock
          have hEnds := readRelationBlock_not_longer hBlock
          split at hRead
          · cases hRead
          · rename_i hClose
            have hNext := take_shorter hClose
            cases hRead
            omega

/- Reads one type. -/
def readType (tokens : List Token) : Reading TypeBlock :=
  match take (.keyword .type) .typeKeyword tokens with
  | .error error => .error error
  | .ok (word, rest) =>
      match take .identifier .typeName rest with
      | .error error => .error error
      | .ok (name, others) =>
          match takeLineEnd others with
          | .error error => .error error
          | .ok (_, behind) =>
              match readTypeBody behind with
              | .error error => .error error
              | .ok (relations, ends) =>
                  .ok
                    ({ name := name.text
                       relations := relations
                       location := word.location }, ends)

theorem readType_shorter
    {tokens rest : List Token}
    {block : TypeBlock}
    (hRead : readType tokens = .ok (block, rest)) :
    rest.length < tokens.length := by
  unfold readType at hRead
  split at hRead
  · cases hRead
  · rename_i hWord
    have hRest := take_shorter hWord
    split at hRead
    · cases hRead
    · rename_i hName
      have hOthers := take_shorter hName
      split at hRead
      · cases hRead
      · rename_i hLine
        have hBehind := takeLineEnd_not_longer hLine
        split at hRead
        · cases hRead
        · rename_i hBody
          have hEnds := readTypeBody_not_longer hBody
          cases hRead
          omega

------------------------------------------------------------
-- Models
------------------------------------------------------------

/- Drops the newlines at the head of the tokens. -/
def skipNewlines (tokens : List Token) : List Token :=
  tokens.dropWhile fun token => token.kind = .newline

theorem skipNewlines_not_longer (tokens : List Token) :
    (skipNewlines tokens).length ≤ tokens.length :=
  (List.dropWhile_sublist _).length_le

/-
  Reads types up to the end of the source. Where the header
  was indented, one closing of its block may come before or
  between the types.
-/
def readTypes
    (headerOpen : Bool)
    (tokens : List Token) :
    Except SourceError (List TypeBlock) :=
  match _ : skipNewlines tokens with
  | [] => .ok []
  | token :: rest =>
      if token.kind = .endOfSource then
        .ok []
      else if headerOpen ∧ token.kind = .closeBlock then
        readTypes false rest
      else
        match _ : readType (token :: rest) with
        | .error error => .error error
        | .ok (block, behind) =>
            match readTypes headerOpen behind with
            | .error error => .error error
            | .ok blocks => .ok (block :: blocks)
termination_by tokens.length
decreasing_by
  all_goals
    have hSkip := skipNewlines_not_longer tokens
    rw [‹skipNewlines tokens = _›] at hSkip
    simp only [List.length_cons] at hSkip
  · omega
  · have hBehind := readType_shorter
      ‹readType (token :: rest) = _›
    simp only [List.length_cons] at hBehind
    omega

/- Reads a whole model. -/
def ofTokens
    (tokens : List Token) : Except SourceError Declaration :=
  if tokens = [] then
    .error { cause := .noTokens }
  else
    match
      take (.keyword .model) .modelKeyword (skipNewlines tokens)
    with
    | .error error => .error error
    | .ok (word, rest) =>
        let header := skipNewlines rest
        let headerOpen := nextIs .openBlock header
        let header := if headerOpen then header.tail else header
        match take (.keyword .schema) .schemaKeyword header with
        | .error error => .error error
        | .ok (_, others) =>
            match take .version .schemaVersion others with
            | .error error => .error error
            | .ok (version, behind) =>
                match readTypes headerOpen behind with
                | .error error => .error error
                | .ok types =>
                    .ok
                      { schemaVersion := version.text
                        types := types
                        location := word.location }

/- Reads a model source. -/
def read (source : Bytes) : Except SourceError Declaration :=
  match Token.scan source with
  | .error error => .error error
  | .ok tokens => ofTokens tokens

end Declaration

end Rebac
