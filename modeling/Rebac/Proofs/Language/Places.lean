import Rebac.Proofs.Language.Accept

/-
  This file proves that reading does not depend on places.

  A token keeps its kind and its text when its place is
  forgotten. Every reader commutes with that: it reads the
  same part up to places, leaves the same tokens up to
  places, or fails with the same error up to places. So what
  is read from a source depends on the kinds and the texts of
  its tokens only.

  The lemmas `_eq` write each reader as a sequence of others;
  a sequence commutes if its members do.

  Key definitions include:
    * `Token.unplaced`
    * `SourceError.unplaced`
    * `Declaration.Reading.unplaced`
    * `Declaration.Reading.andThen`
    * `Declaration.Reading.orElse`

  Key theorems include:
    * `Declaration.andThen_unplaced`
    * `Declaration.readUnion_unplaced`
    * `Declaration.readTypes_unplaced`
    * `Declaration.ofTokens_unplaced`
-/

namespace Rebac

------------------------------------------------------------
-- Places
------------------------------------------------------------

/- A token without its place. -/
def Token.unplaced (token : Token) : Token :=
  { token with location := {} }

/- An error without places. -/
def SourceError.unplaced (error : SourceError) : SourceError :=
  { cause :=
      match error.cause with
      | .unmet expected found => .unmet expected found.unplaced
      | cause => cause
    location := {} }

namespace Declaration

/- What is read, and the tokens behind it, without places. -/
def Reading.unplaced
    {Part : Type}
    (forget : Part → Part) :
    Reading Part → Reading Part
  | .error error => .error error.unplaced
  | .ok (part, rest) =>
      .ok (forget part, rest.map Token.unplaced)

/- What is read behind a part; where a part fails, all does. -/
def Reading.andThen
    {First Second : Type}
    (reading : Reading First)
    (next : First → List Token → Reading Second) :
    Reading Second :=
  match reading with
  | .error error => .error error
  | .ok (part, rest) => next part rest

/- What is read behind a part, or instead of it. -/
def Reading.orElse
    {First Second : Type}
    (reading : Reading First)
    (otherwise : Reading Second)
    (next : First → List Token → Reading Second) :
    Reading Second :=
  match reading with
  | .error _ => otherwise
  | .ok (part, rest) => next part rest

section Sequences

variable {First Second : Type}
variable {forget : First → First}
variable {erase : Second → Second}
variable {reading : Reading First}
variable {next after : First → List Token → Reading Second}
variable {otherwise instead : Reading Second}

theorem andThen_unplaced
    (hNext : ∀ part rest, reading = .ok (part, rest) →
      after (forget part) (rest.map Token.unplaced) =
        (next part rest).unplaced erase) :
    (reading.unplaced forget).andThen after =
      (reading.andThen next).unplaced erase := by
  rcases reading with error | ⟨part, rest⟩
  · rfl
  · exact hNext part rest rfl

theorem orElse_unplaced
    (hNext : ∀ part rest, reading = .ok (part, rest) →
      after (forget part) (rest.map Token.unplaced) =
        (next part rest).unplaced erase)
    (hOtherwise : instead = otherwise.unplaced erase) :
    (reading.unplaced forget).orElse instead after =
      (reading.orElse otherwise next).unplaced erase := by
  rcases reading with error | ⟨part, rest⟩
  · exact hOtherwise
  · exact hNext part rest rfl

end Sequences

------------------------------------------------------------
-- Single Tokens
------------------------------------------------------------

theorem nextIs_unplaced
    (kind : TokenKind)
    (tokens : List Token) :
    nextIs kind (tokens.map Token.unplaced) =
      nextIs kind tokens := by
  cases tokens <;> rfl

theorem take_unplaced
    (kind : TokenKind)
    (expected : Expectation)
    (tokens : List Token) :
    take kind expected (tokens.map Token.unplaced) =
      (take kind expected tokens).unplaced Token.unplaced := by
  cases tokens with
  | nil => rfl
  | cons token rest =>
      have hKind : token.unplaced.kind = token.kind := rfl
      rw [List.map_cons, take, take, hKind]
      by_cases hSame : token.kind = kind
      · rw [if_pos hSame, if_pos hSame]
        rfl
      · rw [if_neg hSame, if_neg hSame]
        rfl

theorem takeLineEnd_unplaced (tokens : List Token) :
    takeLineEnd (tokens.map Token.unplaced) =
      (takeLineEnd tokens).unplaced id := by
  cases tokens with
  | nil => rfl
  | cons token rest =>
      have hKind : token.unplaced.kind = token.kind := rfl
      rw [List.map_cons, takeLineEnd, takeLineEnd, hKind]
      by_cases hLine : token.kind = .newline
      · rw [if_pos hLine, if_pos hLine]
        rfl
      · rw [if_neg hLine, if_neg hLine]
        by_cases hEnd : token.kind = .endOfSource
        · rw [if_pos hEnd, if_pos hEnd]
          rfl
        · rw [if_neg hEnd, if_neg hEnd]
          rfl

------------------------------------------------------------
-- Expressions
------------------------------------------------------------

/- An entry of a direct list, behind its name. -/
def entryBehind (name : Token) : List Token → Reading TypeRef
  | [] =>
      .ok ({ spec := .plain name.text
             location := name.location }, [])
  | next :: others =>
      if next.kind = .mark .hash then
        (take .identifier .relationAfterHash others).andThen
          fun relation behind =>
            .ok ({ spec := .userset name.text relation.text
                   location := name.location }, behind)
      else if next.kind = .mark .colon then
        (take (.mark .star) .starAfterColon others).andThen
          fun _ behind =>
            .ok ({ spec := .wildcard name.text
                   location := name.location }, behind)
      else
        .ok ({ spec := .plain name.text
               location := name.location }, next :: others)

theorem readEntry_eq (tokens : List Token) :
    readEntry tokens =
      (take (.mark .star) .typeName tokens).orElse
        ((take .identifier .typeName tokens).andThen entryBehind)
        fun star rest =>
          .ok ({ spec := .any, location := star.location }, rest) := by
  rw [readEntry]
  grind [Reading.andThen, Reading.orElse, entryBehind]

theorem entryBehind_unplaced
    (name : Token)
    (tokens : List Token) :
    entryBehind name.unplaced (tokens.map Token.unplaced) =
      (entryBehind name tokens).unplaced TypeRef.unplaced := by
  cases tokens with
  | nil => rfl
  | cons next others =>
      have hKind : next.unplaced.kind = next.kind := rfl
      rw [List.map_cons, entryBehind, entryBehind, hKind]
      by_cases hHash : next.kind = .mark .hash
      · rw [if_pos hHash, if_pos hHash, take_unplaced]
        exact andThen_unplaced fun _ _ _ => rfl
      · rw [if_neg hHash, if_neg hHash]
        by_cases hColon : next.kind = .mark .colon
        · rw [if_pos hColon, if_pos hColon, take_unplaced]
          exact andThen_unplaced fun _ _ _ => rfl
        · rw [if_neg hColon, if_neg hColon]
          rfl

theorem readEntry_unplaced (tokens : List Token) :
    readEntry (tokens.map Token.unplaced) =
      (readEntry tokens).unplaced TypeRef.unplaced := by
  rw [readEntry_eq, readEntry_eq, take_unplaced, take_unplaced]
  apply orElse_unplaced
  · exact fun _ _ _ => rfl
  · exact andThen_unplaced fun name rest _ =>
      entryBehind_unplaced name rest

theorem readEntries_eq (tokens : List Token) :
    readEntries tokens =
      (readEntry tokens).andThen fun entry rest =>
        (take (.mark .comma) .closingBracket rest).orElse
          (.ok ([entry], rest)) fun _ others =>
            (readEntries others).andThen fun entries behind =>
              .ok (entry :: entries, behind) := by
  rw [readEntries]
  grind [Reading.andThen, Reading.orElse]

theorem readEntries_unplaced (tokens : List Token) :
    readEntries (tokens.map Token.unplaced) =
      (readEntries tokens).unplaced
        (List.map TypeRef.unplaced) := by
  rw [readEntries_eq, readEntries_eq tokens, readEntry_unplaced]
  refine andThen_unplaced fun entry rest hEntry => ?_
  rw [take_unplaced]
  refine orElse_unplaced (fun _ others hComma => ?_) rfl
  rw [readEntries_unplaced others]
  exact andThen_unplaced fun _ _ _ => rfl
termination_by tokens.length
decreasing_by
  have hRest := readEntry_shorter hEntry
  have hOthers := take_shorter hComma
  omega

/- A primary that starts with a name, behind the name. -/
def primaryBehind
    (name : Token) : List Token → Reading Expression
  | [] => .ok (.computed name.text name.location, [])
  | next :: others =>
      if next.kind = .mark .arrow then
        (take .identifier .relationAfterArrow others).andThen
          fun relation behind =>
            .ok (.tupleToUserset name.text relation.text
              name.location, behind)
      else if next.kind = .keyword .via then
        (take .identifier .relationAfterVia others).andThen
          fun tupleset behind =>
            .ok (.tupleToUserset tupleset.text name.text
              name.location, behind)
      else
        .ok (.computed name.text name.location, next :: others)

theorem primaryBehind_unplaced
    (name : Token)
    (tokens : List Token) :
    primaryBehind name.unplaced (tokens.map Token.unplaced) =
      (primaryBehind name tokens).unplaced
        Expression.unplaced := by
  cases tokens with
  | nil => rfl
  | cons next others =>
      have hKind : next.unplaced.kind = next.kind := rfl
      rw [List.map_cons, primaryBehind, primaryBehind, hKind]
      by_cases hArrow : next.kind = .mark .arrow
      · rw [if_pos hArrow, if_pos hArrow, take_unplaced]
        exact andThen_unplaced fun _ _ _ => rfl
      · rw [if_neg hArrow, if_neg hArrow]
        by_cases hVia : next.kind = .keyword .via
        · rw [if_pos hVia, if_pos hVia, take_unplaced]
          exact andThen_unplaced fun _ _ _ => rfl
        · rw [if_neg hVia, if_neg hVia]
          rfl

theorem readPrimary_eq (tokens : List Token) :
    readPrimary tokens =
      (take (.mark .openBracket) .expression tokens).orElse
        ((take .identifier .expression tokens).andThen
          primaryBehind)
        fun bracket rest =>
          (readEntries rest).andThen fun entries behind =>
            (take (.mark .closeBracket) .closingBracket
                behind).andThen fun _ others =>
              .ok (.direct entries bracket.location, others) := by
  rw [readPrimary]
  grind [Reading.andThen, Reading.orElse, primaryBehind]

theorem readPrimary_unplaced (tokens : List Token) :
    readPrimary (tokens.map Token.unplaced) =
      (readPrimary tokens).unplaced Expression.unplaced := by
  rw [readPrimary_eq, readPrimary_eq, take_unplaced,
    take_unplaced]
  apply orElse_unplaced
  · intro bracket rest _
    rw [readEntries_unplaced]
    refine andThen_unplaced fun entries behind _ => ?_
    rw [take_unplaced]
    exact andThen_unplaced fun _ _ _ => rfl
  · exact andThen_unplaced fun name rest _ =>
      primaryBehind_unplaced name rest

theorem Expression.location_unplaced (expression : Expression) :
    expression.unplaced.location = {} := by
  cases expression <;> simp [Expression.unplaced, location]

theorem readDifference_eq (tokens : List Token) :
    readDifference tokens =
      (readPrimary tokens).andThen fun base rest =>
        (take (.keyword .but) .endOfLine rest).orElse
          (.ok (base, rest)) fun _ others =>
            (take (.keyword .not) .notAfterBut others).andThen
              fun _ behind =>
                (readPrimary behind).andThen fun subtract ends =>
                  .ok (.exclusion base subtract base.location,
                    ends) := by
  rw [readDifference]
  grind [Reading.andThen, Reading.orElse]

theorem readDifference_unplaced (tokens : List Token) :
    readDifference (tokens.map Token.unplaced) =
      (readDifference tokens).unplaced Expression.unplaced := by
  rw [readDifference_eq, readDifference_eq, readPrimary_unplaced]
  refine andThen_unplaced fun base rest _ => ?_
  rw [take_unplaced]
  refine orElse_unplaced (fun _ others _ => ?_) rfl
  rw [take_unplaced]
  refine andThen_unplaced fun _ behind _ => ?_
  rw [readPrimary_unplaced]
  refine andThen_unplaced fun subtract ends _ => ?_
  rw [base.location_unplaced]
  rfl

------------------------------------------------------------
-- Chains
------------------------------------------------------------

theorem readFactors_eq (tokens : List Token) :
    readFactors tokens =
      (take (.keyword .and) .endOfLine tokens).orElse
        (.ok ([], tokens)) fun _ others =>
          (readDifference others).andThen fun factor behind =>
            (readFactors behind).andThen fun factors ends =>
              .ok (factor :: factors, ends) := by
  rw [readFactors]
  grind [Reading.andThen, Reading.orElse]

theorem readFactors_unplaced (tokens : List Token) :
    readFactors (tokens.map Token.unplaced) =
      (readFactors tokens).unplaced
        (List.map Expression.unplaced) := by
  rw [readFactors_eq, readFactors_eq tokens, take_unplaced]
  refine orElse_unplaced (fun _ others hAnd => ?_) rfl
  rw [readDifference_unplaced]
  refine andThen_unplaced fun factor behind hFactor => ?_
  rw [readFactors_unplaced behind]
  exact andThen_unplaced fun _ _ _ => rfl
termination_by tokens.length
decreasing_by
  have hOthers := take_shorter hAnd
  have hBehind := readDifference_shorter hFactor
  omega

/- A chain of operands, or the only one. -/
def chained
    (join : List Expression → Location → Expression)
    (first : Expression)
    (others : List Expression) : Expression :=
  if others = [] then
    first
  else
    join (first :: others) first.location

theorem chained_unplaced
    {join : List Expression → Location → Expression}
    (hJoin : ∀ operands location,
      (join operands location).unplaced =
        join (operands.map Expression.unplaced) {})
    (first : Expression)
    (others : List Expression) :
    chained join first.unplaced
        (others.map Expression.unplaced) =
      (chained join first others).unplaced := by
  by_cases hNone : others = []
  · simp [chained, hNone]
  · simp [chained, hNone, hJoin, first.location_unplaced]

theorem unplaced_intersection
    (operands : List Expression)
    (location : Location) :
    (Expression.intersection operands location).unplaced =
      .intersection (operands.map Expression.unplaced) {} := by
  rw [Expression.unplaced, unplacedOfAll_eq_map]

theorem unplaced_union
    (operands : List Expression)
    (location : Location) :
    (Expression.union operands location).unplaced =
      .union (operands.map Expression.unplaced) {} := by
  rw [Expression.unplaced, unplacedOfAll_eq_map]

theorem readProduct_eq (tokens : List Token) :
    readProduct tokens =
      (readDifference tokens).andThen fun first rest =>
        (readFactors rest).andThen fun factors behind =>
          .ok (chained .intersection first factors, behind) := by
  rw [readProduct]
  grind [Reading.andThen, chained]

theorem readProduct_unplaced (tokens : List Token) :
    readProduct (tokens.map Token.unplaced) =
      (readProduct tokens).unplaced Expression.unplaced := by
  rw [readProduct_eq, readProduct_eq, readDifference_unplaced]
  refine andThen_unplaced fun first rest _ => ?_
  rw [readFactors_unplaced]
  refine andThen_unplaced fun factors behind _ => ?_
  rw [chained_unplaced unplaced_intersection]
  rfl

theorem readSummands_eq (tokens : List Token) :
    readSummands tokens =
      (take (.keyword .or) .endOfLine tokens).orElse
        (.ok ([], tokens)) fun _ others =>
          (readProduct others).andThen fun summand behind =>
            (readSummands behind).andThen fun summands ends =>
              .ok (summand :: summands, ends) := by
  rw [readSummands]
  grind [Reading.andThen, Reading.orElse]

theorem readSummands_unplaced (tokens : List Token) :
    readSummands (tokens.map Token.unplaced) =
      (readSummands tokens).unplaced
        (List.map Expression.unplaced) := by
  rw [readSummands_eq, readSummands_eq tokens, take_unplaced]
  refine orElse_unplaced (fun _ others hOr => ?_) rfl
  rw [readProduct_unplaced]
  refine andThen_unplaced fun summand behind hSummand => ?_
  rw [readSummands_unplaced behind]
  exact andThen_unplaced fun _ _ _ => rfl
termination_by tokens.length
decreasing_by
  have hOthers := take_shorter hOr
  have hBehind := readProduct_shorter hSummand
  omega

theorem readUnion_eq (tokens : List Token) :
    readUnion tokens =
      (readProduct tokens).andThen fun first rest =>
        (readSummands rest).andThen fun summands behind =>
          .ok (chained .union first summands, behind) := by
  rw [readUnion]
  grind [Reading.andThen, chained]

theorem readUnion_unplaced (tokens : List Token) :
    readUnion (tokens.map Token.unplaced) =
      (readUnion tokens).unplaced Expression.unplaced := by
  rw [readUnion_eq, readUnion_eq, readProduct_unplaced]
  refine andThen_unplaced fun first rest _ => ?_
  rw [readSummands_unplaced]
  refine andThen_unplaced fun summands behind _ => ?_
  rw [chained_unplaced unplaced_union]
  rfl

------------------------------------------------------------
-- Relations and Types
------------------------------------------------------------

theorem readRelation_eq (tokens : List Token) :
    readRelation tokens =
      (take (.keyword .define) .defineKeyword tokens).andThen
        fun word rest =>
          (take .identifier .relationName rest).andThen
            fun name others =>
              (take (.mark .colon) .colon others).andThen
                fun _ behind =>
                  (readUnion behind).andThen
                    fun expression ends =>
                      (takeLineEnd ends).andThen fun _ next =>
                        .ok
                          ({ name := name.text
                             expression := expression
                             location := word.location },
                            next) := by
  rw [readRelation]
  rcases take (.keyword .define) .defineKeyword tokens with
    _ | ⟨word, rest⟩
  · rfl
  dsimp only [Reading.andThen]
  rcases take .identifier .relationName rest with
    _ | ⟨name, others⟩
  · rfl
  grind [Reading.andThen]

theorem readRelation_unplaced (tokens : List Token) :
    readRelation (tokens.map Token.unplaced) =
      (readRelation tokens).unplaced Relation.unplaced := by
  rw [readRelation_eq, readRelation_eq, take_unplaced]
  refine andThen_unplaced fun word rest _ => ?_
  rw [take_unplaced]
  refine andThen_unplaced fun name others _ => ?_
  rw [take_unplaced]
  refine andThen_unplaced fun _ behind _ => ?_
  rw [readUnion_unplaced]
  refine andThen_unplaced fun expression ends _ => ?_
  rw [takeLineEnd_unplaced]
  exact andThen_unplaced fun _ _ _ => rfl

theorem readRelations_eq (tokens : List Token) :
    readRelations tokens =
      if nextIs (.keyword .define) tokens then
        (readRelation tokens).andThen fun relation rest =>
          (readRelations rest).andThen fun relations behind =>
            .ok (relation :: relations, behind)
      else
        .ok ([], tokens) := by
  rw [readRelations]
  grind [Reading.andThen]

theorem readRelations_unplaced (tokens : List Token) :
    readRelations (tokens.map Token.unplaced) =
      (readRelations tokens).unplaced
        (List.map Relation.unplaced) := by
  rw [readRelations_eq, readRelations_eq tokens,
    nextIs_unplaced]
  by_cases hDefine : nextIs (.keyword .define) tokens = true
  · rw [if_pos hDefine, if_pos hDefine, readRelation_unplaced]
    refine andThen_unplaced fun relation rest hRelation => ?_
    rw [readRelations_unplaced rest]
    exact andThen_unplaced fun _ _ _ => rfl
  · rw [if_neg hDefine, if_neg hDefine]
    rfl
termination_by tokens.length
decreasing_by
  exact readRelation_shorter hRelation

theorem readRelationBlock_eq (tokens : List Token) :
    readRelationBlock tokens =
      (take .openBlock .endOfLine tokens).orElse
        (.ok ([], tokens)) fun _ rest =>
          (readRelations rest).andThen fun relations behind =>
            (take .closeBlock .defineKeyword behind).andThen
              fun _ others => .ok (relations, others) := by
  rw [readRelationBlock]
  grind [Reading.andThen, Reading.orElse]

theorem readRelationBlock_unplaced (tokens : List Token) :
    readRelationBlock (tokens.map Token.unplaced) =
      (readRelationBlock tokens).unplaced
        (List.map Relation.unplaced) := by
  rw [readRelationBlock_eq, readRelationBlock_eq, take_unplaced]
  refine orElse_unplaced (fun _ rest _ => ?_) rfl
  rw [readRelations_unplaced]
  refine andThen_unplaced fun relations behind _ => ?_
  rw [take_unplaced]
  exact andThen_unplaced fun _ _ _ => rfl

theorem readTypeBody_eq (tokens : List Token) :
    readTypeBody tokens =
      (take .openBlock .endOfLine tokens).orElse
        (.ok ([], tokens)) fun _ rest =>
          (take (.keyword .relations) .relationsKeyword
              rest).andThen fun _ others =>
            (takeLineEnd others).andThen fun _ behind =>
              (readRelationBlock behind).andThen
                fun relations ends =>
                  (take .closeBlock .endOfTypeBlock
                      ends).andThen fun _ next =>
                    .ok (relations, next) := by
  rw [readTypeBody]
  rcases take .openBlock .endOfLine tokens with
    _ | ⟨_, rest⟩
  · rfl
  dsimp only [Reading.orElse, Reading.andThen]
  rcases take (.keyword .relations) .relationsKeyword rest with
    _ | ⟨_, others⟩
  · rfl
  grind [Reading.andThen]

theorem readTypeBody_unplaced (tokens : List Token) :
    readTypeBody (tokens.map Token.unplaced) =
      (readTypeBody tokens).unplaced
        (List.map Relation.unplaced) := by
  rw [readTypeBody_eq, readTypeBody_eq, take_unplaced]
  refine orElse_unplaced (fun _ rest _ => ?_) rfl
  rw [take_unplaced]
  refine andThen_unplaced fun _ others _ => ?_
  rw [takeLineEnd_unplaced]
  refine andThen_unplaced fun _ behind _ => ?_
  rw [readRelationBlock_unplaced]
  refine andThen_unplaced fun relations ends _ => ?_
  rw [take_unplaced]
  exact andThen_unplaced fun _ _ _ => rfl

theorem readType_eq (tokens : List Token) :
    readType tokens =
      (take (.keyword .type) .typeKeyword tokens).andThen
        fun word rest =>
          (take .identifier .typeName rest).andThen
            fun name others =>
              (takeLineEnd others).andThen fun _ behind =>
                (readTypeBody behind).andThen
                  fun relations ends =>
                    .ok
                      ({ name := name.text
                         relations := relations
                         location := word.location },
                        ends) := by
  rw [readType]
  grind [Reading.andThen]

theorem readType_unplaced (tokens : List Token) :
    readType (tokens.map Token.unplaced) =
      (readType tokens).unplaced TypeBlock.unplaced := by
  rw [readType_eq, readType_eq, take_unplaced]
  refine andThen_unplaced fun word rest _ => ?_
  rw [take_unplaced]
  refine andThen_unplaced fun name others _ => ?_
  rw [takeLineEnd_unplaced]
  refine andThen_unplaced fun _ behind _ => ?_
  rw [readTypeBody_unplaced]
  exact andThen_unplaced fun _ _ _ => rfl

------------------------------------------------------------
-- Models
------------------------------------------------------------

/- A result without places. -/
def forgetting
    {Part : Type}
    (forget : Part → Part) :
    Except SourceError Part → Except SourceError Part
  | .error error => .error error.unplaced
  | .ok part => .ok (forget part)

theorem skipNewlines_unplaced (tokens : List Token) :
    skipNewlines (tokens.map Token.unplaced) =
      (skipNewlines tokens).map Token.unplaced :=
  List.dropWhile_map ..

theorem readTypes_eq
    (headerOpen : Bool)
    (tokens : List Token) :
    readTypes headerOpen tokens =
      match skipNewlines tokens with
      | [] => .ok []
      | token :: rest =>
          if token.kind = .endOfSource then
            .ok []
          else if headerOpen ∧ token.kind = .closeBlock then
            readTypes false rest
          else
            match readType (token :: rest) with
            | .error error => .error error
            | .ok (block, behind) =>
                (readTypes headerOpen behind).map (block :: ·) := by
  rw [readTypes]
  grind [Except.map]

theorem readTypes_unplaced
    (headerOpen : Bool)
    (tokens : List Token) :
    readTypes headerOpen (tokens.map Token.unplaced) =
      forgetting (List.map TypeBlock.unplaced)
        (readTypes headerOpen tokens) := by
  rw [readTypes_eq, readTypes_eq headerOpen tokens,
    skipNewlines_unplaced]
  cases hSkip : skipNewlines tokens with
  | nil => rfl
  | cons token rest =>
      have hKind : token.unplaced.kind = token.kind := rfl
      rw [List.map_cons]
      dsimp only
      rw [hKind]
      by_cases hEnd : token.kind = .endOfSource
      · rw [if_pos hEnd, if_pos hEnd]
        rfl
      · rw [if_neg hEnd, if_neg hEnd]
        by_cases hClose :
          headerOpen = true ∧ token.kind = .closeBlock
        · rw [if_pos hClose, if_pos hClose]
          exact readTypes_unplaced false rest
        · rw [if_neg hClose, if_neg hClose, ← List.map_cons,
            readType_unplaced]
          rcases hType : readType (token :: rest) with
            error | ⟨block, behind⟩
          · rfl
          · dsimp only [Reading.unplaced]
            rw [readTypes_unplaced headerOpen behind]
            cases readTypes headerOpen behind <;> rfl
termination_by tokens.length
decreasing_by
  all_goals
    have hNotLonger := skipNewlines_not_longer tokens
    rw [hSkip, List.length_cons] at hNotLonger
  · omega
  · have hShorter := readType_shorter hType
    rw [List.length_cons] at hShorter
    omega

/- A model is read up to places from tokens up to places. -/
theorem ofTokens_unplaced (tokens : List Token) :
    ofTokens (tokens.map Token.unplaced) =
      forgetting unplaced (ofTokens tokens) := by
  by_cases hNone : tokens = []
  · rw [hNone]
    rfl
  · have hSome : tokens.map Token.unplaced ≠ [] := by
      simpa using hNone
    rw [ofTokens, ofTokens, if_neg hNone, if_neg hSome,
      skipNewlines_unplaced, take_unplaced]
    rcases take (.keyword .model) .modelKeyword
      (skipNewlines tokens) with error | ⟨word, rest⟩
    · rfl
    dsimp only [Reading.unplaced]
    rw [skipNewlines_unplaced, nextIs_unplaced]
    have hHeader (opened : Bool) (header : List Token) :
        (if opened = true then (header.map Token.unplaced).tail
          else header.map Token.unplaced) =
          (if opened = true then header.tail
            else header).map Token.unplaced := by
      cases opened <;> simp
    rw [hHeader, take_unplaced]
    generalize (if nextIs .openBlock (skipNewlines rest) = true
      then (skipNewlines rest).tail
      else skipNewlines rest) = header
    rcases take (.keyword .schema) .schemaKeyword header with
      error | ⟨_, others⟩
    · rfl
    dsimp only [Reading.unplaced]
    rw [take_unplaced]
    rcases take .version .schemaVersion others with
      error | ⟨version, behind⟩
    · rfl
    dsimp only [Reading.unplaced]
    rw [readTypes_unplaced]
    cases readTypes _ behind <;> rfl

end Declaration

end Rebac
