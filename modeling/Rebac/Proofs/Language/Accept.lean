import Rebac.Language.Read
import Rebac.Proofs.Language.Spelling

/-
  This file proves that every spelling of a well-formed
  expression is read, and as that expression.

  How far a reader goes depends on the lexeme behind the
  spelling. Each reader is shown to stop where this lexeme
  does not go on with what it reads. What is read agrees with
  what was spelled up to places.

  Key definitions include:
    * `Declaration.unplaced`
    * `Lexeme.Stops`
    * `Declaration.Reads`
    * `Declaration.ReadBy`
    * `Declaration.Chains`

  Key theorems include:
    * `Declaration.readBy_union`
-/

namespace Rebac

namespace Declaration

------------------------------------------------------------
-- Places
------------------------------------------------------------

def TypeRef.unplaced (entry : TypeRef) : TypeRef :=
  { entry with location := {} }

mutual

def Expression.unplaced : Expression → Expression
  | .direct entries _ =>
      .direct (entries.map TypeRef.unplaced) {}
  | .computed relation _ => .computed relation {}
  | .tupleToUserset tupleset relation _ =>
      .tupleToUserset tupleset relation {}
  | .union operands _ => .union (unplacedOfAll operands) {}
  | .intersection operands _ =>
      .intersection (unplacedOfAll operands) {}
  | .exclusion base subtract _ =>
      .exclusion base.unplaced subtract.unplaced {}

def unplacedOfAll : List Expression → List Expression
  | [] => []
  | operand :: others =>
      operand.unplaced :: unplacedOfAll others

end

def Relation.unplaced (relation : Relation) : Relation :=
  { name := relation.name
    expression := relation.expression.unplaced
    location := {} }

def TypeBlock.unplaced (block : TypeBlock) : TypeBlock :=
  { name := block.name
    relations := block.relations.map Relation.unplaced
    location := {} }

/- A declaration with every part in the same place. -/
def unplaced (declaration : Declaration) : Declaration :=
  { schemaVersion := declaration.schemaVersion
    types := declaration.types.map TypeBlock.unplaced
    location := {} }

theorem unplacedOfAll_eq_map (operands : List Expression) :
    unplacedOfAll operands =
      operands.map Expression.unplaced := by
  induction operands with
  | nil => rfl
  | cons operand others ih =>
      rw [unplacedOfAll, ih, List.map_cons]

end Declaration

------------------------------------------------------------
-- Following Lexemes
------------------------------------------------------------

namespace Lexeme

/- The kind of the tokens that say a lexeme. -/
def kind : Lexeme → TokenKind
  | .keyword word => .keyword word
  | .mark sign => .mark sign
  | .identifier _ => .identifier
  | .version _ => .version
  | .newline => .newline
  | .openBlock => .openBlock
  | .closeBlock => .closeBlock
  | .endOfSource => .endOfSource

/- Whether no lexeme of some kinds comes first. -/
def Stops
    (kinds : List TokenKind)
    (after : List Lexeme) : Prop :=
  ∀ lexeme ∈ after.head?, lexeme.kind ∉ kinds

theorem Stops.cons
    {kinds : List TokenKind}
    {lexeme : Lexeme}
    (hKind : lexeme.kind ∉ kinds)
    (after : List Lexeme) :
    Stops kinds (lexeme :: after) := by
  intro found hFound
  cases hFound
  exact hKind

theorem Stops.mono
    {kinds fewer : List TokenKind}
    {after : List Lexeme}
    (hStops : Stops kinds after)
    (hFewer : fewer ⊆ kinds) :
    Stops fewer after :=
  fun lexeme hLexeme hKind =>
    hStops lexeme hLexeme (hFewer hKind)

end Lexeme

namespace Token

theorem kind_of_lexeme
    {token : Token}
    {lexeme : Lexeme}
    (hLexeme : token.lexeme = lexeme) :
    token.kind = lexeme.kind := by
  cases hLexeme
  rcases token with ⟨kind, text, location⟩
  cases kind <;> rfl

variable {tokens : List Token}
variable {after : List Lexeme}

/- The first token has the kind of the first lexeme. -/
theorem exists_of_cons
    {lexeme : Lexeme}
    (hTokens : tokens.map Token.lexeme = lexeme :: after) :
    ∃ text location rest,
      tokens = ⟨lexeme.kind, text, location⟩ :: rest ∧
        rest.map Token.lexeme = after := by
  rcases List.map_eq_cons_iff.mp hTokens with
    ⟨⟨kind, text, location⟩, rest, rfl, hToken, hRest⟩
  cases kind_of_lexeme hToken
  exact ⟨text, location, rest, rfl, hRest⟩

/- An identifier comes with its name. -/
theorem exists_of_identifier
    {name : Bytes}
    (hTokens :
      tokens.map Token.lexeme = .identifier name :: after) :
    ∃ location rest,
      tokens = ⟨.identifier, name, location⟩ :: rest ∧
        rest.map Token.lexeme = after := by
  rcases List.map_eq_cons_iff.mp hTokens with
    ⟨⟨kind, text, location⟩, rest, rfl, hToken, hRest⟩
  cases kind_of_lexeme hToken
  cases hToken
  exact ⟨location, rest, rfl, hRest⟩

theorem exists_of_version
    {number : Bytes}
    (hTokens :
      tokens.map Token.lexeme = .version number :: after) :
    ∃ location rest,
      tokens = ⟨.version, number, location⟩ :: rest ∧
        rest.map Token.lexeme = after := by
  rcases List.map_eq_cons_iff.mp hTokens with
    ⟨⟨kind, text, location⟩, rest, rfl, hToken, hRest⟩
  cases kind_of_lexeme hToken
  cases hToken
  exact ⟨location, rest, rfl, hRest⟩

/- The next token is of no kind that is not to come first. -/
theorem kind_not_mem
    {token : Token}
    {kinds : List TokenKind}
    (hStops : Lexeme.Stops kinds (lexeme token :: after)) :
    token.kind ∉ kinds := by
  rw [kind_of_lexeme rfl]
  exact hStops token.lexeme rfl

end Token

namespace Declaration

open Lexeme (Stops)

variable {tokens rest : List Token}
variable {after : List Lexeme}

/-
  Whether a reader takes certain lexemes off any tokens that
  say them, with certain others behind, and returns a part
  as wanted.
-/
def Reads
    {Part : Type}
    (reader : List Token → Reading Part)
    (Wanted : Part → Prop)
    (lexemes after : List Lexeme) : Prop :=
  ∀ tokens, tokens.map Token.lexeme = lexemes ++ after →
    ∃ part rest, reader tokens = .ok (part, rest) ∧
      Wanted part ∧ rest.map Token.lexeme = after

/-
  Whether a reader reads every spelling of an expression, if
  lexemes of some kinds do not follow.
-/
def ReadBy
    (inner : List Token → Reading Expression)
    (kinds : List TokenKind)
    (expression : Expression) : Prop :=
  ∀ {lexemes after}, expression.Spelled lexemes →
    Stops kinds after →
      Reads inner (·.unplaced = expression.unplaced) lexemes
        after

theorem take_cons
    {token : Token}
    {kind : TokenKind}
    {expected : Expectation}
    (hKind : token.kind = kind) :
    take kind expected (token :: rest) = .ok (token, rest) :=
  if_pos hKind

/- A token of another kind is not taken. -/
theorem take_error
    {kind : TokenKind}
    (expected : Expectation)
    (hTokens : tokens.map Token.lexeme = after)
    (hStops : Stops [kind] after) :
    ∃ error, take kind expected tokens = .error error := by
  cases tokens with
  | nil => exact ⟨_, rfl⟩
  | cons token others =>
      cases hTokens
      have hKind := Token.kind_not_mem hStops
      rw [List.mem_singleton] at hKind
      exact ⟨_, if_neg hKind⟩

------------------------------------------------------------
-- Primaries
------------------------------------------------------------

theorem reads_entry
    (entry : TypeRef)
    (hStops : Stops [.mark .hash, .mark .colon] after) :
    Reads readEntry (·.unplaced = entry.unplaced) entry.lexemes
      after := by
  rcases entry with ⟨spec, location⟩
  intro tokens hTokens
  cases spec with
  | any =>
      rcases Token.exists_of_cons hTokens with
        ⟨_, _, rest, rfl, hRest⟩
      exact ⟨_, rest, rfl, rfl, hRest⟩
  | plain type =>
      rcases Token.exists_of_identifier hTokens with
        ⟨_, rest, rfl, hRest⟩
      cases rest with
      | nil => exact ⟨_, [], rfl, rfl, hRest⟩
      | cons next others =>
          cases hRest
          have hNext := Token.kind_not_mem hStops
          rw [List.mem_pair, not_or] at hNext
          exact ⟨_, next :: others,
            (if_neg hNext.1).trans (if_neg hNext.2), rfl, rfl⟩
  | userset type relation =>
      rcases Token.exists_of_identifier hTokens with
        ⟨_, _, rfl, hOthers⟩
      rcases Token.exists_of_cons hOthers with
        ⟨_, _, _, rfl, hBehind⟩
      rcases Token.exists_of_identifier hBehind with
        ⟨_, rest, rfl, hRest⟩
      exact ⟨_, rest, rfl, rfl, hRest⟩
  | wildcard type =>
      rcases Token.exists_of_identifier hTokens with
        ⟨_, _, rfl, hOthers⟩
      rcases Token.exists_of_cons hOthers with
        ⟨_, _, _, rfl, hBehind⟩
      rcases Token.exists_of_cons hBehind with
        ⟨_, _, rest, rfl, hRest⟩
      exact ⟨_, rest, rfl, rfl, hRest⟩

theorem readEntries_last
    {entry : TypeRef}
    {error : SourceError}
    (hEntry : readEntry tokens = .ok (entry, rest))
    (hComma :
      take (.mark .comma) .closingBracket rest = .error error) :
    readEntries tokens = .ok ([entry], rest) := by
  unfold readEntries
  grind

theorem readEntries_more
    {entry : TypeRef}
    {entries : List TypeRef}
    {comma : Token}
    {others behind : List Token}
    (hEntry : readEntry tokens = .ok (entry, rest))
    (hComma :
      take (.mark .comma) .closingBracket rest =
        .ok (comma, others))
    (hMore : readEntries others = .ok (entries, behind)) :
    readEntries tokens = .ok (entry :: entries, behind) := by
  rw [readEntries]
  grind

theorem reads_entries
    {entries : List TypeRef}
    (hSome : entries ≠ [])
    (after : List Lexeme) :
    Reads readEntries
      (·.map TypeRef.unplaced = entries.map TypeRef.unplaced)
      ([.mark .comma].intercalate (entries.map TypeRef.lexemes))
      (.mark .closeBracket :: after) := by
  induction entries with
  | nil => exact absurd rfl hSome
  | cons entry others ih =>
      intro tokens hTokens
      cases others with
      | nil =>
          rw [List.map_singleton, List.intercalate_singleton]
            at hTokens
          rcases reads_entry entry (.cons (by decide) _) tokens
            hTokens with ⟨found, rest, hFound, hSame, hRest⟩
          have hComma : Stops [.mark .comma]
              (.mark .closeBracket :: after) :=
            .cons (by decide) _
          rcases take_error .closingBracket hRest hComma with
            ⟨error, hError⟩
          exact ⟨[found], rest, readEntries_last hFound hError,
            congrArg ([·]) hSame, hRest⟩
      | cons next more =>
          rw [List.map_cons,
            List.intercalate_cons_of_ne_nil (by simp),
            List.append_assoc, List.append_assoc] at hTokens
          rcases reads_entry entry (.cons (by decide) _) tokens
            hTokens with ⟨first, behind, hFirst, hSame, hBehind⟩
          rcases Token.exists_of_cons hBehind with
            ⟨_, _, others, rfl, hOthers⟩
          rcases ih (List.cons_ne_nil _ _) others hOthers with
            ⟨found, rest, hFound, hRest⟩
          exact ⟨first :: found, rest,
            readEntries_more hFirst rfl hFound,
            congrArg₂ (· :: ·) hSame hRest.1, hRest.2⟩

/- What a name can go on with. -/
abbrev behindName : List TokenKind :=
  [.mark .arrow, .keyword .via]

variable {expression : Expression}
variable {lexemes : List Lexeme}

theorem readBy_primary
    (hPrimary : expression.IsPrimary) :
    ReadBy readPrimary behindName expression := by
  intro lexemes after hSpelled hStops tokens hTokens
  cases hSpelled with
  | direct entries location =>
      rw [List.cons_append, List.append_assoc] at hTokens
      rcases Token.exists_of_cons hTokens with
        ⟨_, here, inner, rfl, hInner⟩
      rcases reads_entries hPrimary.1 after inner hInner with
        ⟨found, behind, hFound, hSame, hBehind⟩
      rcases Token.exists_of_cons hBehind with
        ⟨_, _, rest, rfl, hRest⟩
      refine ⟨.direct found here, rest, ?_, ?_, hRest⟩
      · simp [readPrimary, take, Lexeme.kind, hFound]
      · exact congrArg (Expression.direct · {}) hSame
  | computed relation location =>
      rcases Token.exists_of_identifier hTokens with
        ⟨_, rest, rfl, hRest⟩
      cases rest with
      | nil => exact ⟨_, [], rfl, rfl, hRest⟩
      | cons next others =>
          cases hRest
          have hNext := Token.kind_not_mem hStops
          rw [List.mem_pair, not_or] at hNext
          exact ⟨_, next :: others,
            (if_neg hNext.1).trans (if_neg hNext.2), rfl, rfl⟩
  | arrow tupleset relation location =>
      rcases Token.exists_of_identifier hTokens with
        ⟨_, _, rfl, hOthers⟩
      rcases Token.exists_of_cons hOthers with
        ⟨_, _, _, rfl, hBehind⟩
      rcases Token.exists_of_identifier hBehind with
        ⟨_, rest, rfl, hRest⟩
      exact ⟨_, rest, rfl, rfl, hRest⟩
  | via tupleset relation location =>
      rcases Token.exists_of_identifier hTokens with
        ⟨_, _, rfl, hOthers⟩
      rcases Token.exists_of_cons hOthers with
        ⟨_, _, _, rfl, hBehind⟩
      rcases Token.exists_of_identifier hBehind with
        ⟨_, rest, rfl, hRest⟩
      exact ⟨_, rest, rfl, rfl, hRest⟩
  | union => cases hPrimary
  | intersection => cases hPrimary
  | exclusion => cases hPrimary

------------------------------------------------------------
-- Operators
------------------------------------------------------------

/- What a primary can go on with. -/
abbrev behindPrimary : List TokenKind :=
  .keyword .but :: behindName

/- What a difference can go on with. -/
abbrev behindDifference : List TokenKind :=
  .keyword .and :: behindPrimary

/- What a product can go on with. -/
abbrev behindProduct : List TokenKind :=
  .keyword .or :: behindDifference

theorem readBy_difference_of_primary
    (hPrimary : expression.IsPrimary) :
    ReadBy readDifference behindPrimary expression := by
  intro lexemes after hSpelled hStops tokens hTokens
  rcases readBy_primary hPrimary hSpelled
    (hStops.mono (by simp)) tokens hTokens with
    ⟨found, rest, hFound, hSame, hRest⟩
  have hBut : Stops [.keyword .but] after :=
    hStops.mono (by simp)
  rcases take_error .endOfLine hRest hBut with ⟨error, hError⟩
  refine ⟨found, rest, ?_, hSame, hRest⟩
  simp only [readDifference, hFound, hError]

theorem readBy_difference
    (hDifference : expression.IsDifference) :
    ReadBy readDifference behindPrimary expression := by
  cases expression with
  | exclusion base subtract location =>
      rcases hDifference with ⟨hBase, hSubtract⟩
      intro lexemes after hSpelled hStops tokens hTokens
      cases hSpelled with
      | exclusion _ hFirst hSecond =>
          rw [List.append_assoc] at hTokens
          rcases readBy_primary hBase hFirst
            (.cons (by decide) _) tokens hTokens with
            ⟨kept, behind, hKept, hSame, hBehind⟩
          rcases Token.exists_of_cons hBehind with
            ⟨_, _, _, rfl, hOthers⟩
          rcases Token.exists_of_cons hOthers with
            ⟨_, _, others, rfl, hNext⟩
          rcases readBy_primary hSubtract hSecond
            (hStops.mono (by simp)) others hNext with
            ⟨removed, rest, hRemoved, hOther, hRest⟩
          refine ⟨.exclusion kept removed kept.location, rest,
            ?_, ?_, hRest⟩
          · simp [readDifference, take, Lexeme.kind, hKept,
              hRemoved]
          · exact congrArg₂ (Expression.exclusion · · {})
              hSame hOther
  | _ =>
      apply readBy_difference_of_primary
      exact hDifference

/-
  Whether a reader takes further operands as long as it finds
  a word before them. Each operand is left to another reader.
-/
structure Chains
    (word : Keyword)
    (inner : List Token → Reading Expression)
    (further : List Token → Reading (List Expression)) :
    Prop where
  ends : ∀ {tokens error},
    take (.keyword word) .endOfLine tokens = .error error →
      further tokens = .ok ([], tokens)
  goesOn : ∀ {tokens token others operand behind operands rest},
    take (.keyword word) .endOfLine tokens =
        .ok (token, others) →
      inner others = .ok (operand, behind) →
        further behind = .ok (operands, rest) →
          further tokens = .ok (operand :: operands, rest)

theorem chains_factors :
    Chains .and readDifference readFactors where
  ends hAnd := by
    unfold readFactors
    grind
  goesOn hAnd hFactor hMore := by
    rw [readFactors]
    grind

theorem chains_summands :
    Chains .or readProduct readSummands where
  ends hOr := by
    unfold readSummands
    grind
  goesOn hOr hSummand hMore := by
    rw [readSummands]
    grind

section Chains

variable {word : Keyword}
variable {inner : List Token → Reading Expression}
variable {further : List Token → Reading (List Expression)}
variable {kinds : List TokenKind}

/- Behind an operand there is a further one or the end. -/
theorem stops_operands
    (hWord : .keyword word ∉ kinds)
    (hStops : Stops kinds after)
    (pieces : List (List Lexeme)) :
    Stops kinds
      ((pieces.flatMap fun piece => .keyword word :: piece) ++
        after) := by
  cases pieces with
  | nil => exact hStops
  | cons piece others => exact .cons hWord _

/- Without its word a reader finds no further operands. -/
theorem Chains.alone
    (hChains : Chains word inner further)
    (hInner : ReadBy inner kinds expression)
    (hSpelled : expression.Spelled lexemes)
    (hStops : Stops (.keyword word :: kinds) after)
    (hTokens : tokens.map Token.lexeme = lexemes ++ after) :
    ∃ found rest, inner tokens = .ok (found, rest) ∧
      further rest = .ok ([], rest) ∧
        found.unplaced = expression.unplaced ∧
          rest.map Token.lexeme = after := by
  rcases hInner hSpelled (hStops.mono (by simp)) tokens hTokens
    with ⟨found, rest, hFound, hSame, hRest⟩
  have hWord : Stops [.keyword word] after :=
    hStops.mono (by simp)
  rcases take_error .endOfLine hRest hWord with ⟨error, hError⟩
  exact ⟨found, rest, hFound, hChains.ends hError, hSame, hRest⟩

theorem Chains.reads_further
    {operands : List Expression}
    {pieces : List (List Lexeme)}
    (hChains : Chains word inner further)
    (hWord : .keyword word ∉ kinds)
    (hInner : ∀ operand ∈ operands, ReadBy inner kinds operand)
    (hSpelled : List.Forall₂ Expression.Spelled operands pieces)
    (hStops : Stops (.keyword word :: kinds) after) :
    Reads further
      (·.map Expression.unplaced =
        operands.map Expression.unplaced)
      (pieces.flatMap fun piece => .keyword word :: piece)
      after := by
  induction hSpelled with
  | nil =>
      intro tokens hTokens
      have hEnd : Stops [.keyword word] after :=
        hStops.mono (by simp)
      rcases take_error .endOfLine hTokens hEnd with
        ⟨error, hError⟩
      exact ⟨[], tokens, hChains.ends hError, rfl, hTokens⟩
  | cons hFirst hOthers ih =>
      rcases List.forall_mem_cons.mp hInner with ⟨hHead, hMore⟩
      intro tokens hTokens
      rw [List.flatMap_cons, List.append_assoc] at hTokens
      rcases Token.exists_of_cons hTokens with
        ⟨_, _, others, rfl, hBehind⟩
      rcases hHead hFirst
        (stops_operands hWord (hStops.mono (by simp)) _)
        others hBehind with
        ⟨found, behind, hFound, hSame, hEnds⟩
      rcases ih hMore behind hEnds with
        ⟨operands, rest, hOperands, hAll, hRest⟩
      exact ⟨found :: operands, rest,
        hChains.goesOn (take_cons rfl) hFound hOperands,
        congrArg₂ (· :: ·) hSame hAll, hRest⟩

/- Of several operands the first and all further are found. -/
theorem Chains.several
    {operands : List Expression}
    {pieces : List (List Lexeme)}
    (hChains : Chains word inner further)
    (hWord : .keyword word ∉ kinds)
    (hTwo : 2 ≤ operands.length)
    (hInner : ∀ operand ∈ operands, ReadBy inner kinds operand)
    (hSpelled : List.Forall₂ Expression.Spelled operands pieces)
    (hStops : Stops (.keyword word :: kinds) after)
    (hTokens :
      tokens.map Token.lexeme =
        [.keyword word].intercalate pieces ++ after) :
    ∃ first behind second more rest,
      inner tokens = .ok (first, behind) ∧
        further behind = .ok (second :: more, rest) ∧
          (first :: second :: more).map Expression.unplaced =
            operands.map Expression.unplaced ∧
              rest.map Token.lexeme = after := by
  cases hSpelled with
  | nil => cases hTwo
  | cons hFirst hOthers =>
      rcases List.forall_mem_cons.mp hInner with ⟨hHead, hMore⟩
      rw [intercalate_cons, List.append_assoc] at hTokens
      rcases hHead hFirst
        (stops_operands hWord (hStops.mono (by simp)) _)
        tokens hTokens with
        ⟨first, behind, hFound, hSame, hBehind⟩
      rcases hChains.reads_further hWord hMore hOthers hStops
        behind hBehind with
        ⟨found, rest, hFurther, hAll, hRest⟩
      -- As many operands are found as are spelled.
      have hLength := congrArg List.length hAll
      rw [List.length_map, List.length_map] at hLength
      cases found with
      | nil =>
          rw [List.length_cons, ← hLength] at hTwo
          exact absurd hTwo (by decide)
      | cons second more =>
          exact ⟨first, behind, second, more, rest, hFound,
            hFurther, congrArg₂ (· :: ·) hSame hAll, hRest⟩

end Chains

theorem readBy_product_of_difference
    (hDifference : expression.IsDifference) :
    ReadBy readProduct behindDifference expression := by
  intro lexemes after hSpelled hStops tokens hTokens
  rcases chains_factors.alone (readBy_difference hDifference)
    hSpelled hStops hTokens with
    ⟨found, rest, hFound, hNone, hSame, hRest⟩
  refine ⟨found, rest, ?_, hSame, hRest⟩
  simp only [readProduct, hFound, hNone]

theorem readBy_product
    (hProduct : expression.IsProduct) :
    ReadBy readProduct behindDifference expression := by
  cases expression with
  | intersection operands location =>
      rcases hProduct with ⟨hTwo, hEach⟩
      intro lexemes after hSpelled hStops tokens hTokens
      cases hSpelled with
      | intersection _ hPieces =>
          rcases chains_factors.several (by decide) hTwo
            (fun operand hOperand =>
              readBy_difference (hEach operand hOperand))
            hPieces hStops hTokens with
            ⟨first, behind, second, more, rest, hFirst,
              hFactors, hSame, hRest⟩
          refine ⟨.intersection (first :: second :: more)
            first.location, rest, ?_, ?_, hRest⟩
          · simp only [readProduct, hFirst, hFactors]
          · simp only [Expression.unplaced,
              unplacedOfAll_eq_map, hSame]
  | _ =>
      apply readBy_product_of_difference
      exact hProduct

theorem readBy_union_of_product
    (hProduct : expression.IsProduct) :
    ReadBy readUnion behindProduct expression := by
  intro lexemes after hSpelled hStops tokens hTokens
  rcases chains_summands.alone (readBy_product hProduct)
    hSpelled hStops hTokens with
    ⟨found, rest, hFound, hNone, hSame, hRest⟩
  refine ⟨found, rest, ?_, hSame, hRest⟩
  simp only [readUnion, hFound, hNone]

/- Every spelling of a union is read as it, up to places. -/
theorem readBy_union
    (hUnion : expression.IsUnion) :
    ReadBy readUnion behindProduct expression := by
  cases expression with
  | union operands location =>
      rcases hUnion with ⟨hTwo, hEach⟩
      intro lexemes after hSpelled hStops tokens hTokens
      cases hSpelled with
      | union _ hPieces =>
          rcases chains_summands.several (by decide) hTwo
            (fun operand hOperand =>
              readBy_product (hEach operand hOperand))
            hPieces hStops hTokens with
            ⟨first, behind, second, more, rest, hFirst,
              hSummands, hSame, hRest⟩
          refine ⟨.union (first :: second :: more)
            first.location, rest, ?_, ?_, hRest⟩
          · simp only [readUnion, hFirst, hSummands]
          · simp only [Expression.unplaced,
              unplacedOfAll_eq_map, hSame]
  | _ =>
      apply readBy_union_of_product
      exact hUnion

end Declaration

end Rebac
