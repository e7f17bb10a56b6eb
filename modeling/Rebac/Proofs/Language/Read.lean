import Rebac.Language.Read
import Rebac.Proofs.Language.Spelling

/-
  This file proves what is read from a source: a declaration
  that is well-formed and that the source spells.

  Each reader is shown to take tokens from the head whose
  contents spell what it returns, and to take nothing else.
  So no token of a source is dropped, invented or moved.

  Key definitions include:
    * `Token.Taken`

  Key theorems include:
    * `Declaration.spelled_of_read`
    * `Declaration.wellFormed_of_read`
-/

namespace Rebac

------------------------------------------------------------
-- Taken Tokens
------------------------------------------------------------

namespace Token

/- Whether tokens with some contents are taken from the head. -/
def Taken
    (tokens rest : List Token)
    (lexemes : List Lexeme) : Prop :=
  ∃ front, tokens = front ++ rest ∧ contents front = lexemes

variable {tokens rest behind : List Token}
variable {lexemes more : List Lexeme}

theorem Taken.refl (tokens : List Token) :
    Taken tokens tokens [] :=
  ⟨[], rfl, rfl⟩

theorem Taken.trans
    (hFirst : Taken tokens rest lexemes)
    (hSecond : Taken rest behind more) :
    Taken tokens behind (lexemes ++ more) := by
  rcases hFirst with ⟨front, rfl, rfl⟩
  rcases hSecond with ⟨middle, rfl, rfl⟩
  exact ⟨front ++ middle, (List.append_assoc ..).symm,
    contents_append front middle⟩

theorem Taken.suffix
    (hTaken : Taken tokens rest lexemes) :
    rest <:+ tokens := by
  rcases hTaken with ⟨front, rfl, _⟩
  exact List.suffix_append front rest

/- What is taken and what is left have the contents together. -/
theorem Taken.contents_eq
    (hTaken : Taken tokens rest lexemes) :
    contents tokens = lexemes ++ contents rest := by
  rcases hTaken with ⟨front, rfl, rfl⟩
  exact contents_append front rest

/- A token of layout is taken without contents. -/
theorem Taken.layout
    {token : Token}
    {kind : TokenKind}
    (hKind : token.kind = kind)
    (hLayout : kind.IsLayout) :
    Taken (token :: rest) rest [] :=
  ⟨[token], rfl, contents_of_layout (hKind ▸ hLayout)⟩

/- Any other token is taken with its lexeme. -/
theorem Taken.source
    {token : Token}
    {kind : TokenKind}
    (hKind : token.kind = kind)
    (hSource : ¬ kind.IsLayout) :
    Taken (token :: rest) rest [kind.lexeme token.text] := by
  cases hKind
  exact ⟨[token], rfl, contents_singleton hSource⟩

end Token

namespace Declaration

open Token (Taken Complete)

section Take

variable {expected : Expectation}
variable {tokens rest : List Token}
variable {token : Token}

/- A token that is taken is the first one, and of its kind. -/
theorem take_eq_ok
    {kind : TokenKind}
    (hTake : take kind expected tokens = .ok (token, rest)) :
    token.kind = kind ∧ tokens = token :: rest := by
  unfold take at hTake
  split at hTake
  · cases hTake
  · split at hTake
    · next hKind =>
        cases hTake
        exact ⟨hKind, rfl⟩
    · cases hTake

theorem take_layout
    {kind : TokenKind}
    (hTake : take kind expected tokens = .ok (token, rest))
    (hLayout : kind.IsLayout) :
    Taken tokens rest [] := by
  rcases take_eq_ok hTake with ⟨hKind, rfl⟩
  exact .layout hKind hLayout

theorem take_source
    {kind : TokenKind}
    (hTake : take kind expected tokens = .ok (token, rest))
    (hSource : ¬ kind.IsLayout) :
    Taken tokens rest [kind.lexeme token.text] := by
  rcases take_eq_ok hTake with ⟨hKind, rfl⟩
  exact .source hKind hSource

/- An identifier that is taken is a name and no keyword. -/
theorem take_isIdentifier
    (hComplete : Complete tokens)
    (hTake :
      take .identifier expected tokens = .ok (token, rest)) :
    Lexeme.IsIdentifier token.text := by
  rcases take_eq_ok hTake with ⟨hKind, rfl⟩
  have hGenuine := hComplete.genuine token List.mem_cons_self
  rw [Token.Genuine, hKind] at hGenuine
  exact hGenuine

theorem take_isVersion
    (hComplete : Complete tokens)
    (hTake :
      take .version expected tokens = .ok (token, rest)) :
    Lexeme.IsVersion token.text := by
  rcases take_eq_ok hTake with ⟨hKind, rfl⟩
  have hGenuine := hComplete.genuine token List.mem_cons_self
  rw [Token.Genuine, hKind] at hGenuine
  exact hGenuine

theorem takeLineEnd_taken
    (hTake : takeLineEnd tokens = .ok ((), rest)) :
    Taken tokens rest [] := by
  unfold takeLineEnd at hTake
  split at hTake
  · cases hTake
    exact .refl _
  · split at hTake
    · next hKind =>
        cases hTake
        exact .layout hKind trivial
    · split at hTake
      · cases hTake
        exact .refl _
      · cases hTake

end Take

variable {tokens rest : List Token}
variable {expression : Expression}

------------------------------------------------------------
-- Primaries
------------------------------------------------------------

theorem readEntry_spec
    {entry : TypeRef}
    (hComplete : Complete tokens)
    (hRead : readEntry tokens = .ok (entry, rest)) :
    entry.Named ∧ Taken tokens rest entry.lexemes := by
  unfold readEntry at hRead
  split at hRead
  · next hStar =>
      cases hRead
      exact ⟨trivial, take_source hStar id⟩
  · split at hRead
    · cases hRead
    · next hType =>
        have hName := take_isIdentifier hComplete hType
        have hBehind := take_source hType id
        have hLeft := hComplete.of_suffix hBehind.suffix
        split at hRead
        · cases hRead
          exact ⟨hName, hBehind⟩
        · next head others =>
            have hOthers : Complete others :=
              hLeft.of_suffix (List.suffix_cons head others)
            split at hRead
            · next hHash =>
                split at hRead
                · cases hRead
                · next hRelation =>
                    cases hRead
                    exact ⟨⟨hName,
                        take_isIdentifier hOthers hRelation⟩,
                      hBehind.trans
                        ((Taken.source hHash id).trans
                          (take_source hRelation id))⟩
            · split at hRead
              · next hColon =>
                  split at hRead
                  · cases hRead
                  · next hStar =>
                      cases hRead
                      exact ⟨hName,
                        hBehind.trans
                          ((Taken.source hColon id).trans
                            (take_source hStar id))⟩
              · cases hRead
                exact ⟨hName, hBehind⟩

theorem readEntries_spec
    {entries : List TypeRef}
    (hComplete : Complete tokens)
    (hRead : readEntries tokens = .ok (entries, rest)) :
    (entries ≠ [] ∧ ∀ entry ∈ entries, entry.Named) ∧
      Taken tokens rest
        ([.mark .comma].intercalate
          (entries.map TypeRef.lexemes)) := by
  fun_induction readEntries tokens generalizing entries rest with
  | case1 => cases hRead
  | case2 tokens entry behind hEntry =>
      rcases readEntry_spec hComplete hEntry with
        ⟨hNamed, hBehind⟩
      cases hRead
      refine ⟨⟨List.cons_ne_nil _ _, ?_⟩, ?_⟩
      · exact List.forall_mem_singleton.mpr hNamed
      · rwa [List.map_singleton, List.intercalate_singleton]
  | case3 => cases hRead
  | case4 tokens entry behind hEntry comma others hComma
      found ends hMore ih =>
      rcases readEntry_spec hComplete hEntry with
        ⟨hNamed, hBehind⟩
      have hNext := hBehind.trans (take_source hComma id)
      rcases ih (hComplete.of_suffix hNext.suffix) hMore with
        ⟨⟨hSome, hFound⟩, hEnds⟩
      cases hRead
      refine ⟨⟨List.cons_ne_nil _ _, ?_⟩, ?_⟩
      · exact List.forall_mem_cons.mpr ⟨hNamed, hFound⟩
      · rw [List.map_cons, List.intercalate_cons_of_ne_nil]
        · exact hNext.trans hEnds
        · rwa [Ne, List.map_eq_nil_iff]

/-
  Whether an expression is spelled by the tokens that are
  taken to read it.
-/
def Expression.TakenFrom
    (expression : Expression)
    (tokens rest : List Token) : Prop :=
  ∃ lexemes, expression.Spelled lexemes ∧
    Taken tokens rest lexemes

theorem Expression.TakenFrom.suffix
    (hTaken : expression.TakenFrom tokens rest) :
    rest <:+ tokens := by
  rcases hTaken with ⟨_, _, hTokens⟩
  exact hTokens.suffix

theorem readPrimary_spec
    (hComplete : Complete tokens)
    (hRead : readPrimary tokens = .ok (expression, rest)) :
    expression.IsPrimary ∧ expression.TakenFrom tokens rest := by
  unfold readPrimary at hRead
  split at hRead
  · next hOpen =>
      have hBracket := take_source hOpen id
      have hInner := hComplete.of_suffix hBracket.suffix
      split at hRead
      · cases hRead
      · next hEntries =>
          rcases readEntries_spec hInner hEntries with
            ⟨hNamed, hBehind⟩
          split at hRead
          · cases hRead
          · next hClose =>
              cases hRead
              exact ⟨hNamed, _, .direct _ _,
                hBracket.trans
                  (hBehind.trans (take_source hClose id))⟩
  · split at hRead
    · cases hRead
    · next hFirst =>
        have hName := take_isIdentifier hComplete hFirst
        have hBehind := take_source hFirst id
        have hLeft := hComplete.of_suffix hBehind.suffix
        split at hRead
        · cases hRead
          exact ⟨hName, _, .computed _ _, hBehind⟩
        · next head others =>
            have hOthers : Complete others :=
              hLeft.of_suffix (List.suffix_cons head others)
            split at hRead
            · next hArrow =>
                split at hRead
                · cases hRead
                · next hRelation =>
                    have hOther :=
                      take_isIdentifier hOthers hRelation
                    cases hRead
                    exact ⟨⟨hName, hOther⟩, _, .arrow _ _ _,
                      hBehind.trans
                        ((Taken.source hArrow id).trans
                          (take_source hRelation id))⟩
            · split at hRead
              · next hVia =>
                  split at hRead
                  · cases hRead
                  · next hTupleset =>
                      have hOther :=
                        take_isIdentifier hOthers hTupleset
                      cases hRead
                      exact ⟨⟨hOther, hName⟩, _, .via _ _ _,
                        hBehind.trans
                          ((Taken.source hVia id).trans
                            (take_source hTupleset id))⟩
              · cases hRead
                exact ⟨hName, _, .computed _ _, hBehind⟩

------------------------------------------------------------
-- Operators
------------------------------------------------------------

theorem readDifference_spec
    (hComplete : Complete tokens)
    (hRead : readDifference tokens = .ok (expression, rest)) :
    expression.IsDifference ∧
      expression.TakenFrom tokens rest := by
  unfold readDifference at hRead
  split at hRead
  · cases hRead
  · next hBase =>
      rcases readPrimary_spec hComplete hBase with
        ⟨hPrimary, first, hFirst, hBehind⟩
      split at hRead
      · cases hRead
        exact ⟨hPrimary.isDifference, first, hFirst, hBehind⟩
      · next hBut =>
          split at hRead
          · cases hRead
          · next hNot =>
              have hWords := hBehind.trans
                ((take_source hBut id).trans
                  (take_source hNot id))
              split at hRead
              · cases hRead
              · next hSubtract =>
                  rcases readPrimary_spec
                    (hComplete.of_suffix hWords.suffix) hSubtract
                    with ⟨hOther, second, hSecond, hEnds⟩
                  cases hRead
                  refine ⟨⟨hPrimary, hOther⟩, _,
                    .exclusion _ hFirst hSecond, ?_⟩
                  have hTaken := hWords.trans hEnds
                  rwa [List.append_assoc] at hTaken

/-
  The tokens behind the first operand of an operator: each
  further operand with the operator's word before it.
-/
def TakenBehind
    (word : Keyword)
    (operands : List Expression)
    (tokens rest : List Token) : Prop :=
  ∃ pieces, List.Forall₂ Expression.Spelled operands pieces ∧
    Taken tokens rest
      (pieces.flatMap fun piece => .keyword word :: piece)

theorem TakenBehind.nil
    (word : Keyword)
    (tokens : List Token) :
    TakenBehind word [] tokens tokens :=
  ⟨[], .nil, .refl tokens⟩

theorem TakenBehind.cons
    {word : Keyword}
    {operands : List Expression}
    {others behind : List Token}
    (hWord : Taken tokens others [.keyword word])
    (hFirst : expression.TakenFrom others behind)
    (hMore : TakenBehind word operands behind rest) :
    TakenBehind word (expression :: operands) tokens rest := by
  rcases hFirst with ⟨piece, hPiece, hBehind⟩
  rcases hMore with ⟨pieces, hPieces, hEnds⟩
  exact ⟨piece :: pieces, .cons hPiece hPieces,
    (hWord.trans hBehind).trans hEnds⟩

/- Without further operands nothing more is taken. -/
theorem TakenBehind.alone
    {word : Keyword}
    {behind : List Token}
    (hFirst : expression.TakenFrom tokens behind)
    (hMore : TakenBehind word [] behind rest) :
    expression.TakenFrom tokens rest := by
  rcases hFirst with ⟨lexemes, hSpelled, hBehind⟩
  rcases hMore with ⟨pieces, hPieces, hEnds⟩
  cases hPieces
  have hTaken := hBehind.trans hEnds
  rw [List.flatMap_nil, List.append_nil] at hTaken
  exact ⟨lexemes, hSpelled, hTaken⟩

/- All operands are spelled with the operator between them. -/
theorem TakenBehind.joined
    {word : Keyword}
    {operands : List Expression}
    {behind : List Token}
    (hFirst : expression.TakenFrom tokens behind)
    (hMore : TakenBehind word operands behind rest) :
    ∃ pieces,
      List.Forall₂ Expression.Spelled (expression :: operands)
        pieces ∧
      Taken tokens rest
        ([.keyword word].intercalate pieces) := by
  rcases hFirst with ⟨piece, hPiece, hBehind⟩
  rcases hMore with ⟨pieces, hPieces, hEnds⟩
  refine ⟨piece :: pieces, .cons hPiece hPieces, ?_⟩
  rw [intercalate_cons]
  exact hBehind.trans hEnds

theorem two_le_length_cons
    {others : List Expression}
    (hSome : others ≠ []) :
    2 ≤ (expression :: others).length :=
  Nat.succ_le_succ (List.length_pos_iff.mpr hSome)

theorem readFactors_spec
    {factors : List Expression}
    (hComplete : Complete tokens)
    (hRead : readFactors tokens = .ok (factors, rest)) :
    (∀ factor ∈ factors, factor.IsDifference) ∧
      TakenBehind .and factors tokens rest := by
  fun_induction readFactors tokens generalizing factors rest with
  | case1 =>
      cases hRead
      exact ⟨List.forall_mem_nil _, .nil _ _⟩
  | case2 => cases hRead
  | case3 => cases hRead
  | case4 tokens word others hAnd factor behind hFactor
      found ends hMore ih =>
      have hWord := take_source hAnd id
      have hLeft := hComplete.of_suffix hWord.suffix
      rcases readDifference_spec hLeft hFactor with
        ⟨hDifference, hTaken⟩
      rcases ih (hLeft.of_suffix hTaken.suffix) hMore with
        ⟨hFound, hEnds⟩
      cases hRead
      exact ⟨List.forall_mem_cons.mpr ⟨hDifference, hFound⟩,
        hEnds.cons hWord hTaken⟩

theorem readProduct_spec
    (hComplete : Complete tokens)
    (hRead : readProduct tokens = .ok (expression, rest)) :
    expression.IsProduct ∧
      expression.TakenFrom tokens rest := by
  unfold readProduct at hRead
  split at hRead
  · cases hRead
  · next hFirst =>
      rcases readDifference_spec hComplete hFirst with
        ⟨hDifference, hTaken⟩
      have hLeft := hComplete.of_suffix hTaken.suffix
      split at hRead
      · cases hRead
      · next hFactors =>
          have hEnds := (readFactors_spec hLeft hFactors).2
          cases hRead
          exact ⟨hDifference.isProduct, hEnds.alone hTaken⟩
      · next factors ends hSome hFactors =>
          rcases readFactors_spec hLeft hFactors with
            ⟨hAll, hEnds⟩
          rcases hEnds.joined hTaken with
            ⟨pieces, hPieces, hJoined⟩
          cases hRead
          exact ⟨⟨two_le_length_cons hSome,
            List.forall_mem_cons.mpr ⟨hDifference, hAll⟩⟩,
            _, .intersection _ hPieces, hJoined⟩

theorem readSummands_spec
    {summands : List Expression}
    (hComplete : Complete tokens)
    (hRead : readSummands tokens = .ok (summands, rest)) :
    (∀ summand ∈ summands, summand.IsProduct) ∧
      TakenBehind .or summands tokens rest := by
  fun_induction readSummands tokens generalizing summands rest with
  | case1 =>
      cases hRead
      exact ⟨List.forall_mem_nil _, .nil _ _⟩
  | case2 => cases hRead
  | case3 => cases hRead
  | case4 tokens word others hOr summand behind hSummand
      found ends hMore ih =>
      have hWord := take_source hOr id
      have hLeft := hComplete.of_suffix hWord.suffix
      rcases readProduct_spec hLeft hSummand with
        ⟨hProduct, hTaken⟩
      rcases ih (hLeft.of_suffix hTaken.suffix) hMore with
        ⟨hFound, hEnds⟩
      cases hRead
      exact ⟨List.forall_mem_cons.mpr ⟨hProduct, hFound⟩,
        hEnds.cons hWord hTaken⟩

theorem readUnion_spec
    (hComplete : Complete tokens)
    (hRead : readUnion tokens = .ok (expression, rest)) :
    expression.IsUnion ∧ expression.TakenFrom tokens rest := by
  unfold readUnion at hRead
  split at hRead
  · cases hRead
  · next hFirst =>
      rcases readProduct_spec hComplete hFirst with
        ⟨hProduct, hTaken⟩
      have hLeft := hComplete.of_suffix hTaken.suffix
      split at hRead
      · cases hRead
      · next hSummands =>
          have hEnds := (readSummands_spec hLeft hSummands).2
          cases hRead
          exact ⟨hProduct.isUnion, hEnds.alone hTaken⟩
      · next summands ends hSome hSummands =>
          rcases readSummands_spec hLeft hSummands with
            ⟨hAll, hEnds⟩
          rcases hEnds.joined hTaken with
            ⟨pieces, hPieces, hJoined⟩
          cases hRead
          exact ⟨⟨two_le_length_cons hSome,
            List.forall_mem_cons.mpr ⟨hProduct, hAll⟩⟩,
            _, .union _ hPieces, hJoined⟩

------------------------------------------------------------
-- Blocks
------------------------------------------------------------

theorem readRelation_spec
    {relation : Relation}
    (hComplete : Complete tokens)
    (hRead : readRelation tokens = .ok (relation, rest)) :
    relation.WellFormed ∧
      ∃ lexemes, relation.Spelled lexemes ∧
        Taken tokens rest lexemes := by
  unfold readRelation at hRead
  split at hRead
  · cases hRead
  · next hWord =>
      have hDefine := take_source hWord id
      split at hRead
      · cases hRead
      · next hFirst =>
          have hName := take_isIdentifier
            (hComplete.of_suffix hDefine.suffix) hFirst
          have hOthers := hDefine.trans (take_source hFirst id)
          split at hRead
          · cases hRead
          · next hColon =>
              have hHead := hOthers.trans (take_source hColon id)
              split at hRead
              · cases hRead
              · next hExpression =>
                  rcases readUnion_spec
                    (hComplete.of_suffix hHead.suffix)
                    hExpression with
                    ⟨hUnion, body, hBody, hEnds⟩
                  split at hRead
                  · cases hRead
                  · next hLine =>
                      have hTaken := (hHead.trans hEnds).trans
                        (takeLineEnd_taken hLine)
                      rw [List.append_nil] at hTaken
                      cases hRead
                      exact ⟨⟨hName, hUnion⟩, _,
                        ⟨body, hBody, rfl⟩, hTaken⟩

/- The relations of a type, each spelled behind the other. -/
theorem readRelations_spec
    {relations : List Relation}
    (hComplete : Complete tokens)
    (hRead : readRelations tokens = .ok (relations, rest)) :
    (∀ relation ∈ relations, relation.WellFormed) ∧
      ∃ pieces, List.Forall₂ Relation.Spelled relations pieces ∧
        Taken tokens rest pieces.flatten := by
  fun_induction readRelations tokens
    generalizing relations rest with
  | case1 => cases hRead
  | case2 => cases hRead
  | case3 tokens hDefine relation behind hRelation found ends
      hMore ih =>
      rcases readRelation_spec hComplete hRelation with
        ⟨hWellFormed, piece, hPiece, hBehind⟩
      rcases ih (hComplete.of_suffix hBehind.suffix) hMore with
        ⟨hFound, pieces, hPieces, hEnds⟩
      cases hRead
      exact ⟨List.forall_mem_cons.mpr ⟨hWellFormed, hFound⟩,
        piece :: pieces, .cons hPiece hPieces,
        hBehind.trans hEnds⟩
  | case4 =>
      cases hRead
      exact ⟨List.forall_mem_nil _, [], .nil, .refl _⟩

theorem readRelationBlock_spec
    {relations : List Relation}
    (hComplete : Complete tokens)
    (hRead :
      readRelationBlock tokens = .ok (relations, rest)) :
    (∀ relation ∈ relations, relation.WellFormed) ∧
      ∃ pieces, List.Forall₂ Relation.Spelled relations pieces ∧
        Taken tokens rest pieces.flatten := by
  unfold readRelationBlock at hRead
  split at hRead
  · cases hRead
    exact ⟨List.forall_mem_nil _, [], .nil, .refl _⟩
  · next hOpen =>
      have hBehind := take_layout hOpen trivial
      split at hRead
      · cases hRead
      · next hRelations =>
          rcases readRelations_spec
            (hComplete.of_suffix hBehind.suffix) hRelations with
            ⟨hAll, pieces, hPieces, hInner⟩
          split at hRead
          · cases hRead
          · next hClose =>
              have hTaken := (hBehind.trans hInner).trans
                (take_layout hClose trivial)
              rw [List.append_nil] at hTaken
              cases hRead
              exact ⟨hAll, pieces, hPieces, hTaken⟩

/-
  The body of a type is empty or holds the word `relations`
  and the relations.
-/
theorem readTypeBody_spec
    {relations : List Relation}
    (hComplete : Complete tokens)
    (hRead : readTypeBody tokens = .ok (relations, rest)) :
    (∀ relation ∈ relations, relation.WellFormed) ∧
      ((relations = [] ∧ Taken tokens rest []) ∨
        ∃ pieces,
          List.Forall₂ Relation.Spelled relations pieces ∧
            Taken tokens rest
              (.keyword .relations :: pieces.flatten)) := by
  unfold readTypeBody at hRead
  split at hRead
  · cases hRead
    exact ⟨List.forall_mem_nil _, .inl ⟨rfl, .refl _⟩⟩
  · next hOpen =>
      split at hRead
      · cases hRead
      · next hWord =>
          have hOthers := (take_layout hOpen trivial).trans
            (take_source hWord id)
          split at hRead
          · cases hRead
          · next hLine =>
              have hBehind :=
                hOthers.trans (takeLineEnd_taken hLine)
              split at hRead
              · cases hRead
              · next hBlock =>
                  rcases readRelationBlock_spec
                    (hComplete.of_suffix hBehind.suffix) hBlock
                    with ⟨hAll, pieces, hPieces, hEnds⟩
                  split at hRead
                  · cases hRead
                  · next hClose =>
                      have hTaken := (hBehind.trans hEnds).trans
                        (take_layout hClose trivial)
                      rw [List.append_nil] at hTaken
                      cases hRead
                      exact ⟨hAll, .inr ⟨pieces, hPieces, hTaken⟩⟩

theorem readType_spec
    {block : TypeBlock}
    (hComplete : Complete tokens)
    (hRead : readType tokens = .ok (block, rest)) :
    block.WellFormed ∧
      ∃ lexemes, block.Spelled lexemes ∧
        Taken tokens rest lexemes := by
  unfold readType at hRead
  split at hRead
  · cases hRead
  · next hWord =>
      have hType := take_source hWord id
      split at hRead
      · cases hRead
      · next hFirst =>
          have hName := take_isIdentifier
            (hComplete.of_suffix hType.suffix) hFirst
          have hOthers := hType.trans (take_source hFirst id)
          split at hRead
          · cases hRead
          · next hLine =>
              have hHead :=
                hOthers.trans (takeLineEnd_taken hLine)
              split at hRead
              · cases hRead
              · next hBody =>
                  rcases readTypeBody_spec
                    (hComplete.of_suffix hHead.suffix) hBody with
                    ⟨hAll, hEnds⟩
                  cases hRead
                  refine ⟨⟨hName, hAll⟩, ?_⟩
                  rcases hEnds with
                    ⟨hNone, hEnds⟩ | ⟨pieces, hPieces, hEnds⟩
                  · exact ⟨_, .inl ⟨hNone, rfl⟩,
                      hHead.trans hEnds⟩
                  · exact ⟨_, .inr ⟨pieces, hPieces, rfl⟩,
                      hHead.trans hEnds⟩

------------------------------------------------------------
-- Models
------------------------------------------------------------

theorem skipNewlines_taken (tokens : List Token) :
    Taken tokens (skipNewlines tokens) [] := by
  induction tokens with
  | nil => exact .refl _
  | cons token others ih =>
      rw [skipNewlines, List.dropWhile_cons]
      split
      · next hKind =>
          exact (Taken.layout (of_decide_eq_true hKind)
            trivial).trans ih
      · exact .refl _

/- The types are read up to the end, and nothing is left. -/
theorem readTypes_spec
    {headerOpen : Bool}
    {blocks : List TypeBlock}
    (hComplete : Complete tokens)
    (hRead : readTypes headerOpen tokens = .ok blocks) :
    (∀ block ∈ blocks, block.WellFormed) ∧
      ∃ pieces, List.Forall₂ TypeBlock.Spelled blocks pieces ∧
        Token.contents tokens = pieces.flatten := by
  fun_induction readTypes headerOpen tokens
    generalizing blocks with
  | case1 headerOpen tokens hSkip =>
      have hTaken := skipNewlines_taken tokens
      rw [hSkip] at hTaken
      cases hRead
      exact ⟨List.forall_mem_nil _, [], .nil,
        hTaken.contents_eq⟩
  | case2 headerOpen tokens token rest hSkip hEnd =>
      have hTaken := skipNewlines_taken tokens
      rw [hSkip] at hTaken
      -- Nothing follows the end of the source.
      have hRest := hComplete.last token rest hTaken.suffix hEnd
      have hLast := hTaken.trans (.layout hEnd trivial)
      rw [hRest] at hLast
      cases hRead
      exact ⟨List.forall_mem_nil _, [], .nil,
        hLast.contents_eq⟩
  | case3 headerOpen tokens token rest hSkip _ hClose ih =>
      have hTaken := skipNewlines_taken tokens
      rw [hSkip] at hTaken
      have hNext := hTaken.trans (.layout hClose.2 trivial)
      rcases ih (hComplete.of_suffix hNext.suffix) hRead with
        ⟨hAll, pieces, hPieces, hRest⟩
      refine ⟨hAll, pieces, hPieces, ?_⟩
      rw [hNext.contents_eq, hRest]
      rfl
  | case4 => cases hRead
  | case5 => cases hRead
  | case6 headerOpen tokens token rest hSkip _ _ block behind
      hBlock found hMore ih =>
      have hTaken := skipNewlines_taken tokens
      rw [hSkip] at hTaken
      rcases readType_spec (hComplete.of_suffix hTaken.suffix)
        hBlock with ⟨hWellFormed, piece, hPiece, hBehind⟩
      have hNext := hTaken.trans hBehind
      rcases ih (hComplete.of_suffix hNext.suffix) hMore with
        ⟨hFound, pieces, hPieces, hRest⟩
      cases hRead
      refine ⟨List.forall_mem_cons.mpr ⟨hWellFormed, hFound⟩,
        piece :: pieces, .cons hPiece hPieces, ?_⟩
      rw [hNext.contents_eq, hRest]
      rfl

theorem ofTokens_spec
    {declaration : Declaration}
    (hComplete : Complete tokens)
    (hRead : ofTokens tokens = .ok declaration) :
    declaration.WellFormed ∧
      declaration.Spelled (Token.contents tokens) := by
  unfold ofTokens at hRead
  split at hRead
  · cases hRead
  · split at hRead
    · cases hRead
    · next behind hWord =>
        extract_lets header headerOpen opened at hRead
        have hHeader : Taken tokens header [.keyword .model] :=
          ((skipNewlines_taken tokens).trans
            (take_source hWord id)).trans
              (skipNewlines_taken behind)
        have hOpened : Taken header opened [] := by
          unfold opened headerOpen
          cases header with
          | nil => exact .refl _
          | cons token others =>
              split
              · next hOpen =>
                  exact .layout (of_decide_eq_true hOpen) trivial
              · exact .refl _
        split at hRead
        · cases hRead
        · next hSchema =>
            have hWords := (hHeader.trans hOpened).trans
              (take_source hSchema id)
            split at hRead
            · cases hRead
            · next hNumber =>
                have hVersion := take_isVersion
                  (hComplete.of_suffix hWords.suffix) hNumber
                have hHead :=
                  hWords.trans (take_source hNumber id)
                split at hRead
                · cases hRead
                · next hTypes =>
                    rcases readTypes_spec
                      (hComplete.of_suffix hHead.suffix) hTypes
                      with ⟨hAll, pieces, hPieces, hRest⟩
                    cases hRead
                    refine ⟨⟨hVersion, hAll⟩,
                      pieces, hPieces, ?_⟩
                    rw [hHead.contents_eq, hRest]
                    rfl

/- What is read are the tokens that a source is divided into. -/
theorem scan_of_read
    {source : Bytes}
    {declaration : Declaration}
    (hRead : read source = .ok declaration) :
    ∃ tokens, Token.scan source = .ok tokens ∧
      ofTokens tokens = .ok declaration := by
  unfold read at hRead
  split at hRead
  · cases hRead
  · next tokens hScan => exact ⟨tokens, hScan, hRead⟩

theorem wellFormed_of_read
    {source : Bytes}
    {declaration : Declaration}
    (hRead : read source = .ok declaration) :
    declaration.WellFormed := by
  rcases scan_of_read hRead with ⟨tokens, hScan, hTokens⟩
  exact (ofTokens_spec (Token.complete_of_scan hScan) hTokens).1

/-
  Every source that can be read spells what is read from it,
  a well-formed declaration. The tokens are written as their
  kinds require; without the layout they are, one by one and
  in their order, the lexemes of the declaration.
-/
theorem spelled_of_read
    {source : Bytes}
    {declaration : Declaration}
    (hRead : read source = .ok declaration) :
    declaration.WellFormed ∧
      ∃ tokens, Token.scan source = .ok tokens ∧
        (∀ token ∈ tokens, token.Genuine) ∧
          declaration.Spelled (Token.contents tokens) := by
  rcases scan_of_read hRead with ⟨tokens, hScan, hTokens⟩
  have hComplete := Token.complete_of_scan hScan
  rcases ofTokens_spec hComplete hTokens with
    ⟨hWellFormed, hSpelled⟩
  exact ⟨hWellFormed, tokens, hScan, hComplete.genuine,
    hSpelled⟩

------------------------------------------------------------
-- An Example
------------------------------------------------------------

namespace Parents

/- Every freedom that a source has is used. -/
def source : Bytes :=
  utf8 "Model
  SCHEMA 1.1
type group
  relations
type note
  relations
    define parent: [group]
    define viewer: member FROM parent or parent->member
"

theorem source_spelled :
    ∃ declaration, read source = .ok declaration ∧
      declaration.WellFormed ∧
        ∃ tokens, Token.scan source = .ok tokens ∧
          (∀ token ∈ tokens, token.Genuine) ∧
            declaration.Spelled (Token.contents tokens) := by
  have hSome : (read source).toBool = true := by
    decide +kernel
  cases hRead : read source with
  | error error =>
      rw [hRead] at hSome
      cases hSome
  | ok declaration =>
      exact ⟨declaration, rfl, spelled_of_read hRead⟩

end Parents

end Declaration

end Rebac
