import Rebac.Language.Scan
import Rebac.Proofs.Bytes

/-
  This file defines what a token says apart from its place,
  and proves that every token of a source is written as its
  kind requires.

  A lexeme forgets the letter case of keywords. The contents
  of some tokens are their lexemes without the layout.

  Key definitions include:
    * `Lexeme`
    * `Lexeme.IsIdentifier`
    * `Lexeme.IsVersion`
    * `Token.lexeme`
    * `Token.contents`
    * `Token.Genuine`
    * `Token.Complete`

  Key theorems include:
    * `Lexeme.writes_of_first?`
    * `Token.complete_of_scan`
-/

namespace Rebac

------------------------------------------------------------
-- Lexemes
------------------------------------------------------------

/- What a token says. -/
inductive Lexeme where
  | keyword (word : Keyword)
  | mark (sign : Mark)
  | identifier (name : Bytes)
  | version (text : Bytes)
  | newline
  | openBlock
  | closeBlock
  | endOfSource
  deriving DecidableEq, Repr

namespace Lexeme

/- A name that is no keyword in any letter case. -/
def IsIdentifier (word : Bytes) : Prop :=
  Bytes.IsName word ∧ Keyword.ofWord? word = none

/- A run of digits and dots that starts with a digit. -/
def IsVersion (text : Bytes) : Prop :=
  (∃ first ∈ text.head?, Bytes.isDigit first = true) ∧
    (∀ byte ∈ text, Bytes.isDigit byte = true ∨ byte = 46) ∧
      46 ∈ text

instance (word : Bytes) : Decidable (IsIdentifier word) :=
  inferInstanceAs (Decidable (_ ∧ _))

instance (text : Bytes) : Decidable (IsVersion text) :=
  decidable_of_iff
    (text.head?.any Bytes.isDigit ∧
      (text.all fun byte => Bytes.isDigit byte || byte == 46) ∧
        text.contains 46)
    (by cases text <;> simp [IsVersion])

end Lexeme

/- What a token of a kind and with a text says. -/
def TokenKind.lexeme (kind : TokenKind) (text : Bytes) : Lexeme :=
  match kind with
  | .keyword word => .keyword word
  | .mark sign => .mark sign
  | .identifier => .identifier text
  | .version => .version text
  | .newline => .newline
  | .openBlock => .openBlock
  | .closeBlock => .closeBlock
  | .endOfSource => .endOfSource

/- Whether a text is a way to write tokens of a kind. -/
def TokenKind.Writes (kind : TokenKind) (text : Bytes) : Prop :=
  match kind with
  | .keyword word => Bytes.lower text = word.spelling
  | .mark sign => text = sign.spelling
  | .identifier => Lexeme.IsIdentifier text
  | .version => Lexeme.IsVersion text
  | _ => text = []

namespace Token

def lexeme (token : Token) : Lexeme :=
  token.kind.lexeme token.text

/- Whether a token is written as its kind requires. -/
def Genuine (token : Token) : Prop :=
  token.kind.Writes token.text

/- The lexemes of some tokens in their order, without layout. -/
def contents (tokens : List Token) : List Lexeme :=
  (tokens.filter fun token => ¬ token.kind.IsLayout).map lexeme

theorem contents_append (first second : List Token) :
    contents (first ++ second) =
      contents first ++ contents second := by
  simp [contents]

/- A token of layout has no contents. -/
theorem contents_of_layout
    {token : Token}
    (hLayout : token.kind.IsLayout) :
    contents [token] = [] := by
  simp [contents, hLayout]

/- Any other token has its lexeme. -/
theorem contents_singleton
    {token : Token}
    (hLayout : ¬ token.kind.IsLayout) :
    contents [token] = [token.lexeme] := by
  simp [contents, hLayout]

end Token

------------------------------------------------------------
-- Words
------------------------------------------------------------

namespace Keyword

/- What is a keyword spells it, in any letter case. -/
theorem lower_eq_of_ofWord?
    {word : Bytes}
    {keyword : Keyword}
    (hWord : ofWord? word = some keyword) :
    Bytes.lower word = keyword.spelling := by
  have hSame := List.find?_some hWord
  exact (of_decide_eq_true hSame).symm

/- A keyword starts with a letter. -/
theorem exists_spelling (keyword : Keyword) :
    ∃ first rest, keyword.spelling = first :: rest ∧
      97 ≤ first := by
  cases keyword <;> exact ⟨_, _, rfl, by decide⟩

/- No keyword starts with a digit. -/
theorem ofWord?_of_isDigit
    {first : UInt8}
    (hDigit : Bytes.isDigit first = true)
    (rest : Bytes) :
    ofWord? (first :: rest) = none := by
  have hSmall : first ≤ 57 := by
    rw [Bytes.isDigit, Bool.and_eq_true] at hDigit
    exact of_decide_eq_true hDigit.2
  have hLower : Bytes.lowerByte first = first := by
    rw [Bytes.lowerByte, if_neg]
    simp only [Bool.and_eq_true, decide_eq_true_iff,
      UInt8.le_iff_toNat_le] at hSmall ⊢
    exact fun hLarge =>
      absurd (Nat.le_trans hLarge.1 hSmall) (by decide)
  refine List.find?_eq_none.mpr fun keyword _ hSame => ?_
  rcases keyword.exists_spelling with
    ⟨letter, others, hSpelling, hLetter⟩
  have hWord := of_decide_eq_true hSame
  rw [hSpelling, Bytes.lower, List.map_cons, hLower] at hWord
  rw [(List.cons.inj hWord).1] at hLetter
  exact absurd (UInt8.le_trans hLetter hSmall) (by decide)

end Keyword

namespace Lexeme

/- A word is written as a keyword or as an identifier. -/
theorem writes_wordKind
    {word : Bytes}
    (hName : Bytes.IsName word) :
    (wordKind word).Writes word := by
  unfold wordKind
  split
  · next hWord => exact Keyword.lower_eq_of_ofWord? hWord
  · next hWord => exact ⟨hName, hWord⟩

theorem isName_takeWhile
    {first : UInt8}
    (hFirst : Bytes.isWord first = true)
    (rest : Bytes) :
    Bytes.IsName (first :: rest.takeWhile Bytes.isWord) := by
  refine ⟨List.cons_ne_nil _ _, ?_⟩
  rw [List.forall_mem_cons]
  exact ⟨hFirst, List.all_eq_true.mp List.all_takeWhile⟩

theorem isVersion_takeWhile
    {first : UInt8}
    {rest : Bytes}
    (hFirst : Bytes.isDigit first = true)
    (hDot : 46 ∈ rest.takeWhile fun byte =>
      Bytes.isDigit byte || byte == 46) :
    IsVersion (first :: rest.takeWhile fun byte =>
      Bytes.isDigit byte || byte == 46) := by
  refine ⟨⟨first, rfl, hFirst⟩, ?_, List.mem_cons_of_mem _ hDot⟩
  rw [List.forall_mem_cons]
  refine ⟨.inl hFirst, fun byte hByte => ?_⟩
  have hEach :=
    List.all_eq_true.mp List.all_takeWhile byte hByte
  simpa using hEach

/- What is found at the head is written as its kind. -/
theorem writes_of_first?
    {first : UInt8}
    {rest more : Bytes}
    {kind : TokenKind}
    (hFirst : first? first rest = some (kind, more)) :
    kind.Writes (first :: more) := by
  unfold first? at hFirst
  iterate 6
    split at hFirst
    · next hMark =>
        cases hFirst
        rw [hMark]
        rfl
  split at hFirst
  · next hArrow =>
      split at hFirst
      · cases hFirst
        rw [hArrow]
        rfl
      · cases hFirst
  · split at hFirst
    · next hDigit =>
        extract_lets dotted at hFirst
        split at hFirst
        · next hDot =>
            rcases Prod.mk.inj (Option.some.inj hFirst) with
              ⟨rfl, rfl⟩
            exact isVersion_takeWhile hDigit hDot
        · cases hFirst
          have hWord : Bytes.isWord first = true := by
            simp [Bytes.isWord, hDigit]
          exact ⟨isName_takeWhile hWord rest,
            Keyword.ofWord?_of_isDigit hDigit _⟩
    · split at hFirst
      · next hLetter =>
          have hWord : Bytes.isWord first = true := by
            rw [Bool.or_eq_true] at hLetter
            rcases hLetter with hLetter | hLine <;>
              simp [Bytes.isWord, *]
          rcases Prod.mk.inj (Option.some.inj hFirst) with
            ⟨rfl, rfl⟩
          exact writes_wordKind (isName_takeWhile hWord rest)
      · cases hFirst

end Lexeme

------------------------------------------------------------
-- Sources
------------------------------------------------------------

/- A token of layout has no text. -/
theorem TokenKind.Writes.eq_nil
    {kind : TokenKind}
    {text : Bytes}
    (hWrites : kind.Writes text)
    (hLayout : kind.IsLayout) :
    text = [] := by
  cases kind <;> first | exact hWrites | cases hLayout

namespace Token

theorem genuine_of_scanLine
    {location : Location}
    {text : Bytes}
    {tokens : List Token}
    (hScan : scanLine location text = .ok tokens) :
    ∀ token ∈ tokens, token.Genuine ∧ ¬ token.kind.IsLayout := by
  fun_induction scanLine location text generalizing tokens with
  | case1 =>
      cases hScan
      exact List.forall_mem_nil _
  | case2 location first rest hBlank ih => exact ih hScan
  | case3 =>
      cases hScan
      exact List.forall_mem_nil _
  | case4 => cases hScan
  | case5 => cases hScan
  | case6 =>
      rename_i kind more hFirst token remaining others hOthers ih
      cases hScan
      have hWrites := Lexeme.writes_of_first? hFirst
      refine List.forall_mem_cons.mpr
        ⟨⟨hWrites, fun hLayout => ?_⟩, ih hOthers⟩
      cases hWrites.eq_nil hLayout

/- A change of the open blocks yields blocks only. -/
theorem genuine_ofChange
    {location : Location}
    {change : Layout.Change} :
    ∀ token ∈ ofChange location change,
      token.Genuine ∧ token.kind ≠ .endOfSource := by
  intro token hToken
  cases change with
  | same => cases hToken
  | opened =>
      cases List.mem_singleton.mp hToken
      exact ⟨rfl, nofun⟩
  | closed count =>
      cases List.eq_of_mem_replicate hToken
      exact ⟨rfl, nofun⟩

/-
  Whether some tokens are written as their kinds require, and
  nothing follows the end of the source.
-/
structure Complete (tokens : List Token) : Prop where
  genuine : ∀ token ∈ tokens, token.Genuine
  last : ∀ token rest, token :: rest <:+ tokens →
    token.kind = .endOfSource → rest = []

theorem Complete.of_suffix
    {rest tokens : List Token}
    (hComplete : Complete tokens)
    (hRest : rest <:+ tokens) :
    Complete rest where
  genuine token hToken :=
    hComplete.genuine token (hRest.subset hToken)
  last token others hOthers :=
    hComplete.last token others (hOthers.trans hRest)

theorem Complete.cons
    {token : Token}
    {others : List Token}
    (hToken : token.Genuine)
    (hKind : token.kind ≠ .endOfSource)
    (hOthers : Complete others) :
    Complete (token :: others) where
  genuine := List.forall_mem_cons.mpr ⟨hToken, hOthers.genuine⟩
  last := by
    intro found rest hSuffix hFound
    rcases List.suffix_cons_iff.mp hSuffix with hSame | hInner
    · cases hSame
      exact absurd hFound hKind
    · exact hOthers.last found rest hInner hFound

theorem Complete.append
    {front others : List Token}
    (hFront : ∀ token ∈ front,
      token.Genuine ∧ token.kind ≠ .endOfSource)
    (hOthers : Complete others) :
    Complete (front ++ others) := by
  induction front with
  | nil => exact hOthers
  | cons token front ih =>
      rcases List.forall_mem_cons.mp hFront with
        ⟨⟨hToken, hKind⟩, hRest⟩
      exact (ih hRest).cons hToken hKind

theorem complete_of_scanLines
    {finish : Location}
    {number offset : Nat}
    {blocks : Layout.Blocks}
    {lines : List Bytes}
    {tokens : List Token}
    (hScan :
      scanLines finish number offset blocks lines =
        .ok tokens) :
    Complete tokens := by
  induction lines generalizing number offset blocks tokens with
  | nil =>
      cases hScan
      refine .append genuine_ofChange ⟨?_, ?_⟩
      · exact List.forall_mem_singleton.mpr rfl
      · intro token rest hSuffix _
        have hLength := hSuffix.length_le
        rw [List.length_singleton, List.length_cons] at hLength
        exact List.length_eq_zero_iff.mp
          (Nat.le_zero.mp (Nat.le_of_succ_le_succ hLength))
  | cons line others ih =>
      unfold scanLines at hScan
      dsimp only at hScan
      split at hScan
      · exact ih hScan
      · split at hScan
        · cases hScan
        · split at hScan
          · cases hScan
          · next lexemes hLine =>
              split at hScan
              · cases hScan
              · next rest hRest =>
                  cases hScan
                  rw [List.append_assoc]
                  refine .append genuine_ofChange
                    (.append ?_ (.cons rfl nofun (ih hRest)))
                  intro token hToken
                  have hLexeme :=
                    genuine_of_scanLine hLine token hToken
                  refine ⟨hLexeme.1, fun hKind => hLexeme.2 ?_⟩
                  rw [hKind]
                  trivial

/- Whatever a source is divided into is complete. -/
theorem complete_of_scan
    {source : Bytes}
    {tokens : List Token}
    (hScan : scan source = .ok tokens) :
    Complete tokens :=
  complete_of_scanLines hScan

end Token

end Rebac
