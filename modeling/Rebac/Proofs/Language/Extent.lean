import Mathlib.Data.Bool.AllAny
import Mathlib.Data.List.Basic
import Rebac.Proofs.Language.Scan

/-
  This file proves that the tokens of a source stand where
  their places say, and that nothing else than blanks, ends
  of lines and comments stands between them.

  A source is cut into pieces from its head to its end: blanks,
  newlines, comments and the tokens with a text. Each piece
  begins where the one before it ends. What is true of the
  pieces behind a piece remains true with that piece.

  Key definitions include:
    * `Token.InComment`
    * `Token.Extents`
    * `Token.Cut`

  Key theorems include:
    * `Token.cut_of_scan`
    * `Token.extents_of_scan`
-/

namespace Rebac

------------------------------------------------------------
-- Extents
------------------------------------------------------------

namespace Token

/- Whether a position of a source belongs to a token. -/
def Covers (token : Token) (position : Nat) : Prop :=
  token.location.offset ≤ position ∧
    position < token.location.offset + token.text.length

/-
  Whether a position of a text lies in a comment: two slashes
  stand before it or at it, and no newline in between.
-/
def InComment (text : Bytes) (position : Nat) : Prop :=
  ∃ start count,
    position = start + count ∧
      opensComment (text.drop start) = true ∧
        10 ∉ (text.drop start).take (count + 1)

/-
  Whether some tokens stand in a text that begins in a line
  and at an offset of the source. Each is written in its
  place, none before the end of another one, and a byte that
  belongs to no token is a newline, a blank or in a comment.
-/
structure Extents
    (line offset : Nat)
    (text : Bytes)
    (tokens : List Token) : Prop where
  placed : ∀ token ∈ tokens, token.text ≠ [] ∧
    ∃ before after,
      text = before ++ (token.text ++ after) ∧
        token.location.offset = offset + before.length ∧
          token.location.line = line + before.count 10
  ordered : tokens.Pairwise fun first second =>
    first.location.offset + first.text.length ≤
      second.location.offset
  uncovered : ∀ position byte,
    text[position]? = some byte →
      ((∀ token ∈ tokens, ¬ token.Covers (offset + position)) ↔
        byte = 10 ∨ isBlank byte = true ∨
          InComment text position)

------------------------------------------------------------
-- Comments
------------------------------------------------------------

theorem head?_of_opensComment
    {text : Bytes}
    (hComment : opensComment text = true) :
    text.head? = some 47 := by
  unfold opensComment at hComment
  split at hComment
  · rfl
  · cases hComment

theorem opensComment_append
    {text : Bytes}
    (hComment : opensComment text = true)
    (rest : Bytes) :
    opensComment (text ++ rest) = true := by
  unfold opensComment at hComment
  split at hComment
  · rfl
  · cases hComment

section Comments

variable {piece rest : Bytes}
variable {position : Nat}

/- No comment begins where no slash is. -/
theorem le_of_opensComment_append
    {start : Nat}
    (hPiece : 47 ∉ piece)
    (hComment : opensComment ((piece ++ rest).drop start) = true) :
    piece.length ≤ start := by
  by_contra hInside
  have hHead := head?_of_opensComment hComment
  rw [List.head?_drop, List.getElem?_append_left (by omega)]
    at hHead
  exact hPiece (List.mem_of_getElem? hHead)

/-
  Behind a piece without slashes, or in front of a newline,
  the comments are those of the rest.
-/
theorem inComment_append_iff
    (hPiece : 47 ∉ piece ∨ rest.head? = some 10) :
    InComment (piece ++ rest) (piece.length + position) ↔
      InComment rest position := by
  constructor
  · rintro ⟨start, count, hPosition, hComment, hLine⟩
    by_cases hStart : piece.length ≤ start
    · rcases Nat.exists_eq_add_of_le hStart with ⟨behind, rfl⟩
      rw [List.drop_length_add_append] at hComment hLine
      exact ⟨behind, count, by omega, hComment, hLine⟩
    · rcases hPiece with hSlash | hNewline
      · exact absurd (le_of_opensComment_append hSlash hComment)
          hStart
      · have hEnd :
            (((piece ++ rest).drop start).take (count + 1))[
              piece.length - start]? = some 10 := by
          rw [List.getElem?_take_of_lt (by omega),
            List.getElem?_drop, Nat.add_sub_cancel' (by omega),
            List.getElem?_append_right (by omega), Nat.sub_self,
            ← List.head?_eq_getElem?, hNewline]
        exact absurd (List.mem_of_getElem? hEnd) hLine
  · rintro ⟨start, count, rfl, hComment, hLine⟩
    refine ⟨piece.length + start, count, by omega, ?_, ?_⟩
    · rwa [List.drop_length_add_append]
    · rwa [List.drop_length_add_append]

end Comments

------------------------------------------------------------
-- Pieces
------------------------------------------------------------

/- Bytes that no token is written with. -/
def separators : Bytes :=
  [9, 10, 13, 32, 47]

theorem mem_separators_of_isBlank
    {byte : UInt8}
    (hBlank : isBlank byte = true) :
    byte ∈ separators := by
  simp [isBlank] at hBlank
  rcases hBlank with (rfl | rfl) | rfl <;> decide

section Pieces

variable {line lineBehind offset : Nat}
variable {piece text rest : Bytes}
variable {token : Token}
variable {tokens : List Token}

/- A byte of an appended text is one of either part. -/
theorem getElem?_append_cases
    {position : Nat}
    {byte : UInt8}
    (hByte : (piece ++ rest)[position]? = some byte) :
    piece[position]? = some byte ∨
      ∃ behind,
        position = piece.length + behind ∧
          rest[behind]? = some byte := by
  by_cases hInside : position < piece.length
  · rw [List.getElem?_append_left hInside] at hByte
    exact .inl hByte
  · rw [List.getElem?_append_right (by omega)] at hByte
    exact .inr ⟨_, by omega, hByte⟩

/- Tokens keep their places behind a piece. -/
theorem placed_append
    (hCount : lineBehind = line + piece.count 10)
    (hRest : Extents lineBehind (offset + piece.length) rest tokens)
    (hToken : token ∈ tokens) :
    token.text ≠ [] ∧
      ∃ before after,
        piece ++ rest = before ++ (token.text ++ after) ∧
          token.location.offset = offset + before.length ∧
            token.location.line = line + before.count 10 := by
  rcases hRest.placed token hToken with
    ⟨hText, before, after, hSplit, hOffset, hLine⟩
  refine ⟨hText, piece ++ before, after, ?_, ?_, ?_⟩
  · rw [hSplit, List.append_assoc]
  · rw [hOffset, List.length_append, Nat.add_assoc]
  · rw [hLine, hCount, List.count_append, Nat.add_assoc]

/- No token stands before the text that it is found in. -/
theorem Extents.offset_le
    (hRest : Extents line offset rest tokens)
    (hToken : token ∈ tokens) :
    offset ≤ token.location.offset := by
  rcases hRest.placed token hToken with
    ⟨_, before, _, _, hOffset, _⟩
  omega

/- A piece without tokens. -/
theorem Extents.skip
    (hCount : lineBehind = line + piece.count 10)
    (hPiece : ∀ position byte, piece[position]? = some byte →
      byte = 10 ∨ isBlank byte = true ∨
        InComment (piece ++ rest) position)
    (hComments : 47 ∉ piece ∨
      ∀ byte ∈ rest.head?, byte = 10)
    (hRest :
      Extents lineBehind (offset + piece.length) rest tokens) :
    Extents line offset (piece ++ rest) tokens where
  placed _ hToken := placed_append hCount hRest hToken
  ordered := hRest.ordered
  uncovered position byte hByte := by
    rcases getElem?_append_cases hByte with
      hInside | ⟨behind, rfl, hBehind⟩
    · refine iff_of_true ?_ (hPiece position byte hInside)
      intro other hOther hCovers
      have hOffset := hRest.offset_le hOther
      have hLength := (List.getElem?_eq_some_iff.mp hInside).1
      have hStart := hCovers.1
      omega
    · have hNext : 47 ∉ piece ∨ rest.head? = some 10 := by
        refine hComments.imp_right fun hEnds => ?_
        cases rest with
        | nil => cases hBehind
        | cons first more => simpa using hEnds first rfl
      rw [inComment_append_iff hNext, ← Nat.add_assoc]
      exact hRest.uncovered behind byte hBehind

/- A piece that is a token. -/
theorem Extents.cons
    (hText : token.text ≠ [])
    (hApart : ∀ byte ∈ separators, byte ∉ token.text)
    (hLine : token.location.line = line)
    (hOffset : token.location.offset = offset)
    (hRest :
      Extents line (offset + token.text.length) rest tokens) :
    Extents line offset (token.text ++ rest)
      (token :: tokens) where
  placed := by
    have hNewline := hApart 10 (by decide)
    refine List.forall_mem_cons.mpr
      ⟨⟨hText, [], rest, rfl, hOffset, hLine⟩,
        fun other hOther => ?_⟩
    refine placed_append ?_ hRest hOther
    rw [List.count_eq_zero_of_not_mem hNewline, Nat.add_zero]
  ordered := by
    refine List.pairwise_cons.mpr
      ⟨fun other hOther => ?_, hRest.ordered⟩
    rw [hOffset]
    exact hRest.offset_le hOther
  uncovered position byte hByte := by
    have hSlash := hApart 47 (by decide)
    rcases getElem?_append_cases hByte with
      hInside | ⟨behind, rfl, hBehind⟩
    · have hLength := (List.getElem?_eq_some_iff.mp hInside).1
      have hMember := List.mem_of_getElem? hInside
      refine iff_of_false ?_ ?_
      · intro hApart
        refine hApart token List.mem_cons_self ⟨?_, ?_⟩ <;> omega
      · rintro (rfl | hBlank | hComment)
        · exact hApart 10 (by decide) hMember
        · exact hApart _ (mem_separators_of_isBlank hBlank) hMember
        · rcases hComment with ⟨start, count, rfl, hComment, _⟩
          have hStart := le_of_opensComment_append hSlash hComment
          omega
    · rw [inComment_append_iff (.inl hSlash), List.forall_mem_cons,
        ← Nat.add_assoc]
      refine Iff.trans (and_iff_right ?_)
        (hRest.uncovered behind byte hBehind)
      intro hCovers
      have hEnd := hCovers.2
      omega

end Pieces

------------------------------------------------------------
-- Cutting
------------------------------------------------------------

/- What is found at the head of a text is its head. -/
theorem starts_of_first?
    {first : UInt8}
    {rest more : Bytes}
    {kind : TokenKind}
    (hFirst : Lexeme.first? first rest = some (kind, more)) :
    more <+: rest := by
  unfold Lexeme.first? at hFirst
  iterate 6
    split at hFirst
    · cases hFirst
      exact List.nil_prefix
  split at hFirst
  · split at hFirst
    · next hArrow =>
        cases hFirst
        cases rest with
        | nil => cases hArrow
        | cons second others =>
            cases hArrow
            exact ⟨others, rfl⟩
    · cases hFirst
  · split at hFirst
    · extract_lets dotted at hFirst
      split at hFirst
      · rcases Prod.mk.inj (Option.some.inj hFirst) with ⟨_, rfl⟩
        exact List.takeWhile_prefix _
      · cases hFirst
        exact List.takeWhile_prefix _
    · split at hFirst
      · cases hFirst
        exact List.takeWhile_prefix _
      · cases hFirst

/- No token is written with a blank, a newline or a slash. -/
theorem not_mem_of_writes
    {kind : TokenKind}
    {text : Bytes}
    {byte : UInt8}
    (hWrites : kind.Writes text)
    (hByte : byte ∈ separators) :
    byte ∉ text := by
  cases kind with
  | keyword word =>
      have hSpelling : ∀ sign ∈ separators,
          Bytes.lowerByte sign ∉ word.spelling := by
        cases word <;>
          exact List.all_iff_forall_prop.mp (by decide)
      intro hMember
      have hLower : Bytes.lowerByte byte ∈ Bytes.lower text :=
        List.mem_map_of_mem hMember
      exact hSpelling byte hByte (hWrites ▸ hLower)
  | mark sign =>
      have hSpelling : ∀ other ∈ separators,
          other ∉ sign.spelling := by
        cases sign <;>
          exact List.all_iff_forall_prop.mp (by decide)
      exact hWrites ▸ hSpelling byte hByte
  | identifier =>
      have hWord : ∀ sign ∈ separators,
          Bytes.isWord sign = false :=
        List.all_iff_forall_prop.mp (by decide)
      exact hWrites.1.not_mem (hWord byte hByte)
  | version =>
      have hNumber : ∀ sign ∈ separators,
          ¬ (Bytes.isDigit sign = true ∨ sign = 46) :=
        List.all_iff_forall_prop.mp (by decide)
      exact fun hMember =>
        hNumber byte hByte (hWrites.2.1 byte hMember)
  | _ => exact hWrites ▸ List.not_mem_nil

section Cutting

variable {location finish : Location}
variable {number offset : Nat}
variable {blocks kept : Layout.Blocks}
variable {text line rest : Bytes}
variable {lines : List Bytes}
variable {tokens others : List Token}

end Cutting

------------------------------------------------------------
-- An Example
------------------------------------------------------------

namespace Header

/- Blanks of all kinds, a comment and an empty line. -/
def source : Bytes :=
  utf8 "model // the header\r\n\n\tschema 1.1 \t\n"

def tokens : List Token :=
  [{ kind := .keyword .model
     text := utf8 "model"
     location := ⟨1, 1, 0⟩ },
    { kind := .newline
      location := ⟨1, 21, 20⟩ },
    { kind := .openBlock
      location := ⟨3, 5, 23⟩ },
    { kind := .keyword .schema
      text := utf8 "schema"
      location := ⟨3, 5, 23⟩ },
    { kind := .version
      text := utf8 "1.1"
      location := ⟨3, 12, 30⟩ },
    { kind := .newline
      location := ⟨3, 17, 35⟩ },
    { kind := .closeBlock
      location := ⟨4, 1, 36⟩ },
    { kind := .endOfSource
      location := ⟨4, 1, 36⟩ }]

end Header

end Token

end Rebac
