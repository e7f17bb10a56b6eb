import Mathlib.Data.List.TakeWhile
import Mathlib.Logic.Relation
import Rebac.Proofs.Language.Extent
import Rebac.Proofs.Model.Places

/-
  This file proves that a source may be edited where no token
  stands without any change of what it says.

  Blank lines and lines with only a comment may be put in
  anywhere. Blanks, which include the carriage return, and
  comments may follow a line. A tab of an indentation may
  become four spaces, and the other way round. After any such
  edits the same tokens are scanned up to their places, so
  the same declaration is read and the same schema compiled.

  An edit relates the steps of two scans: lines that an edit
  leaves alone, or changes, yield the same at any place.

  Key definitions include:
    * `Layout.Trails`
    * `Layout.Edit`
    * `Bytes.Edits`
    * `Token.Alike`
    * `Token.Similar`

  Key theorems include:
    * `Token.rescans_append`
    * `Token.alike_append`
    * `Token.ofLines_of_similar`
    * `Token.unchanged_of_edits`
-/

namespace Rebac

------------------------------------------------------------
-- Edits
------------------------------------------------------------

namespace Layout

/- What may follow a line: blanks, or a comment. -/
def Trails (more : Bytes) : Prop :=
  (∀ byte ∈ more, Token.isBlank byte = true) ∨
    Token.opensComment more = true

/-
  An edit of the lines of a source. What is put behind a line
  may be a carriage return, and it may stand in front of the
  blanks that the line ends with, a carriage return of its
  own among them.
-/
inductive Edit : List Bytes → List Bytes → Prop
  | insert
      (front behind : List Bytes)
      (line : Bytes)
      (hIdle : Idle line) :
      Edit (front ++ behind) (front ++ line :: behind)
  | append
      (front behind : List Bytes)
      (line more blanks : Bytes)
      (hMore : Trails more)
      (hBlanks : ∀ byte ∈ blanks, Token.isBlank byte = true) :
      Edit (front ++ (line ++ blanks) :: behind)
        (front ++ (line ++ (more ++ blanks)) :: behind)
  | spaces
      (front behind : List Bytes)
      (indent rest : Bytes)
      (hIndent : ∀ byte ∈ indent, Token.isBlank byte = true) :
      Edit (front ++ (indent ++ 9 :: rest) :: behind)
        (front ++ (indent ++ [32, 32, 32, 32] ++ rest) :: behind)
  | tab
      (front behind : List Bytes)
      (indent rest : Bytes)
      (hIndent : ∀ byte ∈ indent, Token.isBlank byte = true) :
      Edit
        (front ++ (indent ++ [32, 32, 32, 32] ++ rest) :: behind)
        (front ++ (indent ++ 9 :: rest) :: behind)

end Layout

/- Any number of edits, one after the other. -/
def Bytes.Edits : Bytes → Bytes → Prop :=
  Relation.ReflTransGen fun source edited =>
    Layout.Edit (Bytes.lines source) (Bytes.lines edited)

namespace Token

open Layout

------------------------------------------------------------
-- Content
------------------------------------------------------------

/- No lexeme goes on with what may follow a line. -/
theorem head?_of_trails
    {more : Bytes}
    (hMore : Trails more) :
    ∀ byte ∈ more.head?, byte ∈ separators := by
  intro byte hByte
  rcases hMore with hBlanks | hComment
  · exact mem_separators_of_isBlank
      (hBlanks byte (List.mem_of_head? hByte))
  · rw [head?_of_opensComment hComment] at hByte
    cases hByte
    decide

theorem trails_append
    {more blanks : Bytes}
    (hMore : Trails more)
    (hBlanks : ∀ byte ∈ blanks, isBlank byte = true) :
    Trails (more ++ blanks) :=
  hMore.imp
    (fun hBefore => List.forall_mem_append.mpr ⟨hBefore, hBlanks⟩)
    (fun hComment => opensComment_append hComment blanks)

theorem takeWhile_trails
    {property : UInt8 → Bool}
    {more : Bytes}
    (hMore : Trails more)
    (hProperty : separators.any property = false)
    (text : Bytes) :
    (text ++ more).takeWhile property =
      text.takeWhile property := by
  have hNone : more.takeWhile property = [] :=
    Bytes.takeWhile_eq_nil fun byte hByte =>
      Bool.eq_false_iff.mpr (List.any_eq_false.mp hProperty byte
        (head?_of_trails hMore byte hByte))
  rw [List.takeWhile_append, hNone, List.append_nil]
  split
  · next hLength =>
      exact ((List.takeWhile_prefix _).eq_of_length hLength).symm
  · rfl

/- What is found at the head stays the same. -/
theorem first?_append
    {more : Bytes}
    (hMore : Trails more)
    (first : UInt8)
    (rest : Bytes) :
    Lexeme.first? first (rest ++ more) =
      Lexeme.first? first rest := by
  by_cases hWord : Bytes.isWord first = true
  · rw [Lexeme.first?_of_isWord hWord,
      Lexeme.first?_of_isWord hWord,
      takeWhile_trails hMore (by decide),
      takeWhile_trails hMore (by decide)]
  · by_cases hDash : first = 45
    · subst hDash
      cases rest with
      | nil =>
          have hHead : more.head? ≠ some 62 := fun hArrow =>
            absurd (head?_of_trails hMore 62 hArrow) (by decide)
          simp [Lexeme.first?, hHead]
      | cons second others => simp [Lexeme.first?]
    · simp only [Bytes.isWord, Bool.or_eq_true, not_or] at hWord
      simp [Lexeme.first?, hDash, hWord]

theorem scanLine_of_trails
    {more : Bytes}
    (hMore : Trails more)
    (location : Location) :
    scanLine location more = .ok [] := by
  rcases hMore with hBlanks | hComment
  · induction more generalizing location with
    | nil => rw [scanLine]
    | cons byte others ih =>
        rcases List.forall_mem_cons.mp hBlanks with
          ⟨hByte, hOthers⟩
        rw [scanLine, if_pos hByte]
        exact ih _ hOthers
  · cases more with
    | nil => cases hComment
    | cons first others =>
        cases Option.some.inj (head?_of_opensComment hComment)
        rw [scanLine, if_neg (by decide), if_pos hComment]

/- What follows a lexeme is followed by what is added. -/
theorem drop_of_first?
    {first : UInt8}
    {rest behind : Bytes}
    {kind : TokenKind}
    (hFirst : Lexeme.first? first rest = some (kind, behind))
    (more : Bytes) :
    (rest ++ more).drop behind.length =
      rest.drop behind.length ++ more :=
  List.drop_append_of_le_length (starts_of_first? hFirst).length_le

section Blanks

variable {blanks : Bytes}

/- No comment begins with a blank. -/
theorem opensComment_of_append
    (hBlanks : ∀ byte ∈ blanks, isBlank byte = true)
    (text : Bytes)
    (hComment : opensComment (text ++ blanks) = true) :
    opensComment text = true := by
  have hHead : blanks.head? ≠ some 47 := fun hSlash =>
    absurd (hBlanks 47 (List.mem_of_head? hSlash)) (by decide)
  cases text with
  | nil => exact absurd (head?_of_opensComment hComment) hHead
  | cons first rest =>
      rw [opensComment.eq_def] at hComment
      split at hComment
      · next hText =>
          cases rest with
          | nil =>
              cases hText
              exact absurd rfl hHead
          | cons second others =>
              cases hText
              rfl
      · cases hComment

/- Blanks at the end of a text change nothing at all. -/
theorem scanLine_append
    (hBlanks : ∀ byte ∈ blanks, isBlank byte = true)
    (location : Location)
    (text : Bytes) :
    scanLine location (text ++ blanks) =
      scanLine location text := by
  have hFirst := first?_append (.inl hBlanks)
  fun_induction scanLine location text with
  | case1 location =>
      exact scanLine_of_trails (.inl hBlanks) location
  | case2 location first rest hBlank ih =>
      rw [List.cons_append, scanLine, if_pos hBlank, ih]
  | case3 location first rest hBlank hComment =>
      rw [List.cons_append, scanLine, if_neg hBlank, if_pos]
      exact opensComment_append hComment blanks
  | case4 location first rest hBlank hComment hNone =>
      rw [List.cons_append, scanLine, if_neg hBlank, if_neg]
      · simp only [hFirst, hNone]
      · exact mt (opensComment_of_append hBlanks (_ :: _)) hComment
  | case5 location first rest hBlank hComment =>
      rename_i hSome remaining error hFound ih
      rw [List.cons_append, scanLine, if_neg hBlank, if_neg]
      · simp only [hFirst, hSome, drop_of_first? hSome]
        rw [ih, hFound]
      · exact mt (opensComment_of_append hBlanks (_ :: _)) hComment
  | case6 location first rest hBlank hComment =>
      rename_i hSome token remaining found hFound ih
      rw [List.cons_append, scanLine, if_neg hBlank, if_neg]
      · simp only [hFirst, hSome, drop_of_first? hSome]
        rw [ih, hFound]
      · exact mt (opensComment_of_append hBlanks (_ :: _)) hComment

end Blanks

/- A text and another one have the same tokens at all places. -/
def Rescans (text other : Bytes) : Prop :=
  ∀ location tokens, scanLine location text = .ok tokens →
    ∀ place, ∃ found, scanLine place other = .ok found ∧
      found.map unplaced = tokens.map unplaced

theorem rescans_append
    {more : Bytes}
    (hMore : Trails more)
    (text : Bytes) :
    Rescans text (text ++ more) := by
  intro location tokens hScan
  fun_induction scanLine location text generalizing tokens with
  | case1 location =>
      cases hScan
      intro place
      exact ⟨[], scanLine_of_trails hMore place, rfl⟩
  | case2 location first rest hBlank ih =>
      intro place
      rw [List.cons_append, scanLine, if_pos hBlank]
      exact ih tokens hScan _
  | case3 location first rest hBlank hComment =>
      cases hScan
      intro place
      refine ⟨[], ?_, rfl⟩
      rw [List.cons_append, scanLine, if_neg hBlank, if_pos]
      exact opensComment_append hComment more
  | case4 => cases hScan
  | case5 => cases hScan
  | case6 location first rest hBlank hComment =>
      rename_i kind behind hFirst token remaining found hFound ih
      cases hScan
      intro place
      have hSlash : 47 ∉ first :: behind := not_mem_of_writes
        (Lexeme.writes_of_first? hFirst) (by decide)
      have hStarts : first ≠ 47 :=
        fun hSame => hSlash (hSame ▸ List.mem_cons_self)
      rcases ih found hFound
        (place.advance (behind.length + 1)) with
        ⟨others, hOthers, hSame⟩
      refine ⟨{ token with location := place } :: others, ?_, ?_⟩
      · rw [List.cons_append, scanLine, if_neg hBlank,
          if_neg (opensComment_of_ne hStarts _)]
        simp only [first?_append hMore, hFirst,
          drop_of_first? hFirst]
        rw [hOthers]
      · rw [List.map_cons, List.map_cons, hSame]
        rfl

------------------------------------------------------------
-- Lines
------------------------------------------------------------

/- A line and another one yield the same at all places. -/
def Alike (line other : Bytes) : Prop :=
  ∀ number offset blocks tokens kept,
    ofLine number offset blocks line = .ok (tokens, kept) →
      ∀ place distance, ∃ found,
        ofLine place distance blocks other = .ok (found, kept) ∧
          found.map unplaced = tokens.map unplaced

theorem unplaced_ofChange
    (location place : Location)
    (change : Change) :
    (ofChange location change).map unplaced =
      (ofChange place change).map unplaced := by
  cases change <;> simp [ofChange, unplaced]

section Lines

variable {line other more blanks : Bytes}

theorem ofLine_of_idle
    (hIdle : Idle line)
    (number offset : Nat)
    (blocks : Blocks) :
    ofLine number offset blocks line = .ok ([], blocks) := by
  rw [ofLine]
  exact if_pos hIdle

/- Lines of one margin whose contents have the same tokens. -/
theorem alike_of_rescans
    (hIdle : Idle line → Idle other)
    (hBusy : ∀ location tokens,
      scanLine location (content line) = .ok tokens →
        ¬ Idle line → ¬ Idle other)
    (hMargin : margin other = margin line)
    (hContent : Rescans (content line) (content other)) :
    Alike line other := by
  intro number offset blocks tokens kept hLine place distance
  rcases ofLine_eq_ok_iff.mp hLine with
    ⟨hNothing, rfl, rfl⟩ | ⟨hSome, change, lexemes, hMove,
      hScan, rfl⟩
  · exact ⟨[], ofLine_of_idle (hIdle hNothing) _ _ _, rfl⟩
  · rcases hContent _ _ hScan (lineStart place distance other)
      with ⟨found, hFound, hSame⟩
    refine ⟨_, ofLine_eq_ok_iff.mpr
      (.inr ⟨hBusy _ _ hScan hSome, change, found, ?_, hFound,
        rfl⟩), ?_⟩
    · rwa [hMargin]
    · rw [List.map_append, List.map_append, List.map_append,
        List.map_append, hSame,
        unplaced_ofChange _ (lineStart number offset line)]
      rfl

theorem alike_of_content
    (hContent : content other = content line)
    (hMargin : margin other = margin line) :
    Alike line other := by
  refine alike_of_rescans ?_ ?_ hMargin ?_
  · rw [Idle, Idle, hContent]
    exact id
  · intro _ _ _
    rw [Idle, Idle, hContent]
    exact id
  · have hRescans := rescans_append (.inl (List.forall_mem_nil _))
      (content line)
    rw [List.append_nil] at hRescans
    rwa [hContent]

theorem Alike.refl (line : Bytes) : Alike line line :=
  alike_of_content rfl rfl

theorem idle_of_trails
    (hMore : Trails more) :
    Idle more := by
  rcases hMore with hBlanks | hComment
  · exact .inl (List.dropWhile_eq_nil_iff.mpr hBlanks)
  · cases more with
    | nil => cases hComment
    | cons first others =>
        cases Option.some.inj (head?_of_opensComment hComment)
        exact .inr hComment

/- A slash alone is found to be unexpected. -/
theorem opensComment_of_scanLine
    {location : Location}
    {text : Bytes}
    {tokens : List Token}
    (hScan : scanLine location text = .ok tokens)
    (hHead : text.head? = some 47) :
    opensComment text = true := by
  cases text with
  | nil => cases hHead
  | cons first rest =>
      cases hHead
      by_contra hComment
      rw [scanLine, if_neg (by decide), if_neg hComment] at hScan
      cases hScan

/- Behind a line without content stands nothing but a trail. -/
theorem idle_append
    (hBlank : content line = [])
    (hMore : Trails more) :
    Idle (line ++ more) := by
  have hBlanks : ∀ byte ∈ line, isBlank byte = true :=
    List.dropWhile_eq_nil_iff.mp hBlank
  rw [Idle, content, List.dropWhile_append_of_pos hBlanks]
  exact idle_of_trails hMore

/- What follows a line with content, follows its content. -/
theorem content_append
    (hSome : content line ≠ [])
    (more : Bytes) :
    content (line ++ more) = content line ++ more := by
  have hDrop : line.dropWhile isBlank ≠ [] := hSome
  simp [content, List.dropWhile_append, hDrop]

theorem indent_append
    (hSome : content line ≠ [])
    (more : Bytes) :
    indent (line ++ more) = indent line := by
  have hWhole := indent_append_content (line ++ more)
  rw [content_append hSome, ← List.append_assoc] at hWhole
  exact List.append_cancel_right
    ((List.append_cancel_right hWhole).trans
      (indent_append_content line).symm)

/-
  A line yields the same with a trail as without, and with
  one in front of the blanks that end it.
-/
theorem alike_append
    (hMore : Trails more)
    (hBlanks : ∀ byte ∈ blanks, isBlank byte = true)
    (line : Bytes) :
    Alike (line ++ blanks) (line ++ (more ++ blanks)) := by
  have hTrail : Trails (more ++ blanks) := trails_append hMore hBlanks
  by_cases hBlank : content line = []
  · have hIdle := idle_append hBlank (.inl hBlanks)
    have hOther := idle_append hBlank hTrail
    intro number offset blocks tokens kept hLine place distance
    rw [ofLine_of_idle hIdle] at hLine
    cases hLine
    exact ⟨[], ofLine_of_idle hOther _ _ _, rfl⟩
  · refine alike_of_rescans ?_ ?_ ?_ ?_
    · rw [Idle, Idle, content_append hBlank,
        content_append hBlank]
      rintro (hNone | hComment)
      · exact absurd (List.append_eq_nil_iff.mp hNone).1 hBlank
      · have hText := opensComment_of_append hBlanks _ hComment
        exact .inr (opensComment_append hText _)
    · intro location tokens hScan
      rw [Idle, Idle, content_append hBlank,
        content_append hBlank, not_or, not_or]
      rw [content_append hBlank] at hScan
      refine fun hBusy => ⟨by simp [hBlank], fun hComment =>
        hBusy.2 (opensComment_of_scanLine hScan ?_)⟩
      rw [← head?_of_opensComment hComment,
        List.head?_append_of_ne_nil _ hBlank,
        List.head?_append_of_ne_nil _ hBlank]
    · rw [margin, margin, indent_append hBlank,
        indent_append hBlank]
    · intro location tokens hScan
      rw [content_append hBlank, scanLine_append hBlanks] at hScan
      rw [content_append hBlank]
      exact rescans_append hTrail _ location tokens hScan

/- A tab in the indentation is as wide as four spaces. -/
theorem content_spaces
    {blanks : Bytes}
    (hBlanks : ∀ byte ∈ blanks, isBlank byte = true)
    (rest : Bytes) :
    content (blanks ++ 9 :: rest) = content rest ∧
      content (blanks ++ [32, 32, 32, 32] ++ rest) =
        content rest ∧
        margin (blanks ++ 9 :: rest) =
          margin (blanks ++ [32, 32, 32, 32] ++ rest) := by
  have hTab : isBlank 9 = true := rfl
  have hSpace : isBlank 32 = true := rfl
  refine ⟨?_, ?_, ?_⟩
  · simp [content, List.dropWhile_append_of_pos hBlanks, hTab]
  · simp [content, List.dropWhile_append_of_pos hBlanks, hSpace]
  · simp [margin, indent, List.takeWhile_append_of_pos hBlanks,
      hTab, hSpace]
    omega

end Lines

------------------------------------------------------------
-- Sources
------------------------------------------------------------

/- Lines that are alike one by one, save for idle ones. -/
inductive Similar : List Bytes → List Bytes → Prop
  | nil : Similar [] []
  | line
      {line other : Bytes}
      {lines others : List Bytes}
      (hAlike : Alike line other)
      (hOthers : Similar lines others) :
      Similar (line :: lines) (other :: others)
  | idle
      {line : Bytes}
      {lines others : List Bytes}
      (hIdle : Idle line)
      (hOthers : Similar lines others) :
      Similar lines (line :: others)

theorem Similar.refl (lines : List Bytes) : Similar lines lines := by
  induction lines with
  | nil => exact .nil
  | cons line others ih => exact .line (.refl line) ih

theorem Similar.append_left
    {lines others : List Bytes}
    (hOthers : Similar lines others)
    (front : List Bytes) :
    Similar (front ++ lines) (front ++ others) := by
  induction front with
  | nil => exact hOthers
  | cons line front ih => exact .line (.refl line) ih

theorem similar_of_edit
    {lines others : List Bytes}
    (hEdit : Edit lines others) :
    Similar lines others := by
  cases hEdit with
  | insert front behind line hIdle =>
      exact .append_left (.idle hIdle (.refl behind)) front
  | append front behind line more blanks hMore hBlanks =>
      exact .append_left
        (.line (alike_append hMore hBlanks line) (.refl behind))
        front
  | spaces front behind blanks rest hBlanks =>
      rcases content_spaces hBlanks rest with
        ⟨hTab, hSpaces, hMargin⟩
      exact .append_left
        (.line (alike_of_content (hSpaces.trans hTab.symm)
          hMargin.symm) (.refl behind)) front
  | tab front behind blanks rest hBlanks =>
      rcases content_spaces hBlanks rest with
        ⟨hTab, hSpaces, hMargin⟩
      exact .append_left
        (.line (alike_of_content (hTab.trans hSpaces.symm)
          hMargin) (.refl behind)) front

/- Similar lines yield the same. -/
theorem ofLines_of_similar
    {number offset : Nat}
    {blocks kept : Blocks}
    {lines others : List Bytes}
    {tokens : List Token}
    (hSimilar : Similar lines others)
    (hLines :
      ofLines number offset blocks lines = .ok (tokens, kept))
    (place distance : Nat) :
    ∃ found,
      ofLines place distance blocks others = .ok (found, kept) ∧
        found.map unplaced = tokens.map unplaced := by
  induction hSimilar generalizing number offset blocks tokens
    place distance with
  | nil =>
      cases hLines
      exact ⟨[], rfl, rfl⟩
  | line hAlike hOthers ih =>
      rcases ofLines_cons_eq_ok_iff.mp hLines with
        ⟨first, next, rest, hFirst, hRest, rfl⟩
      rcases hAlike _ _ _ _ _ hFirst place distance with
        ⟨front, hFront, hSame⟩
      rcases ih hRest (place + 1) _ with
        ⟨back, hBack, hBehind⟩
      refine ⟨front ++ back, ofLines_cons_eq_ok_iff.mpr
        ⟨front, next, back, hFront, hBack, rfl⟩, ?_⟩
      rw [List.map_append, List.map_append, hSame, hBehind]
  | idle hIdle hOthers ih =>
      rcases ih hLines (place + 1) _ with ⟨found, hFound, hSame⟩
      exact ⟨found, ofLines_cons_eq_ok_iff.mpr
        ⟨[], blocks, found, ofLine_of_idle hIdle _ _ _, hFound,
          rfl⟩, hSame⟩

/- An edit leaves the tokens as they are, up to their places. -/
theorem scan_of_edit
    {source edited : Bytes}
    {tokens : List Token}
    (hEdit : Edit (Bytes.lines source) (Bytes.lines edited))
    (hScan : scan source = .ok tokens) :
    ∃ found, scan edited = .ok found ∧
      found.map unplaced = tokens.map unplaced := by
  rcases ofLines_of_scan hScan with
    ⟨finish, front, kept, hLines, rfl⟩
  rcases ofLines_of_similar (similar_of_edit hEdit) hLines 1 0 with
    ⟨found, hFound, hSame⟩
  rw [scan_eq_ofLines, hFound]
  refine ⟨_, rfl, ?_⟩
  dsimp only
  rw [List.map_append, List.map_append, hSame, ending, ending,
    List.map_append, List.map_append,
    unplaced_ofChange _ finish]
  rfl

theorem scan_of_edits
    {source edited : Bytes}
    {tokens : List Token}
    (hEdits : Bytes.Edits source edited)
    (hScan : scan source = .ok tokens) :
    ∃ found, scan edited = .ok found ∧
      found.map unplaced = tokens.map unplaced := by
  induction hEdits with
  | refl => exact ⟨tokens, hScan, rfl⟩
  | tail _ hEdit ih =>
      rcases ih with ⟨middle, hMiddle, hSame⟩
      rcases scan_of_edit hEdit hMiddle with
        ⟨found, hFound, hNext⟩
      exact ⟨found, hFound, hNext.trans hSame⟩

/- What a token says, whatever its place. -/
def pair (token : Token) : TokenKind × Bytes :=
  (token.kind, token.text)

theorem map_pair_of_unplaced
    {found tokens : List Token}
    (hSame : found.map unplaced = tokens.map unplaced) :
    found.map pair = tokens.map pair := by
  have hPairs (list : List Token) :
      (list.map unplaced).map pair = list.map pair := by
    rw [List.map_map]
    rfl
  rw [← hPairs found, hSame, hPairs]

/- Edits leave alone what is scanned, read and compiled. -/
theorem unchanged_of_edits
    {source edited : Bytes}
    {tokens : List Token}
    (hEdits : Bytes.Edits source edited)
    (hScan : scan source = .ok tokens) :
    (∃ found, scan edited = .ok found ∧
      found.map pair = tokens.map pair) ∧
      Declaration.forgetting Declaration.unplaced
          (Declaration.read edited) =
        Declaration.forgetting Declaration.unplaced
          (Declaration.read source) ∧
        (compile edited).schema? = (compile source).schema? := by
  rcases scan_of_edits hEdits hScan with ⟨found, hFound, hSame⟩
  have hRead :
      Declaration.forgetting Declaration.unplaced
          (Declaration.read edited) =
        Declaration.forgetting Declaration.unplaced
          (Declaration.read source) := by
    rw [Declaration.read, Declaration.read, hFound, hScan]
    dsimp only
    rw [← Declaration.ofTokens_unplaced,
      ← Declaration.ofTokens_unplaced, hSame]
  exact ⟨⟨found, hFound, map_pair_of_unplaced hSame⟩, hRead,
    schema?_of_forgetting hRead⟩

------------------------------------------------------------
-- An Example
------------------------------------------------------------

namespace Draft

/- A source, and what four edits make of it. -/
def first : Bytes :=
  utf8 "model\n\tschema 1.1\ntype a"

def second : Bytes :=
  utf8 "model\r\n\tschema 1.1\ntype a"

def third : Bytes :=
  utf8 "model\r\n    schema 1.1\ntype a"

def fourth : Bytes :=
  utf8 "model\r\n    schema 1.1\n  // types\ntype a"

def last : Bytes :=
  utf8 "model// one\r\n    schema 1.1\n  // types\ntype a"

theorem edit_first :
    Edit (Bytes.lines first) (Bytes.lines second) := by
  have hFirst : Bytes.lines first =
      [] ++ (utf8 "model" ++ []) ::
        [utf8 "\tschema 1.1", utf8 "type a"] := by
    decide +kernel
  have hSecond : Bytes.lines second =
      [] ++ (utf8 "model" ++ ([13] ++ [])) ::
        [utf8 "\tschema 1.1", utf8 "type a"] := by
    decide +kernel
  rw [hFirst, hSecond]
  exact .append _ _ _ _ _ (.inl (by simp [isBlank]))
    (List.forall_mem_nil _)

theorem edit_second :
    Edit (Bytes.lines second) (Bytes.lines third) := by
  have hSecond : Bytes.lines second =
      [utf8 "model\r"] ++ ([] ++ 9 :: utf8 "schema 1.1") ::
        [utf8 "type a"] := by
    decide +kernel
  have hThird : Bytes.lines third =
      [utf8 "model\r"] ++
        ([] ++ [32, 32, 32, 32] ++ utf8 "schema 1.1") ::
          [utf8 "type a"] := by
    decide +kernel
  rw [hSecond, hThird]
  exact .spaces _ _ _ _ (List.forall_mem_nil _)

theorem edit_third :
    Edit (Bytes.lines third) (Bytes.lines fourth) := by
  have hThird : Bytes.lines third =
      [utf8 "model\r", utf8 "    schema 1.1"] ++
        [utf8 "type a"] := by
    decide +kernel
  have hFourth : Bytes.lines fourth =
      [utf8 "model\r", utf8 "    schema 1.1"] ++
        utf8 "  // types" :: [utf8 "type a"] := by
    decide +kernel
  rw [hThird, hFourth]
  exact .insert _ _ _ (by decide +kernel)

/- The comment stands in front of the carriage return. -/
theorem edit_fourth :
    Edit (Bytes.lines fourth) (Bytes.lines last) := by
  have hFourth : Bytes.lines fourth =
      [] ++ (utf8 "model" ++ [13]) ::
        [utf8 "    schema 1.1", utf8 "  // types",
          utf8 "type a"] := by
    decide +kernel
  have hLast : Bytes.lines last =
      [] ++ (utf8 "model" ++ (utf8 "// one" ++ [13])) ::
        [utf8 "    schema 1.1", utf8 "  // types",
          utf8 "type a"] := by
    decide +kernel
  rw [hFourth, hLast]
  exact .append _ _ _ _ _ (.inr (by decide +kernel))
    (by simp [isBlank])

theorem edits_first : Bytes.Edits first last :=
  .head edit_first (.head edit_second
    (.head edit_third (.single edit_fourth)))

theorem last_unchanged :
    (compile first).succeeded = true ∧
      Bytes.Edits first last ∧
        (∃ tokens found, scan first = .ok tokens ∧
          scan last = .ok found ∧
            found.map pair = tokens.map pair) ∧
          Declaration.forgetting Declaration.unplaced
              (Declaration.read last) =
            Declaration.forgetting Declaration.unplaced
              (Declaration.read first) ∧
            (compile last).schema? = (compile first).schema? := by
  have hScan : (scan first).toBool = true := by
    decide +kernel
  cases hFirst : scan first with
  | error error =>
      rw [hFirst] at hScan
      cases hScan
  | ok tokens =>
      rcases unchanged_of_edits edits_first hFirst with
        ⟨⟨found, hFound, hSame⟩, hRead, hSchema⟩
      exact ⟨by decide +kernel, edits_first,
        ⟨tokens, found, rfl, hFound, hSame⟩, hRead, hSchema⟩

end Draft

end Token

end Rebac
