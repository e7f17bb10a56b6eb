import Rebac.Proofs.Bytes
import Rebac.Proofs.Language.Lexeme

/-
  This file defines how lexemes are written on a line and
  proves that the line is divided into them again.

  Two lexemes are kept apart by a blank unless one of them is
  a mark that stands close to the other. So no name, keyword
  or version runs into the next.

  Key definitions include:
    * `Lexeme.IsWritten`
    * `Lexeme.text`
    * `Lexeme.line`
    * `Token.Divides`

  Key theorems include:
    * `Token.divides_line`
-/

namespace Rebac

------------------------------------------------------------
-- Lines
------------------------------------------------------------

namespace Lexeme

/- Whether a lexeme is no layout and its text is as required. -/
def IsWritten : Lexeme → Prop
  | .keyword _ => True
  | .mark _ => True
  | .identifier name => IsIdentifier name
  | .version number => IsVersion number
  | _ => False

/- The bytes of a lexeme, keywords in lower case. -/
def text : Lexeme → Bytes
  | .keyword word => word.spelling
  | .mark sign => sign.spelling
  | .identifier name => name
  | .version number => number
  | _ => []

/- Whether no blank stands between two lexemes. -/
def Touches : Lexeme → Lexeme → Bool
  | .mark .openBracket, _ => true
  | .mark .hash, _ => true
  | .mark .arrow, _ => true
  | .mark .colon, .mark .star => true
  | _, .mark .closeBracket => true
  | _, .mark .comma => true
  | _, .mark .hash => true
  | _, .mark .arrow => true
  | _, .mark .colon => true
  | _, _ => false

/- What stands between a lexeme and those behind it. -/
def gap (first : Lexeme) : List Lexeme → Bytes
  | [] => []
  | second :: _ => if first.Touches second then [] else [32]

/- The text of a line with the given lexemes. -/
def line : List Lexeme → Bytes
  | [] => []
  | first :: others =>
      first.text ++ (gap first others ++ line others)

end Lexeme

------------------------------------------------------------
-- Words
------------------------------------------------------------

namespace Bytes

/- Neither a word nor a version goes on with what follows. -/
def EndsWord (rest : Bytes) : Prop :=
  ∀ byte ∈ rest.head?, isWord byte = false ∧ byte ≠ 46

/- A sign that is no word byte differs from all that are. -/
theorem ne_of_isWord
    {byte sign : UInt8}
    (hWord : isWord byte = true)
    (hSign : isWord sign = false) :
    byte ≠ sign := by
  rintro rfl
  rw [hWord] at hSign
  cases hSign

theorem isWord_of_isDigit
    {byte : UInt8}
    (hDigit : isDigit byte = true) :
    isWord byte = true := by
  simp [isWord, hDigit]

section Runs

variable {property : UInt8 → Bool}
variable {run rest : Bytes}

theorem takeWhile_eq_nil
    (hRest : ∀ byte ∈ rest.head?, property byte = false) :
    rest.takeWhile property = [] := by
  cases rest with
  | nil => rfl
  | cons byte others =>
      refine List.takeWhile_cons_of_neg ?_
      rw [hRest byte rfl]
      exact Bool.false_ne_true

/- A run of bytes ends where the property does. -/
theorem takeWhile_append
    (hRun : ∀ byte ∈ run, property byte = true)
    (hRest : ∀ byte ∈ rest.head?, property byte = false) :
    (run ++ rest).takeWhile property = run := by
  rw [List.takeWhile_append_of_pos hRun,
    takeWhile_eq_nil hRest, List.append_nil]

theorem mem_of_mem_takeWhile_append
    {byte : UInt8}
    (hRest : ∀ byte ∈ rest.head?, property byte = false)
    (hByte : byte ∈ (run ++ rest).takeWhile property) :
    byte ∈ run := by
  induction run with
  | nil =>
      rw [List.nil_append, takeWhile_eq_nil hRest] at hByte
      cases hByte
  | cons first others ih =>
      rw [List.cons_append, List.takeWhile_cons] at hByte
      split at hByte
      · rcases List.mem_cons.mp hByte with rfl | hOthers
        · exact List.mem_cons_self
        · exact List.mem_cons_of_mem first (ih hOthers)
      · cases hByte

end Runs

end Bytes

namespace Lexeme

/- A text that starts with a word byte starts with no mark. -/
theorem first?_of_isWord
    {first : UInt8}
    (hWord : Bytes.isWord first = true)
    (rest : Bytes) :
    first? first rest =
      if Bytes.isDigit first then
        if 46 ∈ rest.takeWhile
            fun byte => Bytes.isDigit byte || byte == 46 then
          some (.version, rest.takeWhile
            fun byte => Bytes.isDigit byte || byte == 46)
        else
          some (.identifier, rest.takeWhile Bytes.isWord)
      else
        some (wordKind (first :: rest.takeWhile Bytes.isWord),
          rest.takeWhile Bytes.isWord) := by
  have hSign {sign : UInt8} (h : Bytes.isWord sign = false) :
      first ≠ sign :=
    Bytes.ne_of_isWord hWord h
  unfold first?
  rw [if_neg (hSign (by decide)), if_neg (hSign (by decide)),
    if_neg (hSign (by decide)), if_neg (hSign (by decide)),
    if_neg (hSign (by decide)), if_neg (hSign (by decide)),
    if_neg (hSign (by decide))]
  by_cases hDigit : Bytes.isDigit first = true
  · rw [if_pos hDigit, if_pos hDigit]
  · rw [if_neg hDigit, if_neg hDigit, if_pos]
    rw [Bytes.isWord, Bool.or_right_comm,
      Bool.or_eq_true] at hWord
    exact hWord.resolve_right hDigit

/- What does not go on with a word has no digit or dot first. -/
theorem not_dotted
    {rest : Bytes}
    (hRest : Bytes.EndsWord rest) :
    ∀ byte ∈ rest.head?,
      (Bytes.isDigit byte || byte == 46) = false := by
  intro byte hByte
  rcases hRest byte hByte with ⟨hWord, hDot⟩
  rw [Bytes.isWord, Bool.or_eq_false_iff,
    Bool.or_eq_false_iff] at hWord
  simp [hWord.1.2, hDot]

theorem first?_name
    {first : UInt8}
    {more rest : Bytes}
    (hName : Bytes.IsName (first :: more))
    (hRest : Bytes.EndsWord rest) :
    first? first (more ++ rest) =
      some (wordKind (first :: more), more) := by
  rcases List.forall_mem_cons.mp hName.2 with ⟨hFirst, hMore⟩
  have hRun : (more ++ rest).takeWhile Bytes.isWord = more :=
    Bytes.takeWhile_append hMore
      fun byte hByte => (hRest byte hByte).1
  rw [first?_of_isWord hFirst, hRun]
  split
  · next hDigit =>
      -- Without a dot a run of digits is the head of a name.
      rw [wordKind, Keyword.ofWord?_of_isDigit hDigit, if_neg]
      intro hDot
      have hInner :=
        Bytes.mem_of_mem_takeWhile_append (not_dotted hRest) hDot
      exact absurd (hMore 46 hInner) (by decide)
  · rfl

theorem first?_version
    {first : UInt8}
    {more rest : Bytes}
    (hVersion : IsVersion (first :: more))
    (hRest : Bytes.EndsWord rest) :
    first? first (more ++ rest) = some (.version, more) := by
  rcases hVersion with ⟨⟨digit, hHead, hDigit⟩, hEach, hDot⟩
  cases hHead
  rcases List.forall_mem_cons.mp hEach with ⟨_, hMore⟩
  have hRun : (more ++ rest).takeWhile
      (fun byte => Bytes.isDigit byte || byte == 46) = more :=
    Bytes.takeWhile_append
      (fun byte hByte => by simpa using hMore byte hByte)
      (not_dotted hRest)
  have hInner : 46 ∈ more := by
    rcases List.mem_cons.mp hDot with hFirst | hInner
    · rw [← hFirst] at hDigit
      exact absurd hDigit (by decide)
    · exact hInner
  rw [first?_of_isWord (Bytes.isWord_of_isDigit hDigit),
    if_pos hDigit, hRun, if_pos hInner]

/- What no text of a lexeme starts with: blanks and slashes. -/
def Starts (first : UInt8) : Prop :=
  first ≠ 9 ∧ first ≠ 10 ∧ first ≠ 13 ∧ first ≠ 32 ∧ first ≠ 47

theorem Starts.of_isWord
    {first : UInt8}
    (hWord : Bytes.isWord first = true) :
    Starts first := by
  have hSign {sign : UInt8} (h : Bytes.isWord sign = false) :
      first ≠ sign :=
    Bytes.ne_of_isWord hWord h
  exact ⟨hSign (by decide), hSign (by decide),
    hSign (by decide), hSign (by decide), hSign (by decide)⟩

def IsMark : Lexeme → Prop
  | .mark _ => True
  | _ => False

variable {lexeme : Lexeme}
variable {rest : Bytes}

/-
  The text of a lexeme is found at the head of what follows,
  unless it is a word and runs into it.
-/
theorem exists_first?
    (hWritten : lexeme.IsWritten)
    (hRest : lexeme.IsMark ∨ Bytes.EndsWord rest) :
    ∃ first more kind, lexeme.text = first :: more ∧
      Starts first ∧
        first? first (more ++ rest) = some (kind, more) ∧
          kind.lexeme (first :: more) = lexeme := by
  cases lexeme with
  | keyword word =>
      have hName : Bytes.IsName word.spelling := by
        cases word <;> decide
      rcases List.exists_cons_of_ne_nil hName.1 with
        ⟨first, more, hText⟩
      have hWord : wordKind word.spelling = .keyword word := by
        cases word <;> rfl
      rw [hText] at hName hWord
      refine ⟨first, more, _, hText,
        .of_isWord (hName.2 first List.mem_cons_self),
        first?_name hName (hRest.resolve_left id), ?_⟩
      rw [hWord]
      rfl
  | mark sign =>
      cases sign <;>
        exact ⟨_, _, _, rfl, by unfold Starts; decide, rfl, rfl⟩
  | identifier name =>
      rcases hWritten with ⟨hName, hWord⟩
      rcases List.exists_cons_of_ne_nil hName.1 with
        ⟨first, more, rfl⟩
      refine ⟨first, more, _, rfl,
        .of_isWord (hName.2 first List.mem_cons_self),
        first?_name hName (hRest.resolve_left id), ?_⟩
      rw [wordKind, hWord]
      rfl
  | version number =>
      have hVersion := hWritten
      rcases hWritten with ⟨⟨first, hHead, hDigit⟩, _, _⟩
      rcases List.head?_eq_some_iff.mp hHead with ⟨more, rfl⟩
      exact ⟨first, more, _, rfl,
        .of_isWord (Bytes.isWord_of_isDigit hDigit),
        first?_version hVersion (hRest.resolve_left id), rfl⟩
  | _ => cases hWritten

/- Of two lexemes without a blank one is a mark. -/
theorem isMark_of_touches
    {second : Lexeme}
    (hTouches : lexeme.Touches second = true) :
    lexeme.IsMark ∨ second.IsMark := by
  unfold Touches at hTouches
  split at hTouches <;>
    first
    | exact .inl trivial
    | exact .inr trivial
    | cases hTouches

/- A word does not run into what is written behind it. -/
theorem isMark_or_endsWord
    (lexeme : Lexeme)
    (others : List Lexeme) :
    lexeme.IsMark ∨
      Bytes.EndsWord (lexeme.gap others ++ line others) := by
  cases others with
  | nil => exact .inr nofun
  | cons second others =>
      cases hTouches : lexeme.Touches second with
      | false =>
          refine .inr ?_
          intro byte hByte
          rw [gap, hTouches] at hByte
          cases hByte
          decide
      | true =>
          refine (isMark_of_touches hTouches).imp_right ?_
          intro hMark byte hByte
          rw [gap, hTouches] at hByte
          cases second with
          | mark sign => cases sign <;> cases hByte <;> decide
          | _ => cases hMark

/- A line starts neither with a blank nor with a comment. -/
theorem exists_line
    (hWritten : lexeme.IsWritten)
    (others : List Lexeme) :
    ∃ first more, line (lexeme :: others) = first :: more ∧
      Starts first := by
  rcases exists_first? hWritten
    (lexeme.isMark_or_endsWord others) with
    ⟨first, more, _, hText, hStarts, _⟩
  refine ⟨first, more ++ (lexeme.gap others ++ line others),
    ?_, hStarts⟩
  rw [line, hText, List.cons_append]

theorem newline_not_mem_text
    (hWritten : lexeme.IsWritten) :
    10 ∉ lexeme.text := by
  cases lexeme with
  | keyword word => cases word <;> decide
  | mark sign => cases sign <;> decide
  | identifier name => exact hWritten.1.not_mem (by decide)
  | version number =>
      intro hNewline
      rcases hWritten.2.1 10 hNewline with hDigit | hDot
      · exact absurd hDigit (by decide)
      · exact absurd hDot (by decide)
  | _ => cases hWritten

theorem newline_not_mem_line
    {lexemes : List Lexeme}
    (hWritten : ∀ lexeme ∈ lexemes, lexeme.IsWritten) :
    10 ∉ line lexemes := by
  induction lexemes with
  | nil => exact List.not_mem_nil
  | cons first others ih =>
      rcases List.forall_mem_cons.mp hWritten with
        ⟨hFirst, hOthers⟩
      have hGap : 10 ∉ first.gap others := by
        cases others with
        | nil => exact List.not_mem_nil
        | cons second more =>
            rw [gap]
            split <;> decide
      rw [line, List.mem_append, List.mem_append]
      rintro (hText | hBetween | hBehind)
      · exact newline_not_mem_text hFirst hText
      · exact hGap hBetween
      · exact ih hOthers hBehind

end Lexeme

------------------------------------------------------------
-- Division
------------------------------------------------------------

namespace Token

/- Whether a text is divided into certain lexemes. -/
def Divides
    (text : Bytes)
    (lexemes : List Lexeme) : Prop :=
  ∀ location, ∃ tokens,
    scanLine location text = .ok tokens ∧
      tokens.map Token.lexeme = lexemes

theorem Divides.blank
    {text : Bytes}
    {lexemes : List Lexeme}
    (hText : Divides text lexemes) :
    Divides (32 :: text) lexemes := by
  intro location
  rw [scanLine, if_pos (by decide)]
  exact hText _

theorem opensComment_of_ne
    {first : UInt8}
    (hSlash : first ≠ 47)
    (rest : Bytes) :
    ¬ opensComment (first :: rest) = true := by
  unfold opensComment
  split
  · next hText =>
      cases hText
      exact absurd rfl hSlash
  · exact Bool.false_ne_true

theorem not_isBlank_of_starts
    {first : UInt8}
    (hStarts : Lexeme.Starts first) :
    ¬ isBlank first = true := by
  rcases hStarts with ⟨hTab, _, hReturn, hSpace, _⟩
  simp [isBlank, hTab, hReturn, hSpace]

theorem Divides.text
    {lexeme : Lexeme}
    {rest : Bytes}
    {lexemes : List Lexeme}
    (hWritten : lexeme.IsWritten)
    (hEnds : lexeme.IsMark ∨ Bytes.EndsWord rest)
    (hRest : Divides rest lexemes) :
    Divides (lexeme.text ++ rest) (lexeme :: lexemes) := by
  rcases Lexeme.exists_first? hWritten hEnds with
    ⟨first, more, kind, hText, hStarts, hFirst, hKind⟩
  intro location
  rcases hRest (location.advance (more.length + 1)) with
    ⟨tokens, hTokens, hLexemes⟩
  refine ⟨⟨kind, first :: more, location⟩ :: tokens, ?_, ?_⟩
  · rw [hText, List.cons_append, scanLine,
      if_neg (not_isBlank_of_starts hStarts),
      if_neg (opensComment_of_ne hStarts.2.2.2.2 _)]
    simp only [hFirst, List.drop_left, hTokens]
  · rw [List.map_cons, hLexemes]
    exact congrArg (· :: lexemes) hKind

/- A line is divided into the lexemes it is written with. -/
theorem divides_line
    {lexemes : List Lexeme}
    (hWritten : ∀ lexeme ∈ lexemes, lexeme.IsWritten) :
    Divides (Lexeme.line lexemes) lexemes := by
  induction lexemes with
  | nil =>
      intro location
      exact ⟨[], by rw [Lexeme.line, scanLine], rfl⟩
  | cons lexeme others ih =>
      rcases List.forall_mem_cons.mp hWritten with
        ⟨hFirst, hOthers⟩
      have hBehind :
          Divides (lexeme.gap others ++ Lexeme.line others)
            others := by
        cases others with
        | nil => exact ih hOthers
        | cons second more =>
            rw [Lexeme.gap]
            split
            · exact ih hOthers
            · exact (ih hOthers).blank
      exact .text hFirst (lexeme.isMark_or_endsWord others)
        hBehind

end Token

end Rebac
