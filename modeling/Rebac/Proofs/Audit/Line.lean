import Mathlib.Data.List.Basic
import Mathlib.Tactic.NormNum
import Rebac.Audit.Line
import Rebac.Proofs.Audit.Json
import Rebac.Proofs.Numeral

/-
  This file proves that a line is one object of JSON, whose
  members are those that it was written from, whatever bytes
  their texts consist of.

  Key definitions include:
    * `Line.Content.value`
    * `Line.Member.value`
    * `Line.Printable`

  Key theorems include:
    * `Json.readText?_escape`
    * `Json.readNumber?_ofInt`
    * `Json.readMember?_render`
    * `Json.read?_render`
    * `Line.printable_render`
-/

namespace Rebac

/- The letters of control characters are those of a table. -/
theorem Line.mem_shortEscapes
    {byte letter : UInt8}
    (hShort : Line.shortEscapes.lookup byte = some letter) :
    (byte, letter) ∈ Line.shortEscapes := by
  rcases List.lookup_eq_some_iff.mp hShort with
    ⟨before, behind, hSplit, _⟩
  rw [hSplit]
  exact List.mem_append_right _ List.mem_cons_self

------------------------------------------------------------
-- Texts
------------------------------------------------------------

namespace Json

/-
  The piece that a written byte is read as: control characters
  without a letter are written by their number.
-/
def piece (byte : UInt8) : Piece :=
  if Line.shortEscapes.lookup byte = none ∧ byte < 32 then
    .unit byte.toNat
  else
    .byte byte

/- Each letter behind a backslash is read as its byte. -/
theorem letterEscapes_of_shortEscapes
    {byte letter : UInt8}
    (hShort : Line.shortEscapes.lookup byte = some letter) :
    letter ≠ 117 ∧ letterEscapes.lookup letter = some byte := by
  have hAll :
      ∀ entry ∈ Line.shortEscapes,
        entry.2 ≠ 117 ∧
          letterEscapes.lookup entry.2 = some entry.1 := by
    simp [Line.shortEscapes, letterEscapes, List.lookup_cons]
  exact hAll (byte, letter) (Line.mem_shortEscapes hShort)

/- A byte is read from the way in which it is written. -/
theorem readPieces?_escapeByte (byte : UInt8) (rest : Bytes) :
    readPieces? (Line.escapeByte byte ++ rest) =
      (readPieces? rest).map fun (pieces, behind) =>
        (piece byte :: pieces, behind) := by
  unfold Line.escapeByte piece
  cases hShort : Line.shortEscapes.lookup byte with
  | some letter =>
      rcases letterEscapes_of_shortEscapes hShort with
        ⟨hLetter, hMeaning⟩
      simp [readPieces?.eq_def (_ :: _), hLetter, hMeaning]
  | none =>
      have hQuote : byte ≠ 34 := by
        rintro rfl
        cases hShort
      have hBackslash : byte ≠ 92 := by
        rintro rfl
        cases hShort
      by_cases hControl : byte < 32
      · have hNumber :
            Numeral.readDigits? 16
                (Numeral.hexadecimal 4 byte.toNat) =
              some byte.toNat := by
          have hSmall : byte.toNat < 256 := byte.toNat_lt
          rw [Numeral.readDigits?_hexadecimal (by decide),
            Nat.mod_eq_of_lt (by omega)]
        simp only [Numeral.hexadecimal, List.nil_append,
          List.cons_append] at hNumber
        simp [Numeral.hexadecimal, readPieces?.eq_def (_ :: _),
          hNumber, hControl]
      · simp [readPieces?.eq_def (_ :: _), hQuote, hBackslash,
          hControl]

/- So is a text, up to the quote behind it. -/
theorem readPieces?_escape (text rest : Bytes) :
    readPieces? (Line.escape text ++ 34 :: rest) =
      some (text.map piece, rest) := by
  induction text with
  | nil => rw [readPieces?.eq_def]; rfl
  | cons byte others ih =>
      rw [Line.escape, List.flatMap_cons, List.append_assoc,
        readPieces?_escapeByte, ← Line.escape, ih]
      rfl

/- A number that is no half of a pair is a character. -/
theorem join?_unit
    {number : Nat}
    (hSingle : number < 0xD800)
    (rest : List Piece) :
    join? (.unit number :: rest) =
      (join? rest).map (character number ++ ·) := by
  cases rest with
  | nil => simp [join?, hSingle]
  | cons next others =>
      cases next with
      | byte byte => simp [join?, hSingle]
      | unit low => simp [join?, hSingle]

/- A control character is written with a single byte. -/
theorem character_toNat
    {byte : UInt8}
    (hControl : byte < 32) :
    character byte.toNat = [byte] := by
  have hAll : ∀ number < 32,
      character number = [UInt8.ofNat number] := by
    decide
  rw [hAll _ (UInt8.lt_iff_toNat_lt.mp hControl),
    UInt8.ofNat_toNat]

theorem join?_pieces (text : Bytes) :
    join? (text.map piece) = some text := by
  induction text with
  | nil => rfl
  | cons byte others ih =>
      rw [List.map_cons]
      by_cases hUnit :
          Line.shortEscapes.lookup byte = none ∧ byte < 32
      · have hNumber : byte.toNat < 32 :=
          UInt8.lt_iff_toNat_lt.mp hUnit.2
        rw [piece, if_pos hUnit, join?_unit (by omega), ih,
          character_toNat hUnit.2]
        rfl
      · rw [piece, if_neg hUnit, join?, ih]
        rfl

/- A text is read as it was before it was written. -/
theorem readText?_escape (text rest : Bytes) :
    readText? (Line.escape text ++ 34 :: rest) =
      some (text, rest) := by
  rw [readText?, readPieces?_escape]
  simp [join?_pieces]

------------------------------------------------------------
-- Numbers
------------------------------------------------------------

/- A text that ends a member: a comma or a brace comes next. -/
def Ends (rest : Bytes) : Prop :=
  ∃ sign others,
    rest = sign :: others ∧ (sign = 44 ∨ sign = 125)

theorem readRun?_ofNat
    {rest : Bytes}
    (hEnds : Ends rest)
    (number : Nat) :
    readRun? (Numeral.ofNat number ++ rest) =
      some (Numeral.ofNat number, rest) := by
  rcases Numeral.ofNat_digits number with ⟨hSome, hDigits⟩
  rcases hEnds with ⟨sign, others, rfl, hSign⟩
  have hNoDigit : Bytes.isDigit sign = false := by
    rcases hSign with rfl | rfl <;> rfl
  simp [readRun?, Decimal.spanDigits,
    List.takeWhile_append_of_pos hDigits,
    List.dropWhile_append_of_pos hDigits, hNoDigit, hSome]

theorem readMagnitude?_ofNat
    {rest : Bytes}
    (hEnds : Ends rest)
    (number : Nat) :
    readMagnitude? (Numeral.ofNat number ++ rest) =
      some ((number : ℚ), rest) := by
  have hWhole :
      readWhole? (Numeral.ofNat number ++ rest) =
        some (Numeral.ofNat number, rest) := by
    rw [readWhole?, readRun?_ofNat hEnds]
    exact if_pos (Numeral.ofNat_leading number)
  rcases hEnds with ⟨sign, others, rfl, rfl | rfl⟩ <;>
    simp [readMagnitude?, hWhole, readFraction?, readExponent?,
      Numeral.value_ofNat]

/- A number is read as it was written. -/
theorem readNumber?_ofInt
    {rest : Bytes}
    (hEnds : Ends rest)
    (number : Int) :
    readNumber? (Numeral.ofInt number ++ rest) =
      some ((number : ℚ), rest) := by
  cases number with
  | ofNat magnitude =>
      have hMinus := Numeral.minus_not_mem_ofNat magnitude
      have hRead := readMagnitude?_ofNat hEnds magnitude
      change readNumber? (Numeral.ofNat magnitude ++ rest) = _
      cases hDigits : Numeral.ofNat magnitude with
      | nil => exact absurd hDigits (Numeral.ofNat_digits _).1
      | cons first others =>
          rw [hDigits] at hMinus hRead
          have hFirst : first ≠ 45 := by
            rintro rfl
            exact hMinus List.mem_cons_self
          rw [List.cons_append, readNumber?, if_neg hFirst]
          exact hRead
  | negSucc predecessor =>
      have hRead := readMagnitude?_ofNat hEnds (predecessor + 1)
      change readNumber?
        (45 :: (Numeral.ofNat (predecessor + 1) ++ rest)) = _
      rw [readNumber?, if_pos rfl, hRead]
      simp [Int.cast_negSucc]

/- A number begins with a digit or a minus sign. -/
theorem exists_ofInt_eq_cons (number : Int) :
    ∃ first others,
      Numeral.ofInt number = first :: others ∧
        ∀ sign, Bytes.isDigit sign = false → sign ≠ 45 →
          first ≠ sign := by
  cases number with
  | ofNat magnitude =>
      rcases Numeral.ofNat_digits magnitude with
        ⟨hSome, hDigits⟩
      rcases List.exists_cons_of_ne_nil hSome with
        ⟨first, others, hCons⟩
      refine ⟨first, others, hCons, ?_⟩
      rintro _ hNoDigit _ rfl
      rw [hDigits first (hCons ▸ List.mem_cons_self)] at hNoDigit
      cases hNoDigit
  | negSucc predecessor =>
      exact ⟨45, _, rfl, fun _ _ hMinus => hMinus.symm⟩

end Json

------------------------------------------------------------
-- Members
------------------------------------------------------------

namespace Line

/- The value that a content is written for. -/
def Content.value : Content → Json.Value
  | .text bytes => .text bytes
  | .number value => .number value

/- The name and the value of a member. -/
def Member.value (member : Member) : Bytes × Json.Value :=
  (member.name, member.content.value)

end Line

namespace Json

theorem skip_cons
    (byte : UInt8)
    (rest : Bytes)
    (hByte : isSpace byte = false) :
    skip (byte :: rest) = byte :: rest := by
  rw [skip, List.dropWhile_cons_of_neg (by simp [hByte])]

/- No word begins like a number. -/
theorem readPlain?_ofInt
    {rest : Bytes}
    (hEnds : Ends rest)
    (number : Int) :
    readPlain? (Numeral.ofInt number ++ rest) =
      some (.number number, rest) := by
  rcases exists_ofInt_eq_cons number with
    ⟨first, others, hCons, hFirst⟩
  have hLetters : 110 ≠ first ∧ 116 ≠ first ∧ 102 ≠ first :=
    ⟨(hFirst 110 rfl (by decide)).symm,
      (hFirst 116 rfl (by decide)).symm,
      (hFirst 102 rfl (by decide)).symm⟩
  have hNull : utf8 "null" = [110, 117, 108, 108] := rfl
  have hTrue : utf8 "true" = [116, 114, 117, 101] := rfl
  have hFalse : utf8 "false" = [102, 97, 108, 115, 101] := rfl
  rw [readPlain?, readNumber?_ofInt hEnds]
  simp [words, hNull, hTrue, hFalse, hCons, List.isPrefixOf?,
    hLetters]

/- The value of a member is read as it was written. -/
theorem readValue?_render
    {rest : Bytes}
    (hEnds : Ends rest)
    (depth : Nat)
    (content : Line.Content) :
    readValue? (depth + 1) (content.render ++ rest) =
      some (content.value, rest) := by
  cases content with
  | text written =>
      have hText := readText?_escape written rest
      have hQuote :
          (Line.Content.text written).render ++ rest =
            34 :: (Line.escape written ++ 34 :: rest) := by
        simp [Line.Content.render, Line.quote]
      rw [hQuote, readValue?, skip_cons _ _ rfl]
      simp only [if_true, hText]
      rfl
  | number number =>
      rcases exists_ofInt_eq_cons number with
        ⟨first, others, hCons, hFirst⟩
      have hPlain := readPlain?_ofInt hEnds number
      have hSpace : isSpace first = false := by
        simp [isSpace, hFirst 32 rfl (by decide),
          hFirst 9 rfl (by decide), hFirst 10 rfl (by decide),
          hFirst 13 rfl (by decide)]
      change readValue? (depth + 1)
        (Numeral.ofInt number ++ rest) = _
      rw [hCons] at hPlain ⊢
      rw [List.cons_append, readValue?, skip_cons _ _ hSpace]
      simp only [hFirst 34 rfl (by decide),
        hFirst 91 rfl (by decide), hFirst 123 rfl (by decide),
        if_false]
      exact hPlain

/- A member is read as it was written. -/
theorem readMember?_render
    {rest : Bytes}
    (hEnds : Ends rest)
    (depth : Nat)
    (member : Line.Member) :
    readMember? (readValue? (depth + 1)) (member.render ++ rest) =
      some (member.value, rest) := by
  have hName :=
    readText?_escape member.name
      (58 :: (member.content.render ++ rest))
  have hValue := readValue?_render hEnds depth member.content
  have hParts :
      member.render ++ rest =
        34 :: (Line.escape member.name ++
          34 :: 58 :: (member.content.render ++ rest)) := by
    simp [Line.Member.render, Line.quote]
  rw [hParts, readMember?, skip_cons _ _ rfl]
  simp only [hName, skip_cons 58 _ rfl, hValue]
  rfl

------------------------------------------------------------
-- Objects
------------------------------------------------------------

/-
  Members with commas between them are read up to the closing
  brace, if the bound admits so many.
-/
theorem readRow?_renderMembers
    (depth : Nat)
    (rest : Bytes)
    (bound : Nat)
    (members : List Line.Member)
    (hSome : members ≠ [])
    (hBound : members.length ≤ bound) :
    readRow? (readMember? (readValue? (depth + 1))) 125 bound
        (Line.renderMembers members ++ 125 :: rest) =
      some (members.map Line.Member.value, rest) := by
  fun_induction Line.renderMembers members generalizing bound with
  | case1 => exact absurd rfl hSome
  | case2 member =>
      obtain ⟨bound, rfl⟩ :=
        Nat.exists_eq_add_one_of_ne_zero
          (Nat.ne_of_gt hBound)
      have hMember :=
        readMember?_render ⟨125, rest, rfl, .inr rfl⟩ depth member
      rw [readRow?, hMember]
      simp [skip_cons 125 _ rfl]
  | case3 member others hOthers ih =>
      obtain ⟨bound, rfl⟩ :=
        Nat.exists_eq_add_one_of_ne_zero
          (Nat.ne_of_gt (Nat.lt_of_lt_of_le (Nat.succ_pos _) hBound))
      have hComma :
          Ends (44 :: (Line.renderMembers others ++ 125 :: rest)) :=
        ⟨44, _, rfl, .inl rfl⟩
      have hMember := readMember?_render hComma depth member
      have hRest := ih bound hOthers (Nat.le_of_succ_le_succ hBound)
      rw [List.append_assoc, List.cons_append, readRow?, hMember]
      simp [skip_cons 44 _ rfl, hRest]

/- Each member takes up room. -/
theorem length_le_renderMembers (members : List Line.Member) :
    members.length ≤ (Line.renderMembers members).length := by
  fun_induction Line.renderMembers members with
  | case1 => exact Nat.le_refl _
  | case2 member => simp [Line.Member.render, Line.quote]
  | case3 member others hOthers ih =>
      simp [Line.Member.render, Line.quote]
      omega

/-
  A line is a single object with the members that it was
  written from.
-/
theorem read?_render
    {members : List Line.Member}
    (hNames : (members.map Line.Member.name).Nodup) :
    read? (Line.render members) =
      some (.object (members.map Line.Member.value)) := by
  have hGroup (depth : Nat) :
      readGroup? (readMember? (readValue? (depth + 1))) 125
          (Line.renderMembers members ++ [125]) =
        some (members.map Line.Member.value, []) := by
    cases members with
    | nil => rfl
    | cons member others =>
        -- The first sign is the quote of a name, not the brace.
        have hFirst : ∃ behind,
            Line.renderMembers (member :: others) ++ [125] =
              34 :: behind := by
          cases others <;>
            simp [Line.renderMembers, Line.Member.render,
              Line.quote]
        rcases hFirst with ⟨behind, hFirst⟩
        have hLength :=
          length_le_renderMembers (member :: others)
        rw [readGroup?]
        simp only [hFirst, skip_cons 34 _ rfl]
        rw [if_neg (by decide), ← hFirst]
        refine readRow?_renderMembers depth [] _ _
          (List.cons_ne_nil _ _) ?_
        rw [List.length_append]
        omega
  have hObject :
      object? (members.map Line.Member.value) =
        some (.object (members.map Line.Member.value)) := by
    rw [object?, List.map_map]
    exact if_pos hNames
  have hDepth : ∃ depth,
      (Line.render members).length = depth + 2 := by
    refine ⟨(Line.renderMembers members).length, ?_⟩
    simp [Line.render]
  rcases hDepth with ⟨depth, hDepth⟩
  rw [read?, hDepth, Line.render, List.cons_append, readValue?,
    skip_cons _ _ rfl]
  simp [hGroup, hObject, skip]

end Json

------------------------------------------------------------
-- Bytes
------------------------------------------------------------

namespace Line

/- No byte is below the space, as newlines are. -/
def Printable (text : Bytes) : Prop :=
  ∀ byte ∈ text, 32 ≤ byte

theorem printable_append
    {first second : Bytes} :
    Printable (first ++ second) ↔
      Printable first ∧ Printable second :=
  List.forall_mem_append

theorem printable_cons
    {byte : UInt8}
    {rest : Bytes} :
    Printable (byte :: rest) ↔ 32 ≤ byte ∧ Printable rest :=
  List.forall_mem_cons

theorem printable_hexadecimal (width number : Nat) :
    Printable (Numeral.hexadecimal width number) := by
  have hDigit : ∀ value < 16, 32 ≤ Numeral.hexDigit value := by
    decide
  induction width generalizing number with
  | zero => exact nofun
  | succ width ih =>
      refine printable_append.mpr ⟨ih _, ?_⟩
      exact printable_cons.mpr
        ⟨hDigit _ (Nat.mod_lt _ (by decide)), nofun⟩

theorem printable_ofNat (number : Nat) :
    Printable (Numeral.ofNat number) := by
  intro byte hByte
  have hDigit := (Numeral.ofNat_digits number).2 byte hByte
  simp only [Bytes.isDigit, Bool.and_eq_true,
    decide_eq_true_iff] at hDigit
  exact UInt8.le_trans (by decide) hDigit.1

theorem printable_ofInt (number : Int) :
    Printable (Numeral.ofInt number) := by
  cases number with
  | ofNat magnitude => exact printable_ofNat magnitude
  | negSucc predecessor =>
      exact printable_cons.mpr
        ⟨by decide, printable_ofNat (predecessor + 1)⟩

/- A byte that is none stands for itself; others are escaped. -/
theorem printable_escapeByte (byte : UInt8) :
    Printable (escapeByte byte) := by
  unfold escapeByte
  split
  · next letter hShort =>
      have hLetters : ∀ entry ∈ shortEscapes, 32 ≤ entry.2 := by
        simp [shortEscapes]
      have hLetter := hLetters _ (mem_shortEscapes hShort)
      simp [Printable, hLetter]
  · split
    · exact printable_cons.mpr
        ⟨by decide, printable_cons.mpr
          ⟨by decide, printable_hexadecimal 4 byte.toNat⟩⟩
    · next hPlain =>
        exact printable_cons.mpr
          ⟨UInt8.not_lt.mp hPlain, nofun⟩

theorem printable_quote (text : Bytes) :
    Printable (quote text) := by
  have hEscaped : Printable (escape text) := by
    intro sign hSign
    rcases List.mem_flatMap.mp hSign with ⟨byte, _, hByte⟩
    exact printable_escapeByte byte sign hByte
  exact printable_cons.mpr
    ⟨by decide, printable_append.mpr
      ⟨hEscaped, printable_cons.mpr ⟨by decide, nofun⟩⟩⟩

theorem Member.printable_render (member : Member) :
    Printable member.render := by
  refine printable_append.mpr ⟨printable_quote member.name,
    printable_cons.mpr ⟨by decide, ?_⟩⟩
  cases member.content with
  | text written => exact printable_quote written
  | number value => exact printable_ofInt value

/- A line has no control character, newlines among them. -/
theorem printable_render (members : List Member) :
    Printable (render members) := by
  have hMembers : Printable (renderMembers members) := by
    fun_induction renderMembers members with
    | case1 => exact nofun
    | case2 member => exact member.printable_render
    | case3 member others _ ih =>
        exact printable_append.mpr ⟨member.printable_render,
          printable_cons.mpr ⟨by decide, ih⟩⟩
  exact printable_cons.mpr
    ⟨by decide, printable_append.mpr
      ⟨hMembers, printable_cons.mpr ⟨by decide, nofun⟩⟩⟩

end Line

end Rebac
