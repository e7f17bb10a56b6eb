import Rebac.Cache.Glob

/-
  This file proves what a pattern stands for that consists of
  signs without a meaning, an escaped text and a star.

  Servers differ in what they take a question mark or a
  bracket for. An escaped text does not depend on it: only the
  rules for literal signs and for the star are needed.

  Key definitions include:
    * `Glob.Rules`
    * `Glob.Dialect.signs`

  Key theorems include:
    * `Glob.rules_matches`
    * `Glob.Rules.append_iff`
    * `Glob.Rules.escape_append_iff`
    * `Glob.Rules.star_iff`
    * `Glob.Rules.escape_star_iff`
    * `Glob.Rules.star_escape_iff`
-/

namespace Rebac

namespace Glob

------------------------------------------------------------
-- Rules
------------------------------------------------------------

/-
  What patterns have to stand for. The empty one stands for
  the empty text. A sign without a meaning, and any sign behind
  a backslash, stands for itself, and a star for every text.
-/
structure Rules (Stands : Bytes → Bytes → Prop) : Prop where
  nil : ∀ {text}, Stands [] text ↔ text = []
  plain : ∀ {byte rest text}, isSpecial byte = false →
    (Stands (byte :: rest) text ↔
      ∃ behind, text = byte :: behind ∧ Stands rest behind)
  quoted : ∀ {byte rest text},
    Stands (92 :: byte :: rest) text ↔
      ∃ behind, text = byte :: behind ∧ Stands rest behind
  star : ∀ {rest text},
    Stands (42 :: rest) text ↔
      ∃ run behind, text = run ++ behind ∧ Stands rest behind

namespace Rules

variable {Stands : Bytes → Bytes → Prop}
variable {start word rest text : Bytes}
variable (hRules : Rules Stands)

include hRules

/- A text without special signs stands for itself. -/
theorem append_iff
    (hPlain : ∀ byte ∈ start, isSpecial byte = false) :
    Stands (start ++ rest) text ↔
      ∃ behind, text = start ++ behind ∧ Stands rest behind := by
  induction start generalizing text with
  | nil => simp
  | cons byte others hOthers =>
      rw [List.forall_mem_cons] at hPlain
      rw [List.cons_append, hRules.plain hPlain.1]
      constructor
      · rintro ⟨middle, rfl, hMiddle⟩
        rcases (hOthers hPlain.2).mp hMiddle with
          ⟨behind, rfl, hBehind⟩
        exact ⟨behind, rfl, hBehind⟩
      · rintro ⟨behind, rfl, hBehind⟩
        exact ⟨others ++ behind, rfl,
          (hOthers hPlain.2).mpr ⟨behind, rfl, hBehind⟩⟩

/- The pattern of a single escaped sign stands for it. -/
theorem escape_sign_iff
    (byte : UInt8) :
    Stands
        ((if isSpecial byte then [92, byte] else [byte]) ++ rest)
        text ↔
      ∃ behind, text = byte :: behind ∧ Stands rest behind := by
  split
  · exact hRules.quoted
  · next hPlain => exact hRules.plain (Bool.eq_false_iff.mpr hPlain)

/- An escaped text stands for itself, whatever its signs are. -/
theorem escape_append_iff :
    Stands (escape word ++ rest) text ↔
      ∃ behind, text = word ++ behind ∧ Stands rest behind := by
  induction word generalizing text with
  | nil => simp [escape]
  | cons byte others hOthers =>
      have hEscape :
          escape (byte :: others) =
            (if isSpecial byte then [92, byte] else [byte]) ++
              escape others := rfl
      rw [hEscape, List.append_assoc, hRules.escape_sign_iff]
      constructor
      · rintro ⟨middle, rfl, hMiddle⟩
        rcases hOthers.mp hMiddle with ⟨behind, rfl, hBehind⟩
        exact ⟨behind, rfl, hBehind⟩
      · rintro ⟨behind, rfl, hBehind⟩
        exact ⟨others ++ behind, rfl,
          hOthers.mpr ⟨behind, rfl, hBehind⟩⟩

theorem star_nil : Stands [42] text :=
  hRules.star.mpr
    ⟨text, [], (List.append_nil text).symm, hRules.nil.mpr rfl⟩

/- A star behind a text stands for all that starts with it. -/
theorem star_iff
    (hPlain : ∀ byte ∈ start, isSpecial byte = false) :
    Stands (start ++ [42]) text ↔ start <+: text := by
  rw [hRules.append_iff hPlain]
  constructor
  · rintro ⟨behind, hText, _⟩
    exact ⟨behind, hText.symm⟩
  · rintro ⟨behind, hText⟩
    exact ⟨behind, hText.symm, hRules.star_nil⟩

/- A star behind an escaped text stands for what starts with it. -/
theorem escape_star_iff
    (hPlain : ∀ byte ∈ start, isSpecial byte = false) :
    Stands (start ++ escape word ++ [42]) text ↔
      start ++ word <+: text := by
  rw [List.append_assoc, hRules.append_iff hPlain]
  constructor
  · rintro ⟨middle, rfl, hMiddle⟩
    rcases hRules.escape_append_iff.mp hMiddle with
      ⟨behind, rfl, _⟩
    exact ⟨behind, List.append_assoc _ _ _⟩
  · rintro ⟨behind, hText⟩
    rw [List.append_assoc] at hText
    exact ⟨word ++ behind, hText.symm,
      hRules.escape_append_iff.mpr ⟨behind, rfl, hRules.star_nil⟩⟩

/- A star before an escaped text stands for what ends with it. -/
theorem star_escape_iff
    (hPlain : ∀ byte ∈ start, isSpecial byte = false) :
    Stands (start ++ 42 :: escape word) text ↔
      ∃ middle, text = start ++ (middle ++ word) := by
  have hWord :
      ∀ behind, Stands (escape word) behind ↔ behind = word := by
    intro behind
    rw [← List.append_nil (escape word), hRules.escape_append_iff]
    simp [hRules.nil]
  rw [hRules.append_iff hPlain]
  constructor
  · rintro ⟨behind, rfl, hBehind⟩
    rcases hRules.star.mp hBehind with ⟨middle, last, rfl, hLast⟩
    rw [(hWord last).mp hLast]
    exact ⟨middle, rfl⟩
  · rintro ⟨middle, rfl⟩
    refine ⟨middle ++ word, rfl, hRules.star.mpr ?_⟩
    exact ⟨middle, word, rfl, (hWord word).mpr rfl⟩

end Rules

------------------------------------------------------------
-- Pieces
------------------------------------------------------------

variable {dialect : Dialect}
variable {text : Bytes}

/- The signs that a dialect does not take for themselves. -/
def Dialect.signs : Dialect → List UInt8
  | .simple => [42, 92]
  | .full => [42, 63, 91, 92]

/- Signs that are not escaped mean nothing in any dialect. -/
theorem not_mem_signs
    {byte : UInt8}
    (hPlain : isSpecial byte = false) :
    byte ∉ dialect.signs := by
  simp only [isSpecial, Bool.or_eq_false_iff, beq_eq_false_iff_ne]
    at hPlain
  cases dialect <;> simp [Dialect.signs, hPlain]

/- A sign without a meaning stands for itself. -/
theorem pieces_cons
    {byte : UInt8}
    (hPlain : byte ∉ dialect.signs)
    (rest : Bytes) :
    pieces dialect (byte :: rest) =
      .literal byte :: pieces dialect rest := by
  have hSign :
      byte ≠ 42 ∧ byte ≠ 92 ∧
        ¬ (dialect = .full ∧ byte = 63) ∧
          ¬ (dialect = .full ∧ byte = 91) := by
    cases dialect <;> simp_all [Dialect.signs]
  rcases hSign with ⟨hStar, hBackslash, hMark, hBracket⟩
  rw [pieces, if_neg hMark, if_neg hBracket]
  · exact hStar
  · exact fun _ _ hBack _ => hBackslash hBack

/- A literal stands for its sign. -/
theorem matchesPieces_literal_iff
    {byte : UInt8}
    {others : List Piece} :
    matchesPieces (.literal byte :: others) text = true ↔
      ∃ behind, text = byte :: behind ∧
        matchesPieces others behind = true := by
  cases text with
  | nil => simp [matchesPieces]
  | cons head tail =>
      simp only [matchesPieces, Piece.admits, Bool.and_eq_true,
        beq_iff_eq, List.cons.injEq]
      constructor
      · rintro ⟨hHead, hTail⟩
        exact ⟨tail, ⟨hHead, rfl⟩, hTail⟩
      · rintro ⟨behind, ⟨hHead, rfl⟩, hBehind⟩
        exact ⟨hHead, hBehind⟩

/- A star stands for every text, before what follows it. -/
theorem matchesPieces_anyRun_iff
    {others : List Piece} :
    matchesPieces (.anyRun :: others) text = true ↔
      ∃ run rest, text = run ++ rest ∧
        matchesPieces others rest = true := by
  induction text with
  | nil =>
      rw [matchesPieces]
      constructor
      · exact fun hOthers => ⟨[], [], rfl, hOthers⟩
      · rintro ⟨run, rest, hText, hOthers⟩
        rw [(List.append_eq_nil_iff.mp hText.symm).2] at hOthers
        exact hOthers
  | cons byte behind hBehind =>
      rw [matchesPieces, Bool.or_eq_true, hBehind]
      constructor
      · rintro (hOthers | ⟨run, rest, rfl, hOthers⟩)
        · exact ⟨[], byte :: behind, rfl, hOthers⟩
        · exact ⟨byte :: run, rest, rfl, hOthers⟩
      · rintro ⟨run, rest, hText, hOthers⟩
        cases run with
        | nil => exact .inl (hText ▸ hOthers)
        | cons head tail =>
            cases hText
            exact .inr ⟨tail, rest, rfl, hOthers⟩

/- The patterns of both dialects obey the rules. -/
theorem rules_matches (dialect : Dialect) :
    Rules (Matches dialect) where
  nil := by
    intro text
    rw [Matches, pieces, matchesPieces, List.isEmpty_iff]
  plain := by
    intro byte rest text hPlain
    rw [Matches, pieces_cons (not_mem_signs hPlain),
      matchesPieces_literal_iff]
    rfl
  quoted := by
    intro byte rest text
    rw [Matches, pieces, matchesPieces_literal_iff]
    rfl
  star := by
    intro rest text
    rw [Matches, pieces, matchesPieces_anyRun_iff]
    rfl

end Glob

end Rebac
