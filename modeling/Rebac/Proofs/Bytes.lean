import Rebac.Bytes

/-
  This file proves how texts are split and joined, and how
  they are put in order.

  Key theorems include:
    * `Bytes.IsName.not_mem`
    * `Bytes.IsName.append_cons_inj`
    * `Bytes.splitFirst_eq_some_iff`
    * `Bytes.splitFirst_eq_none_iff`
    * `Bytes.append_cons_eq_iff`
    * `Bytes.before_eq_of_append_cons`
    * `Bytes.behind_eq_of_append_cons`
    * `Bytes.mem_sortUnique_iff`
    * `Bytes.pairwise_sortUnique`
    * `Bytes.append_lt_append`
-/

namespace Rebac

namespace Bytes

/- A sign that is not a word byte occurs in no name. -/
theorem IsName.not_mem
    {text : Bytes}
    {sign : UInt8}
    (hName : IsName text)
    (hSign : isWord sign = false) :
    sign ∉ text := by
  intro hMem
  rw [hName.2 sign hMem] at hSign
  cases hSign

/- Where a name ends is seen at the sign behind it. -/
theorem IsName.append_cons_inj
    {first second behind after : Bytes}
    {sign mark : UInt8}
    (hFirst : IsName first)
    (hSecond : IsName second)
    (hSign : isWord sign = false)
    (hMark : isWord mark = false)
    (hJoined : first ++ sign :: behind = second ++ mark :: after) :
    first = second ∧ sign = mark ∧ behind = after := by
  rcases List.append_eq_append_iff.mp hJoined with
    ⟨extra, hLonger, hRest⟩ | ⟨extra, hLonger, hRest⟩
  · cases extra with
    | nil =>
        cases hRest
        exact ⟨by rw [hLonger, List.append_nil], rfl, rfl⟩
    | cons byte others =>
        cases hRest
        refine absurd ?_ (hSecond.not_mem hSign)
        rw [hLonger]
        exact List.mem_append_right _ List.mem_cons_self
  · cases extra with
    | nil =>
        cases hRest
        exact ⟨by rw [hLonger, List.append_nil], rfl, rfl⟩
    | cons byte others =>
        cases hRest
        refine absurd ?_ (hFirst.not_mem hMark)
        rw [hLonger]
        exact List.mem_append_right _ List.mem_cons_self

/-
  A text is split at its first separator: the part before it
  has none.
-/
theorem splitFirst_eq_some_iff
    {separator : UInt8}
    {text before behind : Bytes} :
    splitFirst separator text = some (before, behind) ↔
      text = before ++ separator :: behind ∧
        separator ∉ before := by
  induction text generalizing before with
  | nil => simp [splitFirst]
  | cons byte rest hRest =>
      by_cases hByte : byte = separator
      · rw [splitFirst, if_pos hByte, hByte]
        constructor
        · intro hSplit
          cases hSplit
          exact ⟨rfl, List.not_mem_nil⟩
        · rintro ⟨hText, hFirst⟩
          cases before with
          | nil => cases hText; rfl
          | cons head tail =>
              cases hText
              exact absurd List.mem_cons_self hFirst
      · rw [splitFirst, if_neg hByte]
        constructor
        · intro hSplit
          rcases Option.map_eq_some_iff.mp hSplit with
            ⟨⟨front, back⟩, hInner, hParts⟩
          cases hParts
          rcases hRest.mp hInner with ⟨hText, hFirst⟩
          refine ⟨by rw [hText]; rfl, ?_⟩
          rw [List.mem_cons, not_or]
          exact ⟨Ne.symm hByte, hFirst⟩
        · rintro ⟨hText, hFirst⟩
          cases before with
          | nil => cases hText; exact absurd rfl hByte
          | cons head tail =>
              cases hText
              have hInner :=
                hRest.mpr
                  ⟨rfl, fun hMem =>
                    hFirst (List.mem_cons_of_mem _ hMem)⟩
              rw [hInner]
              rfl

/- A text without the separator is not split. -/
theorem splitFirst_eq_none_iff
    {separator : UInt8}
    {text : Bytes} :
    splitFirst separator text = none ↔ separator ∉ text := by
  induction text with
  | nil => simp [splitFirst]
  | cons byte rest ih =>
      rw [splitFirst, List.mem_cons, not_or]
      by_cases hByte : byte = separator
      · simp [hByte]
      · rw [if_neg hByte, Option.map_eq_none_iff, ih]
        exact (and_iff_right (Ne.symm hByte)).symm

/-
  Two pairs that are joined to the same text are equal, or
  the separator of one lies within a part of the other.
-/
theorem append_cons_eq_iff
    {separator : UInt8}
    {before behind front back : Bytes} :
    before ++ separator :: behind =
        front ++ separator :: back ↔
      (before = front ∧ behind = back) ∨
        (∃ middle,
          front = before ++ separator :: middle ∧
            behind = middle ++ separator :: back) ∨
          ∃ middle,
            before = front ++ separator :: middle ∧
              back = middle ++ separator :: behind := by
  constructor
  · intro hJoined
    rcases List.append_eq_append_iff.mp hJoined with
      ⟨extra, hFront, hBehind⟩ | ⟨extra, hBefore, hBack⟩
    · cases extra with
      | nil =>
          cases hBehind
          exact .inl ⟨(List.append_nil before ▸ hFront).symm, rfl⟩
      | cons sign middle =>
          cases hBehind
          exact .inr (.inl ⟨middle, hFront, rfl⟩)
    · cases extra with
      | nil =>
          cases hBack
          exact .inl ⟨List.append_nil front ▸ hBefore, rfl⟩
      | cons sign middle =>
          cases hBack
          exact .inr (.inr ⟨middle, hBefore, rfl⟩)
  · rintro (⟨rfl, rfl⟩ | ⟨middle, rfl, rfl⟩ |
      ⟨middle, rfl, rfl⟩)
    · rfl
    · rw [List.append_assoc, List.cons_append]
    · rw [List.append_assoc, List.cons_append]

section Separated

variable {separator : UInt8}
variable {before behind front back : Bytes}

/- The parts before the first separator are the same. -/
theorem before_eq_of_append_cons
    (hBefore : separator ∉ before)
    (hFront : separator ∉ front)
    (hJoined :
      before ++ separator :: behind =
        front ++ separator :: back) :
    before = front := by
  rcases append_cons_eq_iff.mp hJoined with
    ⟨hSame, _⟩ | ⟨_, hLonger, _⟩ | ⟨_, hLonger, _⟩
  · exact hSame
  · rw [hLonger] at hFront
    exact absurd (List.mem_append_right _ List.mem_cons_self)
      hFront
  · rw [hLonger] at hBefore
    exact absurd (List.mem_append_right _ List.mem_cons_self)
      hBefore

/- The parts behind the last separator are the same. -/
theorem behind_eq_of_append_cons
    (hBehind : separator ∉ behind)
    (hBack : separator ∉ back)
    (hJoined :
      before ++ separator :: behind =
        front ++ separator :: back) :
    behind = back := by
  rcases append_cons_eq_iff.mp hJoined with
    ⟨_, hSame⟩ | ⟨_, _, hLonger⟩ | ⟨_, _, hLonger⟩
  · exact hSame
  · rw [hLonger] at hBehind
    exact absurd (List.mem_append_right _ List.mem_cons_self)
      hBehind
  · rw [hLonger] at hBack
    exact absurd (List.mem_append_right _ List.mem_cons_self)
      hBack

end Separated

------------------------------------------------------------
-- Order
------------------------------------------------------------

theorem pairwise_sort (texts : List Bytes) :
    (sort texts).Pairwise fun first second => first ≤ second := by
  have hTrans : ∀ first second third : Bytes,
      decide (first ≤ second) = true →
        decide (second ≤ third) = true →
          decide (first ≤ third) = true := by
    intro first second third hFirst hSecond
    exact decide_eq_true
      (List.le_trans (of_decide_eq_true hFirst)
        (of_decide_eq_true hSecond))
  have hTotal : ∀ first second : Bytes,
      (decide (first ≤ second) || decide (second ≤ first)) =
        true := by
    intro first second
    rw [Bool.or_eq_true, decide_eq_true_iff, decide_eq_true_iff]
    exact List.le_total first second
  exact (List.pairwise_mergeSort hTrans hTotal texts).imp
    of_decide_eq_true

theorem mem_dropRepeats_iff
    {texts : List Bytes}
    {text : Bytes} :
    text ∈ dropRepeats texts ↔ text ∈ texts := by
  fun_induction dropRepeats texts with
  | case1 first rest ih => simp [ih]
  | case2 first second rest hOther ih => simp [ih]
  | case3 => rfl

/- In a list in order, no text is left twice. -/
theorem pairwise_dropRepeats
    {texts : List Bytes}
    (hOrdered :
      texts.Pairwise fun first second => first ≤ second) :
    (dropRepeats texts).Pairwise (· < ·) := by
  fun_induction dropRepeats texts with
  | case1 first rest ih => exact ih hOrdered.of_cons
  | case2 first second rest hOther ih =>
      rcases List.pairwise_cons.mp hOrdered with
        ⟨hFirst, hRest⟩
      refine List.pairwise_cons.mpr ⟨?_, ih hRest⟩
      intro text hText
      have hSecond : second ≤ text := by
        rcases List.mem_cons.mp (mem_dropRepeats_iff.mp hText)
          with rfl | hLater
        · exact List.le_refl _
        · exact (List.pairwise_cons.mp hRest).1 text hLater
      -- Otherwise the first two texts would be the same.
      refine List.not_le.mp fun hBack => hOther ?_
      exact List.le_antisymm
        (hFirst second List.mem_cons_self)
        (List.le_trans hSecond hBack)
  | case3 texts hShort =>
      cases texts with
      | nil => exact .nil
      | cons first others =>
          cases others with
          | nil => exact List.pairwise_singleton _ _
          | cons second rest => exact absurd rfl (hShort _ _ _)

/- The distinct texts are those of the list, in strict order. -/
theorem mem_sortUnique_iff
    {texts : List Bytes}
    {text : Bytes} :
    text ∈ sortUnique texts ↔ text ∈ texts := by
  rw [sortUnique, mem_dropRepeats_iff, sort, List.mem_mergeSort]

theorem pairwise_sortUnique (texts : List Bytes) :
    (sortUnique texts).Pairwise (· < ·) :=
  pairwise_dropRepeats (pairwise_sort texts)

theorem nodup_sortUnique (texts : List Bytes) :
    (sortUnique texts).Nodup := by
  refine (pairwise_sortUnique texts).imp ?_
  intro first second hLess hSame
  exact List.lt_irrefl _ (hSame ▸ hLess)

theorem dropRepeats_sublist (texts : List Bytes) :
    (dropRepeats texts).Sublist texts := by
  fun_induction dropRepeats texts with
  | case1 first rest ih => exact ih.cons _
  | case2 first second rest hOther ih => exact ih.cons_cons _
  | case3 texts hShort => exact List.Sublist.refl _

theorem length_sortUnique_le (texts : List Bytes) :
    (sortUnique texts).length ≤ texts.length := by
  have hLength := (dropRepeats_sublist (sort texts)).length_le
  rwa [sort, List.length_mergeSort] at hLength

/-
  What stands behind two texts of one length does not change
  their order.
-/
theorem append_lt_append
    {first second : Bytes}
    (behind after : Bytes)
    (hLength : first.length = second.length)
    (hOrder : first < second) :
    first ++ behind < second ++ after := by
  induction first generalizing second with
  | nil =>
      rw [List.eq_nil_of_length_eq_zero hLength.symm] at hOrder
      exact absurd hOrder (List.lt_irrefl [])
  | cons byte rest ih =>
      cases second with
      | nil => exact absurd hOrder (List.not_lt_nil _)
      | cons other more =>
          refine List.cons_lt_cons_iff.mpr ?_
          rcases List.cons_lt_cons_iff.mp hOrder with
            hByte | ⟨hByte, hRest⟩
          · exact .inl hByte
          · exact .inr ⟨hByte, ih (Nat.succ.inj hLength) hRest⟩

end Bytes

end Rebac
