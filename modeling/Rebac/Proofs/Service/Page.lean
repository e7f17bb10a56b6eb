import Rebac.Proofs.Numeral
import Rebac.Proofs.Store.Query
import Rebac.Service.Page

/-
  This file proves that the pages of a list, put one behind
  the other, are the list.

  Pages are read one after the other: each has the token of
  the next one, and the last has none. A page is cut out of a
  whole list, or looked up in a window of it. Numbers of
  elements have to fit into 63 bits, so that no sum of an
  offset and a size wraps where it matters. Sizes may be as
  large as they can be.

  Key definitions include:
    * `Page.Collects`
    * `Page.Follows`
    * `Page.Divides`
    * `Page.Delivers`
    * `Page.Fills`
    * `Page.Ends`
    * `Page.part`

  Key theorems include:
    * `Page.Collects.unique`
    * `Page.cut_eq_part`
    * `Page.ofLookup_eq_part`
    * `Page.delivers_of_part`
    * `Page.delivers_of_cut`
    * `Page.ends_of_cut`
-/

namespace Rebac

namespace Page

variable {Element : Type}

------------------------------------------------------------
-- Pages of a List
------------------------------------------------------------

/-
  From a token on, every page is there, there is a last one,
  and the elements of all of them are the given ones.
-/
inductive Collects
    (read : Bytes → Except StoreError (Page Element)) :
    Bytes → List Element → Prop where
  | last {token : Bytes} {page : Page Element}
      (hRead : read token = .ok page)
      (hNext : page.next = none) :
      Collects read token page.items
  | more {token next : Bytes} {page : Page Element}
      {others : List Element}
      (hRead : read token = .ok page)
      (hNext : page.next = some next)
      (hOthers : Collects read next others) :
      Collects read token (page.items ++ others)

/- The pages that are read from a token on, up to the last. -/
inductive Follows
    (read : Bytes → Except StoreError (Page Element)) :
    Bytes → List (Page Element) → Prop where
  | last {token : Bytes} {page : Page Element}
      (hRead : read token = .ok page)
      (hNext : page.next = none) :
      Follows read token [page]
  | more {token next : Bytes} {page : Page Element}
      {others : List (Page Element)}
      (hRead : read token = .ok page)
      (hNext : page.next = some next)
      (hOthers : Follows read next others) :
      Follows read token (page :: others)

/-
  Together some pages are a list. All but the last one are
  full, and none has more elements than fit. None is empty
  unless the list is.
-/
structure Divides
    (pages : List (Page Element))
    (size : Nat)
    (items : List Element) : Prop where
  all : pages.flatMap Page.items = items
  full : ∀ page ∈ pages.dropLast, page.items.length = size
  fits : ∀ page ∈ pages, page.items.length ≤ size
  filled : items ≠ [] → ∀ page ∈ pages, page.items ≠ []

/-
  The pages from the first one on come to an end, and divide
  up a list by the effective size.
-/
def Delivers
    (read : Bytes → Except StoreError (Page Element))
    (size : UInt64)
    (items : List Element) : Prop :=
  ∃ pages, Follows read [] pages ∧
    Divides pages (effectiveSize size).toNat items

/-
  All pages but the last one are full, and none has more
  elements than fit.
-/
structure Fills
    (pages : List (Page Element))
    (size : Nat) : Prop where
  full : ∀ page ∈ pages.dropLast, page.items.length = size
  fits : ∀ page ∈ pages, page.items.length ≤ size

/-
  The pages from the first one on come to an end, and are
  filled with an effective size, whatever is on them.
-/
def Ends
    (read : Bytes → Except StoreError (Page Element))
    (size : UInt64) : Prop :=
  ∃ pages, Follows read [] pages ∧
    Fills pages (effectiveSize size).toNat

/- The page of a list behind some of its elements. -/
def part
    (items : List Element)
    (offset size : Nat) : Page Element :=
  { items := (items.drop offset).take size
    next :=
      if offset + size < items.length then
        some (Numeral.ofNat (offset + size))
      else
        none }

variable {read : Bytes → Except StoreError (Page Element)}
variable {items : List Element}
variable {pages : List (Page Element)}
variable {offset size : UInt64}

theorem Follows.collects
    {token : Bytes}
    (hFollows : Follows read token pages) :
    Collects read token (pages.flatMap Page.items) := by
  induction hFollows with
  | last hRead hNext =>
      rw [List.flatMap_singleton]
      exact .last hRead hNext
  | more hRead hNext _ hOthers =>
      rw [List.flatMap_cons]
      exact .more hRead hNext hOthers

/- Pages that divide up a list make it up again. -/
theorem Delivers.collects
    (hDelivers : Delivers read size items) :
    Collects read [] items := by
  rcases hDelivers with ⟨pages, hFollows, hDivides⟩
  rw [← hDivides.all]
  exact hFollows.collects

/- The elements of all pages are determined. -/
theorem Collects.unique
    {token : Bytes}
    {others : List Element}
    (hItems : Collects read token items)
    (hOthers : Collects read token others) :
    items = others := by
  induction hItems generalizing others with
  | last hRead hNext =>
      cases hOthers with
      | last hSame _ =>
          rw [Except.ok.inj (hRead.symm.trans hSame)]
      | more hSame hMore _ =>
          rw [← Except.ok.inj (hRead.symm.trans hSame), hNext] at hMore
          cases hMore
  | more hRead hNext _ hLater =>
      cases hOthers with
      | last hSame hLast =>
          rw [← Except.ok.inj (hRead.symm.trans hSame), hNext] at hLast
          cases hLast
      | more hSame hMore hRest =>
          have hPage := Except.ok.inj (hRead.symm.trans hSame)
          rw [← hPage, hNext] at hMore
          cases hMore
          rw [hPage, hLater hRest]

/- There is one page if all elements fit on it. -/
theorem Divides.single
    {page : Page Element}
    {size : Nat}
    (hItems : page.items = items)
    (hShort : items.length ≤ size) :
    Divides [page] size items where
  all := by rw [List.flatMap_singleton, hItems]
  full := nofun
  fits := by
    rintro _ (_ | ⟨_, ⟨⟩⟩)
    rwa [hItems]
  filled hSome := by
    rintro _ (_ | ⟨_, ⟨⟩⟩)
    rwa [hItems]

/- There is a full page before the others if they do not. -/
theorem Divides.cons
    {page : Page Element}
    {size : Nat}
    (hSize : 0 < size)
    (hItems : page.items = items.take size)
    (hLong : size < items.length)
    (hOthers : Divides pages size (items.drop size)) :
    Divides (page :: pages) size items := by
  have hFull : page.items.length = size := by
    rw [hItems, List.length_take_of_le (Nat.le_of_lt hLong)]
  have hRest : items.drop size ≠ [] := by
    rw [ne_eq, List.drop_eq_nil_iff]
    exact Nat.not_le.mpr hLong
  have hPages : pages ≠ [] := by
    rintro rfl
    exact hRest hOthers.all.symm
  refine ⟨?_, ?_, ?_, ?_⟩
  · rw [List.flatMap_cons, hItems, hOthers.all,
      List.take_append_drop]
  · rw [List.dropLast_cons_of_ne_nil hPages,
      List.forall_mem_cons]
    exact ⟨hFull, hOthers.full⟩
  · rw [List.forall_mem_cons]
    exact ⟨Nat.le_of_eq hFull, hOthers.fits⟩
  · rw [List.forall_mem_cons]
    refine fun _ => ⟨?_, hOthers.filled hRest⟩
    exact List.ne_nil_of_length_pos (hFull ▸ hSize)

/- The last page need not be full. -/
theorem Fills.single
    {page : Page Element}
    {size : Nat}
    (hFits : page.items.length ≤ size) :
    Fills [page] size where
  full := nofun
  fits := by
    rintro _ (_ | ⟨_, ⟨⟩⟩)
    exact hFits

/- A full page may be put before the others. -/
theorem Fills.cons
    {page : Page Element}
    {size : Nat}
    (hFull : page.items.length = size)
    (hOthers : Fills pages size) :
    Fills (page :: pages) size where
  full := by
    cases pages with
    | nil => nofun
    | cons next later =>
        rw [List.dropLast_cons_cons, List.forall_mem_cons]
        exact ⟨hFull, hOthers.full⟩
  fits := by
    rw [List.forall_mem_cons]
    exact ⟨Nat.le_of_eq hFull, hOthers.fits⟩

------------------------------------------------------------
-- Tokens and Sizes
------------------------------------------------------------

/- The size of a page is at least one. -/
theorem effectiveSize_pos (size : UInt64) :
    0 < (effectiveSize size).toNat := by
  unfold effectiveSize
  split
  · decide
  · next hSize =>
      rw [Nat.pos_iff_ne_zero]
      exact fun hZero => hSize (UInt64.toNat_inj.mp hZero)

/- A token is read as the offset that it was made of. -/
theorem readToken_ofNat
    {number : Nat}
    (hNumber : number < UInt64.size) :
    readToken (Numeral.ofNat number) =
      .ok (UInt64.ofNat number) := by
  rw [readToken, if_neg (Numeral.ofNat_digits number).1,
    Numeral.readSize?_ofNat hNumber]

/-
  Where a page begins: at the start of the list, or within it
  and behind a whole page.
-/
def Begins
    (items : List Element)
    (offset size : UInt64) : Prop :=
  offset = 0 ∨
    size.toNat ≤ offset.toNat ∧ offset.toNat < items.length

/-
  Where pages begin, their ends do not wrap: what is behind a
  page is longer than the page.
-/
theorem Begins.add_lt
    (hBegins : Begins items offset size)
    (hItems : items.length ≤ Numeral.largestInt64) :
    offset.toNat + size.toNat < UInt64.size := by
  rcases hBegins with rfl | ⟨hBehind, hWithin⟩
  · rw [UInt64.toNat_zero, Nat.zero_add]
    exact UInt64.toNat_lt_size size
  · rw [Numeral.largestInt64] at hItems
    rw [UInt64.size]
    omega

/- Nor does what is looked up for them. -/
theorem Begins.bounds
    (hBegins : Begins items offset size)
    (hItems : items.length ≤ Numeral.largestInt64) :
    offset = 0 ∨
      offset.toNat ≤ Numeral.largestInt64 ∧
        size.toNat + 1 < UInt64.size := by
  refine hBegins.imp_right ?_
  rintro ⟨hBehind, hWithin⟩
  rw [Numeral.largestInt64] at *
  rw [UInt64.size]
  omega

------------------------------------------------------------
-- Cut Pages
------------------------------------------------------------

theorem toNat_add
    (hSum : offset.toNat + size.toNat < UInt64.size) :
    (offset + size).toNat = offset.toNat + size.toNat := by
  rw [UInt64.toNat_add]
  exact Nat.mod_eq_of_lt hSum

/-
  A page that is cut out of a list is a part of it, unless it
  begins within the list and its end wraps.
-/
theorem cut_eq_part
    (hEnd :
      items.length ≤ offset.toNat ∨
        offset.toNat + size.toNat < UInt64.size) :
    cut items offset size =
      .ok (part items offset.toNat size.toNat) := by
  rw [cut, part]
  by_cases hBehind : items.length ≤ offset.toNat
  · rw [if_pos hBehind, if_neg (by omega),
      List.drop_of_length_le hBehind, List.take_nil]
  · rw [if_neg hBehind, toNat_add (hEnd.resolve_left hBehind)]
    dsimp only
    rw [if_neg (by omega)]
    by_cases hMore :
        offset.toNat + size.toNat < items.length
    · rw [Nat.min_eq_right (Nat.le_of_lt hMore), if_pos hMore,
        List.drop_take, Nat.add_sub_cancel_left]
    · have hShort :
          (items.drop offset.toNat).length ≤ size.toNat := by
        rw [List.length_drop]
        omega
      rw [Nat.min_eq_left (Nat.not_lt.mp hMore),
        if_neg (Nat.lt_irrefl _), if_neg hMore,
        List.take_length, List.take_of_length_le hShort]

/- Otherwise it ends before it begins. -/
theorem cut_eq_error
    (hWithin : offset.toNat < items.length)
    (hWraps : UInt64.size ≤ offset.toNat + size.toNat) :
    cut items offset size = .error .oversized := by
  have hOffset := offset.toNat_lt_size
  have hSize := size.toNat_lt_size
  have hSum :
      (offset + size).toNat =
        offset.toNat + size.toNat - UInt64.size := by
    rw [UInt64.toNat_add]
    rw [UInt64.size] at *
    omega
  rw [cut, if_neg (Nat.not_le.mpr hWithin)]
  dsimp only
  rw [if_pos (by omega)]

------------------------------------------------------------
-- Pages that are Looked Up
------------------------------------------------------------

/- A window of no limit shows a whole list. -/
theorem apply_window_of_wraps
    (hSize : size.toNat + 1 = UInt64.size) :
    (window offset size).apply items = items := by
  have hLimit : size + 1 = 0 := by
    rw [← UInt64.toNat_inj, UInt64.toNat_add, UInt64.toNat_one,
      hSize]
    rfl
  rw [Window.apply, window, if_pos hLimit]

/-
  Any other one shows one element more than the page has. A
  limit that counts as negative is longer than the list.
-/
theorem apply_window
    (hItems : items.length ≤ Numeral.largestInt64)
    (hSize : size.toNat + 1 < UInt64.size) :
    (window offset size).apply items =
      (items.drop (Window.signed offset).toNat).take
        (size.toNat + 1) := by
  have hRoom : (size + 1).toNat = size.toNat + 1 :=
    toNat_add hSize
  have hLimit : size + 1 ≠ 0 := by
    intro hZero
    rw [hZero] at hRoom
    cases hRoom
  rw [Window.apply, window]
  dsimp only
  rw [if_neg hLimit, Window.limited, hRoom]
  split
  · next hNegative =>
      have hLong : Numeral.largestInt64 < (size + 1).toNat := by
        refine Int.not_le.mp fun hRest => ?_
        rw [Window.signed_eq hRest] at hNegative
        omega
      refine (List.take_of_length_le ?_).symm
      rw [List.length_drop]
      omega
  · rfl

/-
  A page that is looked up in its window is a part as well if
  it is the first one, or if neither its offset counts as
  negative nor its size is the largest number.
-/
theorem ofLookup_eq_part
    (hItems : items.length ≤ Numeral.largestInt64)
    (hBounds :
      offset = 0 ∨
        offset.toNat ≤ Numeral.largestInt64 ∧
          size.toNat + 1 < UInt64.size) :
    ofLookup ((window offset size).apply items) offset size =
      part items offset.toNat size.toNat := by
  by_cases hSize : size.toNat + 1 < UInt64.size
  · have hOffset : offset.toNat ≤ Numeral.largestInt64 := by
      rcases hBounds with rfl | ⟨hOffset, _⟩
      · decide
      · exact hOffset
    have hMore :
        size.toNat <
            ((items.drop offset.toNat).take
              (size.toNat + 1)).length ↔
          offset.toNat + size.toNat < items.length := by
      rw [List.length_take, List.length_drop]
      omega
    rw [apply_window hItems hSize, Window.signed_eq hOffset,
      Int.toNat_natCast, ofLookup, part, List.take_take,
      Nat.min_eq_left (Nat.le_succ _)]
    simp only [hMore]
    congr 1
    split
    · rw [Numeral.largestInt64] at hItems
      rw [token, toNat_add (by rw [UInt64.size]; omega)]
    · rfl
  · have hLargest : size.toNat + 1 = UInt64.size :=
      Nat.le_antisymm size.toNat_lt_size (Nat.not_lt.mp hSize)
    have hStart : offset = 0 :=
      hBounds.resolve_right fun hBoth => hSize hBoth.2
    have hShort : items.length ≤ size.toNat := by
      rw [Numeral.largestInt64] at hItems
      rw [UInt64.size] at hLargest
      omega
    subst hStart
    rw [apply_window_of_wraps hLargest, ofLookup, part,
      if_neg (Nat.not_lt.mpr hShort), UInt64.toNat_zero,
      Nat.zero_add, if_neg (Nat.not_lt.mpr hShort),
      List.drop_zero]

------------------------------------------------------------
-- All Pages
------------------------------------------------------------

section

variable
  (hItems : items.length ≤ Numeral.largestInt64)
  (hSize : 0 < size.toNat)
  (hRead : ∀ token offset, readToken token = .ok offset →
    Begins items offset size →
      read token = .ok (part items offset.toNat size.toNat))

include hItems hSize hRead

/- The pages from an offset on are the rest of the list. -/
theorem exists_pages_from
    {token : Bytes}
    {offset : UInt64}
    (hToken : readToken token = .ok offset)
    (hBegins : Begins items offset size) :
    ∃ pages, Follows read token pages ∧
      Divides pages size.toNat (items.drop offset.toNat) := by
  have hPage := hRead token offset hToken hBegins
  by_cases hMore : offset.toNat + size.toNat < items.length
  · have hSum := hBegins.add_lt hItems
    have hNext := UInt64.toNat_ofNat_of_lt' hSum
    have hBehind :
        Begins items
          (UInt64.ofNat (offset.toNat + size.toNat)) size := by
      rw [Begins, hNext]
      exact .inr ⟨Nat.le_add_left _ _, hMore⟩
    rcases exists_pages_from (readToken_ofNat hSum) hBehind with
      ⟨others, hOthers, hDivides⟩
    rw [hNext, ← List.drop_drop] at hDivides
    refine ⟨_ :: others, .more hPage (if_pos hMore) hOthers, ?_⟩
    refine hDivides.cons hSize rfl ?_
    rw [List.length_drop]
    omega
  · have hShort :
        (items.drop offset.toNat).length ≤ size.toNat := by
      rw [List.length_drop]
      omega
    refine ⟨_, .last hPage (if_neg hMore), ?_⟩
    exact .single (List.take_of_length_le hShort) hShort
termination_by items.length - offset.toNat
decreasing_by
  rw [hNext]
  omega

end

section

variable (hItems : items.length ≤ Numeral.largestInt64)

include hItems

/- All pages that are parts of a list divide it up. -/
theorem delivers_of_part
    (hRead : ∀ token offset, readToken token = .ok offset →
      Begins items offset (effectiveSize size) →
        read token =
          .ok (part items offset.toNat
            (effectiveSize size).toNat)) :
    Delivers read size items :=
  exists_pages_from hItems (effectiveSize_pos size) hRead rfl
    (.inl rfl)

/- So do the pages that are cut out of it. -/
theorem delivers_of_cut
    (hRead : ∀ token offset, readToken token = .ok offset →
      read token = cut items offset (effectiveSize size)) :
    Delivers read size items := by
  refine delivers_of_part hItems fun token offset hToken hBegins =>
    ?_
  rw [hRead token offset hToken,
    cut_eq_part (.inr (hBegins.add_lt hItems))]

end

end Page

end Rebac
