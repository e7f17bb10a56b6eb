import Mathlib.Algebra.BigOperators.Group.List.Basic
import Mathlib.Data.Finset.Card
import Mathlib.Data.Nat.Bitwise
import Rebac.Cache.Bloom

/-
  This file proves what can be relied on in a filter, whatever
  is added to it and whenever it is cleared.

  A slot is a bit of a word. Setting it changes no other slot,
  and the hashes give a key the same slots whenever it is asked
  for, so a key that was added is not denied until the filter
  is cleared.

  Key definitions include:
    * `Bloom.Grown`
    * `Bloom.setBits`
    * `Bloom.Accurate`
    * `Bloom.run`
    * `Bloom.Reliable`

  Key theorems include:
    * `Bloom.isSet_set_iff`
    * `Bloom.Grown.mightContain`
    * `Bloom.mightContain_add`
    * `Bloom.toNat_combined`
    * `Bloom.Accurate.filled_le`
    * `Bloom.Holds.run`
    * `Bloom.reliable_of_run`
-/

namespace Rebac

namespace Bloom

variable {bloom middle later : Bloom}
variable {key : Bytes}

------------------------------------------------------------
-- Slots
------------------------------------------------------------

@[simp] theorem size_slots (bloom : Bloom) :
    bloom.slots.size = bloom.bits :=
  Array.size_ofFn

/- The words have room for all slots. -/
theorem div_lt_size
    {slot : Nat}
    (hInside : slot < bloom.bits) :
    slot / 64 < bloom.words.size := by
  rw [bloom.enough]
  omega

theorem word_eq_getD (bloom : Bloom) (slot : Nat) :
    bloom.word slot = bloom.words.toList.getD (slot / 64) 0 := by
  rw [word, Array.getD_eq_getD_getElem?,
    List.getD_eq_getElem?_getD, Array.getElem?_toList]

theorem toNat_mask (slot : Nat) :
    (mask slot).toNat = 2 ^ (slot % 64) := by
  have hBit : slot % 64 < 64 := Nat.mod_lt _ (by decide)
  have hPower : 2 ^ (slot % 64) < 2 ^ 64 :=
    Nat.pow_lt_pow_right (by decide) hBit
  rw [mask, UInt64.toNat_shiftLeft, UInt64.toNat_ofNat',
    Nat.mod_eq_of_lt (hBit.trans (by decide)), Nat.mod_mod,
    UInt64.toNat_one, Nat.one_shiftLeft,
    Nat.mod_eq_of_lt hPower]

/- A slot is set if its bit is. -/
theorem isSet_iff
    {slot : Nat} :
    bloom.isSet slot = true ↔
      (bloom.word slot).toNat.testBit (slot % 64) = true := by
  rw [isSet, decide_eq_true_iff, ne_eq, ← UInt64.toNat_inj,
    UInt64.toNat_and, toNat_mask, Nat.and_two_pow,
    UInt64.toNat_zero]
  cases (bloom.word slot).toNat.testBit (slot % 64) <;> simp

/- A word with the bit of a slot has one bit more. -/
theorem testBit_or_mask
    (word : UInt64)
    (slot bit : Nat) :
    (word ||| mask slot).toNat.testBit bit = true ↔
      word.toNat.testBit bit = true ∨ bit = slot % 64 := by
  rw [UInt64.toNat_or, Nat.testBit_or, toNat_mask,
    Nat.testBit_two_pow, Bool.or_eq_true, decide_eq_true_iff,
    eq_comm (a := slot % 64)]

/- Setting a slot sets this one only. -/
theorem isSet_set_iff
    {slot other : Nat} :
    (bloom.set slot).isSet other = true ↔
      bloom.isSet other = true ∨
        other = slot ∧ slot / 64 < bloom.words.size := by
  rw [set]
  split
  · next hSet =>
      refine (or_iff_left_of_imp ?_).symm
      rintro ⟨rfl, _⟩
      exact hSet
  · rw [isSet_iff, isSet_iff]
    simp only [word, Array.getD_eq_getD_getElem?]
    rw [Array.getElem?_setIfInBounds]
    by_cases hWord : slot / 64 = other / 64
    · rw [if_pos hWord, hWord]
      split
      · next hRoom =>
          rw [Option.getD_some, testBit_or_mask, and_iff_left hRoom]
          exact or_congr_right (by omega)
      · next hRoom =>
          rw [Array.getElem?_eq_none (Nat.not_lt.mp hRoom)]
          exact (or_iff_left fun hBoth => hRoom hBoth.2).symm
    · rw [if_neg hWord]
      refine (or_iff_left ?_).symm
      rintro ⟨rfl, _⟩
      exact hWord rfl

@[simp] theorem set_bits (bloom : Bloom) (slot : Nat) :
    (bloom.set slot).bits = bloom.bits := by
  rw [set]
  split <;> rfl

@[simp] theorem set_hashes (bloom : Bloom) (slot : Nat) :
    (bloom.set slot).hashes = bloom.hashes := by
  rw [set]
  split <;> rfl

@[simp] theorem set_inserted (bloom : Bloom) (slot : Nat) :
    (bloom.set slot).inserted = bloom.inserted := by
  rw [set]
  split <;> rfl

/- The slots of a key are slots of the filter. -/
theorem lt_bits_of_mem_slotsOf
    {slot : Nat}
    (hBits : 0 < bloom.bits)
    (hSlot : slot ∈ bloom.slotsOf key) :
    slot < bloom.bits := by
  rcases List.mem_map.mp hSlot with ⟨index, _, rfl⟩
  exact Nat.mod_lt _ hBits

------------------------------------------------------------
-- Growth
------------------------------------------------------------

/- A filter of the same size in which no fewer slots are set. -/
structure Grown (bloom later : Bloom) : Prop where
  hashes : later.hashes = bloom.hashes
  size : later.slots.size = bloom.slots.size
  isSet : ∀ slot, bloom.isSet slot → later.isSet slot

theorem Grown.refl (bloom : Bloom) : bloom.Grown bloom :=
  ⟨rfl, rfl, fun _ hSet => hSet⟩

theorem Grown.trans
    (hFirst : bloom.Grown middle)
    (hSecond : middle.Grown later) :
    bloom.Grown later where
  hashes := hSecond.hashes.trans hFirst.hashes
  size := hSecond.size.trans hFirst.size
  isSet slot hSet := hSecond.isSet slot (hFirst.isSet slot hSet)

theorem Grown.bits
    (hGrown : bloom.Grown later) :
    later.bits = bloom.bits := by
  simpa only [size_slots] using hGrown.size

/- A key's slots only depend on the size of the filter. -/
theorem Grown.slotsOf_eq
    (hGrown : bloom.Grown later)
    (key : Bytes) :
    later.slotsOf key = bloom.slotsOf key := by
  have hSlot : later.slot key = bloom.slot key := by
    funext index
    rw [slot, slot, hGrown.bits]
  rw [slotsOf, slotsOf, hGrown.hashes, hSlot]

theorem mightContain_iff :
    bloom.mightContain key = true ↔
      ∀ slot ∈ bloom.slotsOf key, bloom.isSet slot = true := by
  rw [mightContain, List.all_eq_true]

/- A filter that has grown denies no more keys. -/
theorem Grown.mightContain
    (hGrown : bloom.Grown later)
    (hKey : bloom.mightContain key = true) :
    later.mightContain key = true := by
  rw [mightContain_iff] at hKey ⊢
  intro slot hSlot
  rw [hGrown.slotsOf_eq key] at hSlot
  exact hGrown.isSet slot (hKey slot hSlot)

------------------------------------------------------------
-- Additions
------------------------------------------------------------

/- Setting a slot keeps the others. -/
theorem grown_set (bloom : Bloom) (slot : Nat) :
    bloom.Grown (bloom.set slot) where
  hashes := set_hashes bloom slot
  size := by rw [size_slots, size_slots, set_bits]
  isSet _ hSet := isSet_set_iff.mpr (.inl hSet)

/- So does setting several slots, and all of them are set then. -/
theorem grown_foldl
    (bloom : Bloom)
    (slots : List Nat) :
    bloom.Grown (slots.foldl set bloom) ∧
      ∀ slot ∈ slots, slot < bloom.bits →
        (slots.foldl set bloom).isSet slot = true := by
  induction slots generalizing bloom with
  | nil => exact ⟨.refl bloom, nofun⟩
  | cons slot others hOthers =>
      have hGrown := grown_set bloom slot
      rcases hOthers (bloom.set slot) with ⟨hLater, hAll⟩
      refine ⟨hGrown.trans hLater, ?_⟩
      intro other hOther hInside
      rcases List.mem_cons.mp hOther with rfl | hOther
      · exact hLater.isSet other (isSet_set_iff.mpr
          (.inr ⟨rfl, div_lt_size hInside⟩))
      · exact hAll other hOther (hGrown.bits ▸ hInside)

theorem foldl_inserted
    (bloom : Bloom)
    (slots : List Nat) :
    (slots.foldl set bloom).inserted = bloom.inserted := by
  induction slots generalizing bloom with
  | nil => rfl
  | cons slot others hOthers =>
      exact (hOthers (bloom.set slot)).trans
        (set_inserted bloom slot)

/- Adding a key counts it. -/
theorem add_inserted (bloom : Bloom) (key : Bytes) :
    (bloom.add key).inserted = bloom.inserted + 1 :=
  congrArg (· + 1) (foldl_inserted bloom (bloom.slotsOf key))

/- Adding a key sets no slot back. -/
theorem grown_add (bloom : Bloom) (key : Bytes) :
    bloom.Grown (bloom.add key) := by
  have hGrown := (grown_foldl bloom (bloom.slotsOf key)).1
  exact ⟨hGrown.hashes, hGrown.size, hGrown.isSet⟩

/- A key that was just added is not denied. -/
theorem mightContain_add
    (hSlots : 0 < bloom.slots.size)
    (key : Bytes) :
    (bloom.add key).mightContain key = true := by
  rw [size_slots] at hSlots
  rw [mightContain_iff, (grown_add bloom key).slotsOf_eq key]
  intro slot hSlot
  exact (grown_foldl bloom (bloom.slotsOf key)).2 slot hSlot
    (lt_bits_of_mem_slotsOf hSlots hSlot)

/- A filter has slots from the start, and keeps them. -/
theorem size_empty_pos (expected : Nat) (rate : Float) :
    0 < (empty expected rate).slots.size := by
  have hSlots : 64 ≤ slotCount expected rate :=
    Nat.le_max_right _ _
  rw [size_slots]
  exact Nat.lt_of_lt_of_le (by decide) hSlots

theorem size_clear (bloom : Bloom) :
    bloom.clear.slots.size = bloom.slots.size := by
  rw [size_slots, size_slots]
  rfl

------------------------------------------------------------
-- Hashes
------------------------------------------------------------

/-
  What the hashes of ten indices are combined to is the same as
  with unbounded numbers: nothing exceeds 64 bits on the way.
-/
theorem toNat_combined
    {index : Nat}
    (hIndex : index < 10)
    (key : Bytes) :
    (Hash.fnv1a key).toNat + index * (Hash.djb2 key).toNat +
          index * index * (Hash.sdbm key).toNat < 2 ^ 64 ∧
      (combined key index).toNat =
        (Hash.fnv1a key).toNat + index * (Hash.djb2 key).toNat +
          index * index * (Hash.sdbm key).toNat / 2 := by
  have hFirst := (Hash.fnv1a key).toNat_lt
  have hSecond : index * (Hash.djb2 key).toNat ≤ 9 * 2 ^ 32 :=
    Nat.mul_le_mul (by omega) (Hash.djb2 key).toNat_lt.le
  have hSquare : index * index ≤ 9 * 9 :=
    Nat.mul_le_mul (by omega) (by omega)
  have hThird :
      index * index * (Hash.sdbm key).toNat ≤ 9 * 9 * 2 ^ 32 :=
    Nat.mul_le_mul hSquare (Hash.sdbm key).toNat_lt.le
  have hIndex' : (UInt64.ofNat index).toNat = index :=
    UInt64.toNat_ofNat_of_lt (hIndex.trans (by decide))
  refine ⟨by omega, ?_⟩
  rw [combined]
  simp only [UInt64.toNat_add, UInt64.toNat_mul,
    UInt64.toNat_div, UInt32.toNat_toUInt64, hIndex',
    UInt64.reduceToNat]
  rw [Nat.mod_eq_of_lt (a := index * index) (by omega),
    Nat.mod_eq_of_lt (a := index * index * _) (by omega),
    Nat.mod_eq_of_lt (a := index * _) (by omega)]
  omega

------------------------------------------------------------
-- Counts
------------------------------------------------------------

/- The number of bits of a word that are one. -/
def oneBits (word : UInt64) : Nat :=
  ((Finset.range 64).filter fun bit =>
    word.toNat.testBit bit = true).card

/- The number of bits of all words that are one. -/
def setBits (bloom : Bloom) : Nat :=
  (bloom.words.toList.map oneBits).sum

theorem oneBits_or_mask
    {word : UInt64}
    {slot : Nat}
    (hClear : ¬ word.toNat.testBit (slot % 64) = true) :
    oneBits (word ||| mask slot) = oneBits word + 1 := by
  have hBits :
      ((Finset.range 64).filter fun bit =>
          (word ||| mask slot).toNat.testBit bit = true) =
        insert (slot % 64) ((Finset.range 64).filter fun bit =>
          word.toNat.testBit bit = true) := by
    ext bit
    have hBit : slot % 64 < 64 := Nat.mod_lt _ (by decide)
    simp only [Finset.mem_filter, Finset.mem_insert,
      Finset.mem_range, testBit_or_mask]
    constructor
    · rintro ⟨hRange, hOld | hNew⟩
      · exact .inr ⟨hRange, hOld⟩
      · exact .inl hNew
    · rintro (rfl | ⟨hRange, hOld⟩)
      · exact ⟨hBit, .inr rfl⟩
      · exact ⟨hRange, .inl hOld⟩
  rw [oneBits, hBits, Finset.card_insert_of_notMem, oneBits]
  simp [hClear]

/- Changing a word changes the count by that of the word. -/
theorem sum_oneBits_set
    {words : List UInt64}
    {index : Nat}
    (hIndex : index < words.length)
    (word : UInt64) :
    ((words.set index word).map oneBits).sum +
        oneBits (words.getD index 0) =
      (words.map oneBits).sum + oneBits word := by
  induction words generalizing index with
  | nil => cases hIndex
  | cons first others hOthers =>
      cases index with
      | zero =>
          rw [List.set_cons_zero, List.getD_cons_zero,
            List.map_cons, List.map_cons, List.sum_cons,
            List.sum_cons]
          omega
      | succ index =>
          have hRest := hOthers (Nat.lt_of_succ_lt_succ hIndex)
          rw [List.set_cons_succ, List.getD_cons_succ,
            List.map_cons, List.map_cons, List.sum_cons,
            List.sum_cons]
          omega

/- No more bits are one than there may be. -/
theorem sum_oneBits_le
    {words : List UInt64}
    {bits : Nat}
    (hInside : ∀ index bit, bit < 64 →
      (words.getD index 0).toNat.testBit bit = true →
        64 * index + bit < bits) :
    (words.map oneBits).sum ≤ bits := by
  induction words generalizing bits with
  | nil => exact Nat.zero_le _
  | cons first others hOthers =>
      have hFirst : oneBits first ≤ min 64 bits := by
        rw [← Finset.card_range (min 64 bits)]
        refine Finset.card_le_card fun bit hBit => ?_
        rcases Finset.mem_filter.mp hBit with ⟨hRange, hOne⟩
        have hRange := Finset.mem_range.mp hRange
        have hBound := hInside 0 bit hRange hOne
        exact Finset.mem_range.mpr (by omega)
      have hRest :
          (others.map oneBits).sum ≤ bits - 64 := by
        refine hOthers fun index bit hBit hOne => ?_
        have hBound := hInside (index + 1) bit hBit hOne
        omega
      rw [List.map_cons, List.sum_cons]
      omega

/-
  The slots that are counted are the bits that are one, and
  these are all bits of slots: none behind them is one.
-/
structure Accurate (bloom : Bloom) : Prop where
  filled : bloom.filled = bloom.setBits
  inside : ∀ slot, bloom.isSet slot = true → slot < bloom.bits

theorem accurate_blank (bits hashes : Nat) :
    (blank bits hashes).Accurate where
  filled := by
    have hZero : oneBits 0 = 0 := by simp [oneBits]
    rw [setBits, blank, Array.toList_replicate,
      List.map_replicate, hZero, List.sum_replicate]
    exact (Nat.mul_zero _).symm
  inside slot hSet := by
    have hWord : (blank bits hashes).word slot = 0 := by
      rw [word, blank, Array.getD_eq_getD_getElem?,
        Array.getElem?_replicate]
      split <;> rfl
    rw [isSet_iff, hWord, UInt64.toNat_zero,
      Nat.zero_testBit] at hSet
    cases hSet

/- A slot that is set for the first time is counted. -/
theorem Accurate.set
    {slot : Nat}
    (hAccurate : bloom.Accurate)
    (hInside : slot < bloom.bits) :
    (bloom.set slot).Accurate where
  filled := by
    rw [Bloom.set]
    split
    · exact hAccurate.filled
    · next hClear =>
        have hWord :
            slot / 64 < bloom.words.toList.length :=
          div_lt_size hInside
        rw [isSet_iff] at hClear
        have hSum := sum_oneBits_set hWord
          (bloom.word slot ||| mask slot)
        rw [← word_eq_getD, oneBits_or_mask hClear] at hSum
        have hFilled := hAccurate.filled
        rw [setBits] at hFilled ⊢
        rw [Array.toList_setIfInBounds]
        dsimp only
        omega
  inside other hOther := by
    rw [set_bits]
    rcases isSet_set_iff.mp hOther with hBefore | ⟨rfl, _⟩
    · exact hAccurate.inside other hBefore
    · exact hInside

theorem Accurate.foldl
    {slots : List Nat}
    (hAccurate : bloom.Accurate)
    (hInside : ∀ slot ∈ slots, slot < bloom.bits) :
    (slots.foldl Bloom.set bloom).Accurate := by
  induction slots generalizing bloom with
  | nil => exact hAccurate
  | cons slot others hOthers =>
      rcases List.forall_mem_cons.mp hInside with
        ⟨hFirst, hRest⟩
      exact hOthers (hAccurate.set hFirst)
        (by simpa only [set_bits] using hRest)

theorem Accurate.add
    (hAccurate : bloom.Accurate)
    (hBits : 0 < bloom.bits)
    (key : Bytes) :
    (bloom.add key).Accurate := by
  have hInside : ∀ slot ∈ bloom.slotsOf key, slot < bloom.bits :=
    fun _ hSlot => lt_bits_of_mem_slotsOf hBits hSlot
  have hMarked := hAccurate.foldl hInside
  exact ⟨hMarked.filled, hMarked.inside⟩

/- An accurate filter counts no more slots than there are. -/
theorem Accurate.filled_le
    (hAccurate : bloom.Accurate) :
    bloom.filled ≤ bloom.bits := by
  rw [hAccurate.filled, setBits]
  refine sum_oneBits_le fun index bit hBit hOne => ?_
  refine hAccurate.inside (64 * index + bit) (isSet_iff.mpr ?_)
  have hIndex : (64 * index + bit) / 64 = index := by omega
  have hRest : (64 * index + bit) % 64 = bit := by omega
  rw [word_eq_getD, hIndex, hRest]
  exact hOne

------------------------------------------------------------
-- Runs
------------------------------------------------------------

/- What can be done with a filter. -/
inductive Operation where
  | add (key : Bytes)
  | clear
  deriving DecidableEq, Repr

/- The filter after an operation. -/
def perform (operation : Operation) (bloom : Bloom) : Bloom :=
  match operation with
  | .add key => bloom.add key
  | .clear => bloom.clear

/- The filter after some operations. -/
def run (operations : List Operation) (bloom : Bloom) : Bloom :=
  operations.foldl (fun bloom operation => bloom.perform operation)
    bloom

/- The keys that are kept after an operation. -/
def Operation.keep (keys : List Bytes) : Operation → List Bytes
  | .add key => keys ++ [key]
  | .clear => []

/- The keys that were added and not forgotten since. -/
def keysOf (operations : List Operation) : List Bytes :=
  operations.foldl Operation.keep []

/- What a filter knows of the keys that were added. -/
structure Holds (keys : List Bytes) (bloom : Bloom) : Prop where
  found : ∀ key ∈ keys, bloom.mightContain key = true
  accurate : bloom.Accurate
  inserted : bloom.inserted = keys.length

theorem holds_blank (bits hashes : Nat) :
    (blank bits hashes).Holds [] where
  found := nofun
  accurate := accurate_blank bits hashes
  inserted := rfl

theorem perform_bits (operation : Operation) (bloom : Bloom) :
    (bloom.perform operation).bits = bloom.bits := by
  cases operation with
  | add key => exact (grown_add bloom key).bits
  | clear => rfl

theorem Holds.perform
    {keys : List Bytes}
    (hHolds : bloom.Holds keys)
    (hBits : 0 < bloom.bits)
    (operation : Operation) :
    (bloom.perform operation).Holds (operation.keep keys) := by
  cases operation with
  | add key =>
      refine ⟨?_, hHolds.accurate.add hBits key, ?_⟩
      · intro other hOther
        rcases List.mem_append.mp hOther with hEarlier | hNew
        · exact (grown_add bloom key).mightContain
            (hHolds.found other hEarlier)
        · cases List.mem_singleton.mp hNew
          exact mightContain_add (by rwa [size_slots]) key
      · rw [Bloom.perform, add_inserted, hHolds.inserted,
          Operation.keep, List.length_append,
          List.length_singleton]
  | clear => exact holds_blank bloom.bits bloom.hashes

theorem Holds.run
    {keys : List Bytes}
    (hHolds : bloom.Holds keys)
    (hBits : 0 < bloom.bits)
    (operations : List Operation) :
    (bloom.run operations).Holds
        (operations.foldl Operation.keep keys) ∧
      (bloom.run operations).bits = bloom.bits := by
  induction operations generalizing bloom keys with
  | nil => exact ⟨hHolds, rfl⟩
  | cons operation others hOthers =>
      have hSame := perform_bits operation bloom
      rcases hOthers (hHolds.perform hBits operation)
          (hSame ▸ hBits) with ⟨hLater, hSize⟩
      exact ⟨hLater, hSize.trans hSame⟩

/- The numbers of slots and hashes that filters are made with. -/
structure Sizes (bits hashes : Nat) : Prop where
  bits : 64 ≤ bits
  few : 1 ≤ hashes
  many : hashes ≤ 10

theorem sizes_empty (expected : Nat) (rate : Float) :
    Sizes (slotCount expected rate) (hashCount expected rate) where
  bits := Nat.le_max_right _ _
  few := Nat.le_min.mpr ⟨Nat.le_max_right _ _, by decide⟩
  many := Nat.min_le_right _ _

/-
  What can be relied on after some operations. The slots of
  any key are computed without overflow, and are slots of the
  filter; the keys that were added, and not forgotten since,
  are not denied; and the slots that are set are counted, and
  so are the keys.
-/
structure Reliable
    (bits hashes : Nat)
    (operations : List Operation)
    (bloom : Bloom) : Prop where
  narrow : ∀ (key : Bytes), ∀ index < hashes,
    (Hash.fnv1a key).toNat + index * (Hash.djb2 key).toNat +
      index * index * (Hash.sdbm key).toNat < 2 ^ 64
  slot : ∀ (key : Bytes), ∀ index < hashes,
    bloom.slot key index =
      ((Hash.fnv1a key).toNat + index * (Hash.djb2 key).toNat +
        index * index * (Hash.sdbm key).toNat / 2) % bits
  inside : ∀ (key : Bytes), ∀ index < hashes,
    bloom.slot key index < bits
  found : ∀ key ∈ keysOf operations,
    bloom.mightContain key = true
  filled : bloom.filled = bloom.setBits
  bounded : bloom.filled ≤ bits
  inserted : bloom.inserted = (keysOf operations).length

/-
  Filters can be relied on whatever was added to them and
  whenever they were cleared, and they are made with sizes for
  which this holds.
-/
theorem reliable_of_run :
    (∀ (expected : Nat) (rate : Float),
      ∃ bits hashes, Sizes bits hashes ∧
        empty expected rate = blank bits hashes) ∧
    ∀ bits hashes, Sizes bits hashes →
      ∀ operations,
        ((blank bits hashes).run operations).Reliable bits hashes
          operations := by
  refine ⟨fun expected rate =>
    ⟨_, _, sizes_empty expected rate, rfl⟩, ?_⟩
  intro bits hashes hSizes operations
  have hBits : 0 < bits := Nat.lt_of_lt_of_le (by decide) hSizes.bits
  rcases (holds_blank bits hashes).run hBits operations with
    ⟨hHolds, hSize⟩
  have hSize : ((blank bits hashes).run operations).bits = bits :=
    hSize
  have hIndex : ∀ index < hashes, index < 10 := fun _ hIndex =>
    Nat.lt_of_lt_of_le hIndex hSizes.many
  refine ⟨?_, ?_, ?_, hHolds.found, hHolds.accurate.filled,
    hHolds.accurate.filled_le.trans_eq hSize, hHolds.inserted⟩
  · intro key index hHash
    exact (toNat_combined (hIndex index hHash) key).1
  · intro key index hHash
    rw [slot, hSize, (toNat_combined (hIndex index hHash) key).2]
  · intro key index _
    rw [slot, hSize]
    exact Nat.mod_lt _ hBits

------------------------------------------------------------
-- An Example
------------------------------------------------------------

/- A filter that is cleared, and then gets a key twice. -/
namespace Renewed

def operations : List Operation :=
  [.add (utf8 "user:alice"), .clear, .add (utf8 "user:bob"),
    .add (utf8 "user:bob")]

theorem bob_found :
    Sizes 100 7 ∧
      ((blank 100 7).run operations).mightContain
          (utf8 "user:bob") = true ∧
        ((blank 100 7).run operations).inserted = 2 ∧
          ((blank 100 7).run operations).filled ≤ 100 := by
  have hSizes : Sizes 100 7 :=
    ⟨by decide, by decide, by decide⟩
  have hReliable := reliable_of_run.2 100 7 hSizes operations
  exact ⟨hSizes, hReliable.found _ (by decide),
    hReliable.inserted, hReliable.bounded⟩

end Renewed

end Bloom

end Rebac
