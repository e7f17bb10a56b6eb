import Mathlib.Algebra.Group.Int.Defs
import Mathlib.Algebra.Group.Nat.Defs
import Rebac.Proofs.Bytes
import Rebac.Store.Tables
import Rebac.Ulid

/-
  This file proves what an identifier tells about the time of
  its creation.

  The first ten symbols stand for the last fifty bits of the
  time. Since the alphabet is in bytewise order, texts of
  equally many symbols are in the order of the numbers that
  they stand for. So identifiers are in the order of their
  times, as long as fifty bits hold these.

  Key definitions include:
    * `Ulid.IssuedAt`

  Key theorems include:
    * `Ulid.decode?_symbols`
    * `Ulid.symbols_lt_symbols`
    * `Ulid.timePart_lt_timePart`
    * `Ulid.sorted_by_creation`
-/

namespace Rebac

------------------------------------------------------------
-- Ties
------------------------------------------------------------

/- Of models of one time, the greater id comes first. -/
theorem StoredModel.precedes_of_id_lt
    {older newer : StoredModel}
    (hCreated : older.created = newer.created)
    (hId : older.id < newer.id) :
    newer.precedes older = true ∧
      older.precedes newer = false := by
  have hBack : ¬ newer.id ≤ older.id := List.not_le.mpr hId
  simp [precedes, hCreated, List.le_of_lt hId, hBack]

/- So it is for tuples of one transaction and one time. -/
theorem StoredTuple.precedes_of_id_lt
    {older newer : StoredTuple}
    (hCreated : older.created = newer.created)
    (hTime : older.time = newer.time)
    (hId : older.id < newer.id) :
    newer.precedes older = true ∧
      older.precedes newer = false := by
  have hBack : ¬ newer.id ≤ older.id := List.not_le.mpr hId
  simp [precedes, hCreated, hTime, List.le_of_lt hId, hBack]

namespace Ulid

------------------------------------------------------------
-- Symbols
------------------------------------------------------------

/- The symbols come in bytewise order, with gaps. -/
theorem alphabet_increasing :
    alphabet.Pairwise (· < ·) := by
  decide

theorem length_alphabet : alphabet.length = 32 := by
  decide

theorem idxOf?_alphabet :
    ∀ digit < 32,
      alphabet.idxOf? (alphabet.getD digit 48) = some digit := by
  decide

/- The last five bits of a word. -/
theorem toNat_lowBits (word : UInt64) :
    (word &&& 31).toNat = word.toNat % 32 := by
  rw [UInt64.toNat_and]
  exact Nat.and_two_pow_sub_one_eq_mod word.toNat 5

/- The bits of a word before its last five. -/
theorem toNat_highBits (word : UInt64) :
    (word >>> 5).toNat = word.toNat / 32 := by
  rw [UInt64.toNat_shiftRight]
  exact Nat.shiftRight_eq_div_pow word.toNat 5

theorem digit_lt_length (word : UInt64) :
    word.toNat % 32 < alphabet.length := by
  rw [length_alphabet]
  exact Nat.mod_lt _ (by decide)

theorem symbol_eq (word : UInt64) :
    symbol word = alphabet.getD (word.toNat % 32) 48 := by
  rw [symbol, toNat_lowBits]

theorem symbol_mem_alphabet (word : UInt64) :
    symbol word ∈ alphabet := by
  have hMem := List.getElem_mem (digit_lt_length word)
  rwa [List.getElem_eq_getD 48, ← symbol_eq] at hMem

theorem idxOf?_symbol (word : UInt64) :
    alphabet.idxOf? (symbol word) = some (word.toNat % 32) := by
  rw [symbol_eq]
  exact idxOf?_alphabet _ (Nat.mod_lt _ (by decide))

/- A smaller digit has a smaller symbol. -/
theorem symbol_lt_symbol
    {lower higher : UInt64}
    (hDigits : lower.toNat % 32 < higher.toNat % 32) :
    symbol lower < symbol higher := by
  have hSymbols :=
    List.pairwise_iff_getElem.mp alphabet_increasing _ _
      (digit_lt_length lower) (digit_lt_length higher) hDigits
  rwa [List.getElem_eq_getD 48, List.getElem_eq_getD 48,
    ← symbol_eq, ← symbol_eq] at hSymbols

------------------------------------------------------------
-- Numbers
------------------------------------------------------------

/-
  The last digit of a number, and the number that the other
  digits make.
-/
theorem mod_pow_succ (number count : Nat) :
    number % 32 ^ (count + 1) =
      32 * (number / 32 % 32 ^ count) + number % 32 := by
  rw [Nat.pow_succ', Nat.mod_mul, Nat.add_comm]

theorem length_symbols (count : Nat) (word : UInt64) :
    (symbols count word).length = count := by
  induction count generalizing word with
  | zero => rfl
  | succ count ih => simp [symbols, ih]

theorem mem_alphabet_of_mem_symbols
    {count : Nat}
    {word : UInt64}
    {byte : UInt8}
    (hByte : byte ∈ symbols count word) :
    byte ∈ alphabet := by
  induction count generalizing word with
  | zero => cases hByte
  | succ count ih =>
      rcases List.mem_append.mp hByte with hFirst | hLast
      · exact ih hFirst
      · rw [List.mem_singleton.mp hLast]
        exact symbol_mem_alphabet word

/- Symbols stand for the digits that are left of a word. -/
theorem decode?_symbols (count : Nat) (word : UInt64) :
    decode? (symbols count word) =
      some (word.toNat % 32 ^ count) := by
  induction count generalizing word with
  | zero => rw [Nat.pow_zero, Nat.mod_one]; rfl
  | succ count ih =>
      have hFirst := ih (word >>> 5)
      rw [decode?, toNat_highBits] at hFirst
      rw [decode?, symbols, List.foldlM_append, hFirst,
        mod_pow_succ]
      simp [idxOf?_symbol]

theorem symbols_congr
    {count : Nat}
    {first second : UInt64}
    (hSame :
      first.toNat % 32 ^ count = second.toNat % 32 ^ count) :
    symbols count first = symbols count second := by
  induction count generalizing first second with
  | zero => rfl
  | succ count ih =>
      rw [mod_pow_succ, mod_pow_succ] at hSame
      have hFirst :
          symbols count (first >>> 5) =
            symbols count (second >>> 5) := by
        refine ih ?_
        rw [toNat_highBits, toNat_highBits]
        omega
      have hDigit : first.toNat % 32 = second.toNat % 32 := by
        omega
      rw [symbols, symbols, hFirst, symbol_eq, symbol_eq, hDigit]

/-
  Equally many symbols are in the order of the numbers that
  they stand for.
-/
theorem symbols_lt_symbols
    {count : Nat}
    {lower higher : UInt64}
    (hOrder :
      lower.toNat % 32 ^ count < higher.toNat % 32 ^ count) :
    symbols count lower < symbols count higher := by
  induction count generalizing lower higher with
  | zero =>
      rw [Nat.pow_zero, Nat.mod_one, Nat.mod_one] at hOrder
      exact absurd hOrder (Nat.lt_irrefl 0)
  | succ count ih =>
      rw [mod_pow_succ, mod_pow_succ] at hOrder
      have hLower : lower.toNat % 32 < 32 :=
        Nat.mod_lt _ (by decide)
      have hHigher : higher.toNat % 32 < 32 :=
        Nat.mod_lt _ (by decide)
      rw [symbols, symbols]
      -- The last digit counts only where the others agree.
      rcases Nat.lt_trichotomy
          (lower.toNat / 32 % 32 ^ count)
          (higher.toNat / 32 % 32 ^ count) with
        hLess | hSame | hGreater
      · refine Bytes.append_lt_append _ _ ?_ (ih ?_)
        · rw [length_symbols, length_symbols]
        · rwa [toNat_highBits, toNat_highBits]
      · have hFirst :
            symbols count (lower >>> 5) =
              symbols count (higher >>> 5) :=
          symbols_congr (by rwa [toNat_highBits, toNat_highBits])
        have hLast : symbol lower < symbol higher :=
          symbol_lt_symbol (by omega)
        rw [hFirst]
        exact List.append_left_lt
          (List.cons_lt_cons_iff.mpr (.inl hLast))
      · omega

------------------------------------------------------------
-- Random Symbols
------------------------------------------------------------

theorem length_stream (count : Nat) (low high : UInt64) :
    (stream count low high).length = count := by
  induction count generalizing low high with
  | zero => rfl
  | succ count ih => simp [stream, ih]

theorem mem_alphabet_of_mem_stream
    {count : Nat}
    {low high : UInt64}
    {byte : UInt8}
    (hByte : byte ∈ stream count low high) :
    byte ∈ alphabet := by
  induction count generalizing low high with
  | zero => cases hByte
  | succ count ih =>
      rcases List.mem_cons.mp hByte with hFirst | hLater
      · rw [hFirst]
        exact symbol_mem_alphabet low
      · exact ih hLater

------------------------------------------------------------
-- Identifiers
------------------------------------------------------------

variable (milliseconds : Int) (low high : UInt64)

theorem length_timePart :
    (timePart milliseconds).length = 10 :=
  length_symbols 10 _

theorem take_generate :
    (generate milliseconds low high).take 10 =
      timePart milliseconds :=
  List.take_left' (length_timePart milliseconds)

theorem isValid_generate :
    IsValid (generate milliseconds low high) := by
  constructor
  · rw [generate, List.length_append, length_timePart,
      randomPart, length_stream]
  · intro byte hByte
    rcases List.mem_append.mp hByte with hTime | hRandom
    · exact mem_alphabet_of_mem_symbols hTime
    · exact mem_alphabet_of_mem_stream hRandom

/- What ten digits leave of a time, whatever its sign. -/
theorem toNat_ofInt_mod :
    (UInt64.ofInt milliseconds).toNat % 32 ^ 10 =
      (milliseconds % 2 ^ 50).toNat := by
  rw [UInt64.ofInt, UInt64.toNat_ofNat']
  omega

theorem decode?_timePart :
    decode? (timePart milliseconds) =
      some (milliseconds % 2 ^ 50).toNat := by
  rw [timePart, decode?_symbols, toNat_ofInt_mod]

theorem timePart_lt_timePart
    {earlier later : Int}
    (hEarlier : 0 ≤ earlier)
    (hOrder : earlier < later)
    (hLater : later < 2 ^ 50) :
    timePart earlier < timePart later := by
  refine symbols_lt_symbols ?_
  rw [toNat_ofInt_mod, toNat_ofInt_mod]
  omega

/- An identifier of a time, whatever the random words were. -/
def IssuedAt (milliseconds : Int) (id : Bytes) : Prop :=
  ∃ low high, id = generate milliseconds low high

theorem IssuedAt.lt
    {earlier later : Int}
    {first second : Bytes}
    (hEarlier : 0 ≤ earlier)
    (hOrder : earlier < later)
    (hLater : later < 2 ^ 50)
    (hFirst : IssuedAt earlier first)
    (hSecond : IssuedAt later second) :
    first.take 10 < second.take 10 ∧ first < second := by
  rcases hFirst with ⟨low, high, rfl⟩
  rcases hSecond with ⟨low', high', rfl⟩
  have hTime := timePart_lt_timePart hEarlier hOrder hLater
  rw [take_generate, take_generate]
  refine ⟨hTime, Bytes.append_lt_append _ _ ?_ hTime⟩
  rw [length_timePart, length_timePart]

/-
  Every identifier is valid, and its first ten symbols stand
  for its time without the bits above the fiftieth. Where
  there are no such bits, identifiers of an earlier
  millisecond are smaller, by their first ten symbols and as a
  whole. So among rows that are listed by their ids, those of
  the later millisecond come first.
-/
theorem sorted_by_creation :
    (∀ milliseconds id,
      IssuedAt milliseconds id →
        IsValid id ∧
          decode? (id.take 10) =
            some (milliseconds % 2 ^ 50).toNat) ∧
      ∀ earlier later : Int,
        0 ≤ earlier →
          earlier < later →
            later < 2 ^ 50 →
              (∀ first second,
                IssuedAt earlier first →
                  IssuedAt later second →
                    first.take 10 < second.take 10 ∧
                      first < second) ∧
                (∀ older newer : StoredModel,
                  IssuedAt earlier older.id →
                    IssuedAt later newer.id →
                      older.created = newer.created →
                        newer.precedes older = true ∧
                          older.precedes newer = false) ∧
                ∀ older newer : StoredTuple,
                  IssuedAt earlier older.id →
                    IssuedAt later newer.id →
                      older.created = newer.created →
                        older.time = newer.time →
                          newer.precedes older = true ∧
                            older.precedes newer = false := by
  refine ⟨?_, fun earlier later hEarlier hOrder hLater => ?_⟩
  · rintro milliseconds _ ⟨low, high, rfl⟩
    rw [take_generate]
    exact ⟨isValid_generate milliseconds low high,
      decode?_timePart milliseconds⟩
  · refine ⟨?_, ?_, ?_⟩
    · intro first second hFirst hSecond
      exact hFirst.lt hEarlier hOrder hLater hSecond
    · intro older newer hOlder hNewer hCreated
      exact StoredModel.precedes_of_id_lt hCreated
        (hOlder.lt hEarlier hOrder hLater hNewer).2
    · intro older newer hOlder hNewer hCreated hTime
      exact StoredTuple.precedes_of_id_lt hCreated hTime
        (hOlder.lt hEarlier hOrder hLater hNewer).2

/- A model that is stored under an identifier of a time. -/
def storedUnder
    (milliseconds : Int)
    (low high : UInt64) : StoredModel where
  id := generate milliseconds low high
  version := generate milliseconds high low
  schemaVersion := utf8 "1.1"
  source := []
  active := false
  created := 1024

/-
  The symbols of 1023 end in the last one of the alphabet, and
  those of 1024 in the first one; the time before the first
  millisecond has all fifty bits set.
-/
theorem carried_listed_first :
    IsValid (generate (-1) 0 0) ∧
      decode? ((generate (-1) 0 0).take 10) =
        some 1125899906842623 ∧
      (0 : Int) ≤ 1023 ∧
      (1023 : Int) < 1024 ∧
      (1024 : Int) < 2 ^ 50 ∧
      (generate 1023 18446744073709551615 0).take 10 <
        (generate 1024 0 0).take 10 ∧
      (storedUnder 1024 0 0).precedes
          (storedUnder 1023 18446744073709551615 0) =
        true ∧
      (storedUnder 1023 18446744073709551615 0).precedes
          (storedUnder 1024 0 0) =
        false := by
  have hBefore :=
    sorted_by_creation.1 (-1) (generate (-1) 0 0) ⟨0, 0, rfl⟩
  have hSorted :=
    sorted_by_creation.2 1023 1024
      (by decide) (by decide) (by decide)
  have hIds :=
    hSorted.1 (generate 1023 18446744073709551615 0)
      (generate 1024 0 0) ⟨_, _, rfl⟩ ⟨_, _, rfl⟩
  have hListed :=
    hSorted.2.1 (storedUnder 1023 18446744073709551615 0)
      (storedUnder 1024 0 0) ⟨_, _, rfl⟩ ⟨_, _, rfl⟩ rfl
  exact ⟨hBefore.1, hBefore.2, by decide, by decide, by decide,
    hIds.1, hListed⟩

end Ulid

end Rebac
