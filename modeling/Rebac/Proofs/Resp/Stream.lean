import Rebac.Valkey.Client

/-
  This file proves that reading values does not depend on how
  the bytes of a stream arrive.

  A reader is steady if it looks no further than the end of
  what it reads: whatever follows, it reads the same, and a
  text that it refuses is refused with anything behind it.

  Key definitions include:
    * `Resp.Steady`
    * `Resp.Intake`
    * `Resp.intake`
    * `Resp.Intake.feed`
    * `Valkey.Client.Reading.ofParsed`

  Key theorems include:
    * `Resp.steady_parse`
    * `Resp.Steady.incomplete`
    * `Resp.foldl_feed`
    * `Valkey.Client.awaitReply_chunks`
    * `Resp.reads_of_chunks`
-/

namespace Rebac

namespace Resp

------------------------------------------------------------
-- Steady Readers
------------------------------------------------------------

/-
  What a steady reader takes off a text it takes off every
  text that starts the same, and leaves what follows. Where
  it meets a fault, more bytes do not help, unless they are
  what is missing.
-/
structure Steady
    {Result : Type}
    (reader : Reader Result) : Prop where
  reads : ∀ {text rest : Bytes} {result : Result},
    reader text = .ok (result, rest) →
      ∃ taken, text = taken ++ rest ∧
        ∀ more, reader (taken ++ more) = .ok (result, more)
  refuses : ∀ {text : Bytes} {fault : Fault},
    reader text = .error fault → fault ≠ .incomplete →
      ∀ more, reader (text ++ more) = .error fault

section Steady

variable {Result : Type}
variable {reader : Reader Result}
variable {text rest : Bytes}
variable {result : Result}

/- What is behind the bytes that are read stays behind them. -/
theorem Steady.append
    (hSteady : Steady reader)
    (hRead : reader text = .ok (result, rest))
    (more : Bytes) :
    reader (text ++ more) = .ok (result, rest ++ more) := by
  rcases hSteady.reads hRead with ⟨taken, rfl, hTaken⟩
  rw [List.append_assoc]
  exact hTaken (rest ++ more)

/- Anything less than the bytes that are read is incomplete. -/
theorem Steady.incomplete
    {front behind : Bytes}
    (hSteady : Steady reader)
    (hRead : reader (front ++ behind) = .ok (result, rest))
    (hLess : rest.length < behind.length) :
    reader front = .error .incomplete := by
  cases hFront : reader front with
  | ok found =>
      rcases found with ⟨other, left⟩
      have hWhole := hSteady.append hFront behind
      rw [hRead] at hWhole
      cases hWhole
      rw [List.length_append] at hLess
      omega
  | error fault =>
      by_cases hFault : fault = .incomplete
      · rw [hFault]
      · have hWhole := hSteady.refuses hFront hFault behind
        rw [hRead] at hWhole
        cases hWhole

/- A reader that reads nothing and cannot be refused. -/
theorem steady_pure (result : Result) :
    Steady fun rest => .ok (result, rest) where
  reads := by
    intro text rest found hRead
    cases hRead
    exact ⟨[], rfl, fun more => rfl⟩
  refuses := by
    intro text fault hRead
    cases hRead

/- A reader that refuses everything. -/
theorem steady_refuse
    {fault : Fault} :
    Steady fun _ => (.error fault : Except Fault (Result × Bytes))
    where
  reads := by
    intro text rest found hRead
    cases hRead
  refuses := by
    intro text found hRead _ more
    exact hRead

/- One reader after another, the second chosen by the first. -/
def Reader.andThen
    {First Last : Type}
    (first : Reader First)
    (next : First → Reader Last) : Reader Last :=
  fun text =>
    match first text with
    | .error fault => .error fault
    | .ok (result, rest) => next result rest

theorem Steady.andThen
    {Last : Type}
    {next : Result → Reader Last}
    (hFirst : Steady reader)
    (hNext : ∀ result, Steady (next result)) :
    Steady (reader.andThen next) where
  reads := by
    intro text rest last hRead
    unfold Reader.andThen at hRead
    split at hRead
    · cases hRead
    · next result behind hResult =>
        rcases hFirst.reads hResult with ⟨front, rfl, hFront⟩
        rcases (hNext result).reads hRead with
          ⟨back, rfl, hBack⟩
        refine ⟨front ++ back, by rw [List.append_assoc], ?_⟩
        intro more
        rw [List.append_assoc, Reader.andThen, hFront]
        exact hBack more
  refuses := by
    intro text fault hRead hFault more
    unfold Reader.andThen at hRead
    split at hRead
    · next hResult =>
        cases hRead
        rw [Reader.andThen, hFirst.refuses hResult hFault more]
    · next result behind hResult =>
        rw [Reader.andThen, hFirst.append hResult more]
        exact (hNext result).refuses hRead hFault more

/- Readers that read the same are steady alike. -/
theorem Steady.congr
    {other : Reader Result}
    (hSteady : Steady reader)
    (hSame : ∀ text, reader text = other text) :
    Steady other := by
  rwa [← funext hSame]

end Steady

------------------------------------------------------------
-- Values
------------------------------------------------------------

/- Where a line ends is seen at its end. -/
theorem splitLine_eq_some
    {text line rest : Bytes}
    (hSplit : splitLine text = some (line, rest)) :
    ∃ taken, text = taken ++ rest ∧
      ∀ more, splitLine (taken ++ more) = some (line, more) := by
  fun_induction splitLine text generalizing line with
  | case1 behind =>
      cases hSplit
      exact ⟨[13, 10], rfl, fun more => rfl⟩
  | case2 byte behind hOther ih =>
      rcases Option.map_eq_some_iff.mp hSplit with
        ⟨⟨found, left⟩, hFound, hParts⟩
      cases hParts
      rcases ih hFound with ⟨taken, rfl, hTaken⟩
      refine ⟨byte :: taken, rfl, fun more => ?_⟩
      rw [List.cons_append, splitLine, hTaken]
      · rfl
      · intro others hByte hTail
        -- The end of a line would begin here already.
        cases taken with
        | nil =>
            have hNothing := hTaken []
            cases hNothing
        | cons second tail =>
            cases hTail
            exact hOther _ hByte rfl
  | case3 => cases hSplit

/- Too few bytes for a bulk string are an incomplete value. -/
theorem takeBulk_of_short
    {length : Nat}
    {text : Bytes}
    (hShort : text.length < length + 2) :
    takeBulk length text = .error .incomplete := by
  have hEnding :
      ((text.drop length).take 2).length < 2 := by
    rw [List.length_take, List.length_drop]
    omega
  exact if_pos hEnding

/- Two bytes behind its contents decide on a bulk string. -/
theorem takeBulk_append
    {contents ending : Bytes}
    (hEnding : ending.length = 2)
    (rest : Bytes) :
    takeBulk contents.length (contents ++ (ending ++ rest)) =
      if ending ≠ lineEnd then
        .error (.malformed .unterminatedBulk)
      else
        .ok (.bulk contents, rest) := by
  have hTake : (ending ++ rest).take 2 = ending := by
    rw [← hEnding, List.take_left]
  have hDrop : (ending ++ rest).drop 2 = rest := by
    rw [← hEnding, List.drop_left]
  unfold takeBulk
  simp only [List.drop_left, List.take_left, hTake, hDrop,
    hEnding, Nat.lt_irrefl, if_false]

theorem exists_bulk
    {length : Nat}
    {text : Bytes}
    (hEnough : length + 2 ≤ text.length) :
    ∃ contents ending rest : Bytes,
      contents.length = length ∧ ending.length = 2 ∧
        text = contents ++ (ending ++ rest) := by
  refine ⟨text.take length, (text.drop length).take 2,
    (text.drop length).drop 2, ?_, ?_, ?_⟩
  · rw [List.length_take]
    omega
  · rw [List.length_take, List.length_drop]
    omega
  · rw [List.take_append_drop, List.take_append_drop]

theorem steady_takeBulk (length : Nat) :
    Steady (takeBulk length) := by
  constructor
  · intro text rest value hRead
    by_cases hShort : text.length < length + 2
    · rw [takeBulk_of_short hShort] at hRead
      cases hRead
    · rcases exists_bulk (Nat.le_of_not_lt hShort) with
        ⟨contents, ending, behind, rfl, hTwo, rfl⟩
      rw [takeBulk_append hTwo] at hRead
      split at hRead
      · cases hRead
      · next hEnding =>
          cases hRead
          refine ⟨contents ++ ending, by
            rw [List.append_assoc], fun more => ?_⟩
          rw [List.append_assoc, takeBulk_append hTwo,
            if_neg hEnding]
  · intro text fault hRead hFault more
    by_cases hShort : text.length < length + 2
    · rw [takeBulk_of_short hShort] at hRead
      cases hRead
      exact absurd rfl hFault
    · rcases exists_bulk (Nat.le_of_not_lt hShort) with
        ⟨contents, ending, behind, rfl, hTwo, rfl⟩
      rw [takeBulk_append hTwo] at hRead
      rw [List.append_assoc, List.append_assoc,
        takeBulk_append hTwo]
      split at hRead
      · next hEnding => rw [if_pos hEnding, hRead]
      · cases hRead

/- One more value is one value and then the others. -/
theorem parseMany_succ
    (element : Reader Value)
    (count : Nat) :
    parseMany element (count + 1) =
      element.andThen fun value =>
        (parseMany element count).andThen fun values rest =>
          .ok (value :: values, rest) := by
  funext text
  rw [parseMany, Reader.andThen]
  cases element text with
  | error fault => rfl
  | ok found =>
      dsimp only
      rw [Reader.andThen]
      cases parseMany element count found.2 <;> rfl

theorem steady_parseMany
    {element : Reader Value}
    (hElement : Steady element)
    (count : Nat) :
    Steady (parseMany element count) := by
  induction count with
  | zero => exact steady_pure []
  | succ count ih =>
      rw [parseMany_succ]
      exact hElement.andThen fun value =>
        ih.andThen fun values => steady_pure (value :: values)

theorem steady_array
    {element : Reader Value}
    (hElement : Steady element)
    (count : Nat) :
    Steady ((parseMany element count).andThen
      fun elements rest => .ok (Value.array elements, rest)) :=
  (steady_parseMany hElement count).andThen
    fun elements => steady_pure (Value.array elements)

/- What a line of a known kind announces is read steadily. -/
theorem steady_parseBody
    {element : Reader Value}
    (hElement : Steady element)
    (kind : UInt8)
    (line : Bytes) :
    Steady (parseBody element kind line) := by
  unfold parseBody
  split
  · exact steady_pure _
  · split
    · exact steady_pure _
    · split
      · split
        · exact steady_refuse
        · exact steady_pure _
      · split
        · split
          · exact steady_refuse
          · next number hNumber =>
              split
              · exact steady_pure _
              · split
                · exact steady_refuse
                · exact steady_takeBulk number.toNat
        · split
          · split
            · exact steady_refuse
            · next number hNumber =>
                split
                · exact steady_pure _
                · split
                  · exact steady_refuse
                  · split
                    · exact steady_refuse
                    · refine (steady_array hElement
                        number.toNat).congr fun text => ?_
                      unfold Reader.andThen
                      cases parseMany element _ text <;> rfl
          · exact steady_refuse

theorem steady_parseAt (levels : Nat) :
    Steady (parseAt levels) := by
  induction levels with
  | zero => exact steady_refuse
  | succ levels ih =>
      constructor
      · intro text rest value hRead
        cases text with
        | nil => cases hRead
        | cons kind text =>
            unfold parseAt at hRead
            split at hRead
            · cases hRead
            · next line behind hLine =>
                rcases splitLine_eq_some hLine with
                  ⟨front, rfl, hFront⟩
                rcases (steady_parseBody ih kind line).reads
                  hRead with ⟨back, rfl, hBack⟩
                refine ⟨kind :: front ++ back, by simp, ?_⟩
                intro more
                rw [List.append_assoc, List.cons_append, parseAt,
                  hFront]
                exact hBack more
      · intro text fault hRead hFault more
        cases text with
        | nil =>
            cases hRead
            exact absurd rfl hFault
        | cons kind text =>
            unfold parseAt at hRead
            split at hRead
            · cases hRead
              exact absurd rfl hFault
            · next line behind hLine =>
                rcases splitLine_eq_some hLine with
                  ⟨front, rfl, hFront⟩
                rw [List.cons_append, List.append_assoc, parseAt,
                  hFront]
                exact (steady_parseBody ih kind line).refuses
                  hRead hFault more

/- Values are read steadily. -/
theorem steady_parse : Steady parse :=
  steady_parseAt nesting

/- A value takes up a byte at least. -/
theorem parse_shorter
    {text rest : Bytes}
    {value : Value}
    (hRead : parse text = .ok (value, rest)) :
    rest.length < text.length := by
  rcases steady_parse.reads hRead with ⟨taken, rfl, hTaken⟩
  have hSome : taken ≠ [] := by
    rintro rfl
    cases hTaken []
  rw [List.length_append]
  exact Nat.lt_add_of_pos_left (List.length_pos_iff.mpr hSome)

------------------------------------------------------------
-- Streams
------------------------------------------------------------

/-
  What has been read of a stream: the values, the bytes that
  are kept for the next one, and why these are no value yet.
-/
structure Intake where
  values : List Value := []
  pending : Bytes := []
  fault : Fault := .incomplete

/- What is read of a text that is there as a whole. -/
def intake (text : Bytes) : Intake :=
  let (found, fault?) := parseAll text
  { values := found.map Prod.fst
    pending := (found.getLast?.map Prod.snd).getD text
    fault := fault?.getD .incomplete }

/-
  Appends a chunk to what was kept, reads values as long as
  one is complete and drops their bytes.
-/
def Intake.feed (before : Intake) (chunk : Bytes) : Intake :=
  let after := intake (before.pending ++ chunk)
  { after with values := before.values ++ after.values }

/- One reading for each byte is as good as any more. -/
theorem parseUpTo_eq
    {few many : Nat}
    {text : Bytes}
    (hFew : text.length < few)
    (hMany : text.length < many) :
    parseUpTo few text = parseUpTo many text := by
  induction few generalizing many text with
  | zero => exact absurd hFew (Nat.not_lt_zero _)
  | succ few ih =>
      cases many with
      | zero => exact absurd hMany (Nat.not_lt_zero _)
      | succ many =>
          rw [parseUpTo, parseUpTo]
          cases hRead : parse text with
          | error fault => rfl
          | ok found =>
              rcases found with ⟨value, rest⟩
              have hShorter := parse_shorter hRead
              have hRest :
                  parseUpTo few rest = parseUpTo many rest :=
                ih (by omega) (by omega)
              dsimp only
              rw [hRest]

theorem intake_of_error
    {text : Bytes}
    {fault : Fault}
    (hRead : parse text = .error fault) :
    intake text =
      { values := [], pending := text, fault := fault } := by
  rw [intake, parseAll, parseUpTo, hRead]
  rfl

/- The first value of a text comes before all others. -/
theorem intake_of_ok
    {text rest : Bytes}
    {value : Value}
    (hRead : parse text = .ok (value, rest)) :
    intake text =
      { intake rest with
        values := value :: (intake rest).values } := by
  have hShorter := parse_shorter hRead
  have hOthers :
      parseUpTo text.length rest = parseAll rest :=
    parseUpTo_eq hShorter (Nat.lt_succ_self _)
  rw [intake, parseAll, parseUpTo, hRead]
  dsimp only
  split
  · next hEmpty =>
      subst hEmpty
      rfl
  · rw [hOthers, intake]
    simp only [List.map_cons, List.getLast?_cons,
      Option.map_some, Option.getD_some]
    cases (parseAll rest).1.getLast? <;> rfl

theorem feed_intake (text chunk : Bytes) :
    (intake text).feed chunk = intake (text ++ chunk) := by
  induction hLength : text.length using Nat.strongRecOn
    generalizing text with
  | ind length ih =>
      cases hRead : parse text with
      | error fault =>
          rw [intake_of_error hRead]
          rfl
      | ok found =>
          rcases found with ⟨value, rest⟩
          have hRest := ih rest.length
            (hLength ▸ parse_shorter hRead) rest rfl
          rw [intake_of_ok hRead,
            intake_of_ok (steady_parse.append hRead chunk),
            ← hRest]
          rfl

/- However a stream is cut, the same is read of it. -/
theorem foldl_feed (chunks : List Bytes) (text : Bytes) :
    chunks.foldl Intake.feed (intake text) =
      intake (text ++ chunks.flatten) := by
  induction chunks generalizing text with
  | nil => rw [List.foldl_nil, List.flatten_nil, List.append_nil]
  | cons chunk others ih =>
      rw [List.foldl_cons, feed_intake, ih, List.flatten_cons,
        List.append_assoc]

end Resp

------------------------------------------------------------
-- Replies
------------------------------------------------------------

namespace Valkey.Client

/- What reading comes to when nothing more arrives. -/
def Reading.ofParsed
    (patience : Nat) :
    Except Resp.Fault (Resp.Value × Bytes) → Reading
  | .ok (result, _) => .value result
  | .error (.malformed cause) => .failed (.malformed cause)
  | .error .oversized => .oversized
  | .error .incomplete => .failed (.silence patience)

/- The bytes behind the first value, or all where none is. -/
def unused (text : Bytes) : Bytes :=
  match Resp.parse text with
  | .ok (_, rest) => rest
  | .error _ => text

/-
  A reply is read as if all chunks had arrived at once, and
  no byte behind it is lost.
-/
theorem awaitReply_chunks
    (patience : Nat)
    (chunks : List Bytes)
    (buffer : Bytes) :
    ∃ (kept : Bytes) (others : List Bytes),
      awaitReply patience (chunks.map .bytes) buffer =
        (Reading.ofParsed patience
            (Resp.parse (buffer ++ chunks.flatten)),
          kept, others.map .bytes) ∧
      kept ++ others.flatten =
        unused (buffer ++ chunks.flatten) := by
  induction chunks generalizing buffer with
  | nil =>
      rw [List.flatten_nil, List.append_nil, List.map_nil,
        awaitReply]
      refine ⟨unused buffer, [], ?_, ?_⟩
      · unfold unused
        cases Resp.parse buffer with
        | ok found => rfl
        | error fault => cases fault <;> rfl
      · rw [List.flatten_nil, List.append_nil]
  | cons chunk others ih =>
      rw [List.flatten_cons, List.map_cons, awaitReply]
      cases hRead : Resp.parse buffer with
      | ok found =>
          rcases found with ⟨value, rest⟩
          have hWhole := Resp.steady_parse.append hRead
            (chunk ++ others.flatten)
          refine ⟨rest, chunk :: others, ?_, ?_⟩
          · rw [hWhole]
            rfl
          · rw [unused, hWhole, List.flatten_cons]
      | error fault =>
          by_cases hFault : fault = .incomplete
          · subst hFault
            rw [← List.append_assoc]
            exact ih (buffer ++ chunk)
          · have hWhole := Resp.steady_parse.refuses hRead hFault
              (chunk ++ others.flatten)
            refine ⟨buffer, chunk :: others, ?_, ?_⟩
            · rw [hWhole]
              cases fault <;> first | rfl | exact absurd rfl hFault
            · rw [unused, hWhole, List.flatten_cons]

end Valkey.Client

------------------------------------------------------------
-- Chunks
------------------------------------------------------------

namespace Resp

/- A value is read of its own bytes, and of no fewer. -/
theorem parse_extent
    {text rest : Bytes}
    {value : Value}
    (hRead : parse text = .ok (value, rest)) :
    ∃ count ≤ text.length, rest = text.drop count ∧
      (∀ other : Bytes, other.take count = text.take count →
        parse other = .ok (value, other.drop count)) ∧
      ∀ fewer < count,
        parse (text.take fewer) = .error .incomplete := by
  rcases steady_parse.reads hRead with ⟨taken, rfl, hTaken⟩
  refine ⟨taken.length, ?_, List.drop_left.symm, ?_, ?_⟩
  · rw [List.length_append]
    exact Nat.le_add_right _ _
  · intro other hSame
    rw [List.take_left] at hSame
    have hOther := List.take_append_drop taken.length other
    rw [hSame] at hOther
    have hFound := hTaken (other.drop taken.length)
    rwa [hOther] at hFound
  · intro fewer hFewer
    rw [← List.take_append_drop fewer (taken ++ rest)] at hRead
    refine steady_parse.incomplete hRead ?_
    rw [List.length_drop, List.length_append]
    omega

/-
  Reading does not depend on how bytes arrive. A value is
  read of its own bytes, whatever follows, and anything less
  is incomplete; what is refused is refused for good. So all
  ways to cut a stream into chunks give the same values and
  end with the same fault, and a client that waits for a
  reply gets the first of these values.
-/
theorem reads_of_chunks :
    (∀ text value rest, parse text = .ok (value, rest) →
      ∃ count ≤ text.length, rest = text.drop count ∧
        (∀ other : Bytes, other.take count = text.take count →
          parse other = .ok (value, other.drop count)) ∧
        ∀ fewer < count,
          parse (text.take fewer) = .error .incomplete) ∧
    (∀ text fault, parse text = .error fault →
      fault ≠ .incomplete →
        ∀ more, parse (text ++ more) = .error fault) ∧
    (∀ chunks : List Bytes,
      chunks.foldl Intake.feed {} = intake chunks.flatten) ∧
    ∀ (patience : Nat) (chunks : List Bytes) (buffer : Bytes),
      ∃ (kept : Bytes) (others : List Bytes),
        Valkey.Client.awaitReply patience (chunks.map .bytes)
            buffer =
          (.ofParsed patience (parse (buffer ++ chunks.flatten)),
            kept, others.map .bytes) ∧
        kept ++ others.flatten =
          Valkey.Client.unused (buffer ++ chunks.flatten) := by
  refine ⟨?_, ?_, ?_, Valkey.Client.awaitReply_chunks⟩
  · intro text value rest hRead
    exact parse_extent hRead
  · intro text fault hRead hFault more
    exact steady_parse.refuses hRead hFault more
  · intro chunks
    exact foldl_feed chunks []

------------------------------------------------------------
-- An Example
------------------------------------------------------------

namespace Chunks

/- A value in three chunks, and the beginning of another. -/
def pieces : List Bytes :=
  [utf8 "*2\r\n$4\r\nro", utf8 "le\r\n:1", utf8 "2\r\n+O"]

def pair : Value :=
  .array [.bulk (utf8 "role"), .integer 12]

theorem parse_pieces :
    parse pieces.flatten = .ok (pair, utf8 "+O") := by
  rfl

/- A bulk string without its end. -/
def unended : Bytes :=
  utf8 "$1\r\nabc"

theorem parse_unended :
    parse unended = .error (.malformed .unterminatedBulk) := by
  rfl

/- The first chunk alone is incomplete, and all of them a pair. -/
theorem pieces_read :
    parse pieces.flatten = .ok (pair, utf8 "+O") ∧
      parse (utf8 "*2\r\n$4\r\nro") = .error .incomplete ∧
      (∀ more, parse (unended ++ more) =
        .error (.malformed .unterminatedBulk)) ∧
      (pieces.foldl Intake.feed {}).values = [pair] ∧
      (pieces.foldl Intake.feed {}).fault = .incomplete := by
  rcases reads_of_chunks with ⟨hReads, hRefuses, hFeed, _⟩
  refine ⟨parse_pieces, ?_, ?_, ?_, ?_⟩
  · rcases hReads _ _ _ parse_pieces with
      ⟨count, _, hRest, _, hFewer⟩
    -- The pair takes up all bytes but the last two.
    have hCount : 2 = pieces.flatten.length - count := by
      rw [← List.length_drop, ← hRest]
      rfl
    have hLength : pieces.flatten.length = 21 := rfl
    exact hFewer 10 (by omega)
  · exact hRefuses _ _ parse_unended nofun
  · rw [hFeed]
    rfl
  · rw [hFeed]
    rfl

end Chunks

end Resp

end Rebac
