import Rebac.Proofs.Numeral
import Rebac.Proofs.Resp.Stream

/-
  This file proves that commands are read as they are
  written.

  A command announces how many arguments it has, and each
  argument how many bytes. So the arguments may contain any
  bytes, even what looks like the end of a line or like
  another command, and where a command ends does not depend
  on what follows.

  Key definitions include:
    * `Resp.Fits`

  Key theorems include:
    * `Resp.parseAt_header`
    * `Resp.parseMany_bulks_iff`
    * `Resp.parse_command_iff`
    * `Resp.parse_take_command`
    * `Resp.reads_of_command`
-/

namespace Rebac

namespace Resp

------------------------------------------------------------
-- Headers
------------------------------------------------------------

/- A line ends where it was ended. -/
theorem splitLine_append
    {line : Bytes}
    (hLine : 13 ∉ line)
    (rest : Bytes) :
    splitLine (line ++ lineEnd ++ rest) = some (line, rest) := by
  induction line with
  | nil => rfl
  | cons byte others ih =>
      have hOthers : 13 ∉ others :=
        fun hEnd => hLine (List.mem_cons_of_mem byte hEnd)
      rw [List.cons_append, List.cons_append, splitLine,
        ih hOthers]
      · rfl
      · intro behind hEnd
        exact absurd (hEnd ▸ List.mem_cons_self) hLine

theorem lineNumber_ofNat (number : Nat) :
    lineNumber (Numeral.ofNat number) =
      if (number : Int) ≤ Numeral.largestInt64 then
        .ok (number : Int)
      else
        .error (.malformed
          (.invalidInteger (Numeral.ofNat number))) := by
  rw [lineNumber, Numeral.readInt64?_ofNat]
  by_cases hSize : (number : Int) ≤ Numeral.largestInt64
  · rw [if_pos hSize, if_pos hSize]
  · rw [if_neg hSize, if_neg hSize]

/- A header announces the number that it was written with. -/
theorem parseAt_header
    (levels : Nat)
    (kind : UInt8)
    (number : Nat)
    (rest : Bytes) :
    parseAt (levels + 1) (header kind number ++ rest) =
      parseBody (parseAt levels) kind (Numeral.ofNat number)
        rest := by
  have hLine : 13 ∉ Numeral.ofNat number := by
    intro hEnd
    cases (Numeral.ofNat_digits number).2 13 hEnd
  rw [header, List.cons_append, List.cons_append, parseAt,
    splitLine_append hLine]

section Body

variable (element : Reader Value)
variable {line : Bytes}
variable {number : Nat}

theorem parseBody_length
    (hLine : lineNumber line = .ok (number : Int))
    (rest : Bytes) :
    parseBody element 36 line rest = takeBulk number rest := by
  have hSign : ¬ (number : Int) < 0 :=
    Int.not_lt.mpr (Int.natCast_nonneg number)
  have hNull : (number : Int) ≠ -1 := by
    omega
  simp [parseBody, hLine, hSign, hNull]

/- A length or a count that is no number is a fault. -/
theorem parseBody_error
    {fault : Fault}
    (hLine : lineNumber line = .error fault)
    (rest : Bytes) :
    parseBody element 36 line rest = .error fault ∧
      parseBody element 42 line rest = .error fault := by
  simp [parseBody, hLine]

/- An array needs 72 bytes for each of its values. -/
theorem parseBody_count
    (hLine : lineNumber line = .ok (number : Int))
    (rest : Bytes) :
    parseBody element 42 line rest =
      if (72 * number : Int) ≤ Numeral.largestInt64 then
        (parseMany element number rest).map
          fun (elements, behind) => (.array elements, behind)
      else
        .error .oversized := by
  have hSign : ¬ (number : Int) < 0 :=
    Int.not_lt.mpr (Int.natCast_nonneg number)
  have hNull : (number : Int) ≠ -1 := by
    omega
  by_cases hRoom : (72 * number : Int) ≤ Numeral.largestInt64
  · have hCount : ¬ (number : Int) > largestCount := by
      unfold Numeral.largestInt64 at hRoom
      unfold largestCount
      omega
    rw [if_pos hRoom]
    cases hElements : parseMany element number rest <;>
      simp [parseBody, hLine, hSign, hNull, hCount, hElements,
        Except.map]
  · have hCount : (number : Int) > largestCount := by
      unfold Numeral.largestInt64 at hRoom
      unfold largestCount
      omega
    rw [if_neg hRoom]
    simp [parseBody, hLine, hSign, hNull, hCount]

end Body

------------------------------------------------------------
-- Arguments
------------------------------------------------------------

/-
  An argument is read back if its length is a number of 64
  bits with a sign.
-/
theorem parseAt_bulk
    (levels : Nat)
    (argument rest : Bytes) :
    parseAt (levels + 1) (bulk argument ++ rest) =
      if (argument.length : Int) ≤ Numeral.largestInt64 then
        .ok (.bulk argument, rest)
      else
        .error (.malformed (.invalidInteger
          (Numeral.ofNat argument.length))) := by
  have hLine := lineNumber_ofNat argument.length
  rw [bulk, List.append_assoc, List.append_assoc,
    parseAt_header]
  by_cases hSize :
      (argument.length : Int) ≤ Numeral.largestInt64
  · rw [if_pos hSize] at hLine ⊢
    rw [parseBody_length _ hLine, takeBulk_append rfl]
    exact if_neg fun hOther => hOther rfl
  · rw [if_neg hSize] at hLine ⊢
    exact (parseBody_error _ hLine _).1

theorem parseMany_bulks_iff
    (levels : Nat)
    (arguments : List Bytes)
    (rest : Bytes) :
    parseMany (parseAt (levels + 1)) arguments.length
        (arguments.flatMap bulk ++ rest) =
        .ok (arguments.map .bulk, rest) ↔
      ∀ argument ∈ arguments,
        (argument.length : Int) ≤ Numeral.largestInt64 := by
  induction arguments with
  | nil => exact ⟨fun _ => List.forall_mem_nil _, fun _ => rfl⟩
  | cons argument others ih =>
      rw [List.flatMap_cons, List.append_assoc,
        List.length_cons, parseMany, parseAt_bulk,
        List.forall_mem_cons, ← ih]
      by_cases hSize :
          (argument.length : Int) ≤ Numeral.largestInt64
      · rw [if_pos hSize, and_iff_right hSize]
        dsimp only
        cases parseMany (parseAt (levels + 1)) others.length
            (others.flatMap bulk ++ rest) with
        | error fault => simp
        | ok found => simp [Prod.ext_iff]
      · rw [if_neg hSize]
        constructor
        · intro hRead
          cases hRead
        · intro hBoth
          exact absurd hBoth.1 hSize

------------------------------------------------------------
-- Commands
------------------------------------------------------------

/-
  The sizes of a list of arguments fit in 63 bits: those of
  the arguments, and that of an array of their values, which
  takes 72 bytes for each.
-/
def Fits (arguments : List Bytes) : Prop :=
  (72 * arguments.length : Int) ≤ Numeral.largestInt64 ∧
    ∀ argument ∈ arguments,
      (argument.length : Int) ≤ Numeral.largestInt64

instance
    (arguments : List Bytes) :
    Decidable (Fits arguments) := by
  unfold Fits
  infer_instance

/-
  A command whose sizes fit is read as the array of its
  arguments, and all that follows it is left.
-/
theorem parse_command_iff
    (arguments : List Bytes)
    (rest : Bytes) :
    parse (command arguments ++ rest) =
        .ok (.array (arguments.map .bulk), rest) ↔
      Fits arguments := by
  have hLine := lineNumber_ofNat arguments.length
  have hArguments := parseMany_bulks_iff 15 arguments rest
  rw [command, List.append_assoc, parse, nesting,
    parseAt_header, Fits, ← hArguments]
  by_cases hSize :
      (arguments.length : Int) ≤ Numeral.largestInt64
  · rw [if_pos hSize] at hLine
    rw [parseBody_count _ hLine]
    by_cases hRoom :
        (72 * arguments.length : Int) ≤ Numeral.largestInt64
    · rw [if_pos hRoom, and_iff_right hRoom]
      cases parseMany (parseAt 16) arguments.length
          (arguments.flatMap bulk ++ rest) with
      | error fault => simp [Except.map]
      | ok found => simp [Except.map, Prod.ext_iff]
    · rw [if_neg hRoom]
      exact ⟨nofun, fun hFits => absurd hFits.1 hRoom⟩
  · -- A count that cannot be read is too large for an array.
    rw [if_neg hSize] at hLine
    have hRoom : ¬ (72 * arguments.length : Int) ≤
        Numeral.largestInt64 := by
      omega
    have hRead := parseBody_error (parseAt 16) hLine
      (arguments.flatMap bulk ++ rest)
    rw [hRead.2]
    exact ⟨nofun, fun hFits => absurd hFits.1 hRoom⟩

/- Less than all bytes of a command are incomplete. -/
theorem parse_take_command
    {arguments : List Bytes}
    (hFits : Fits arguments)
    {count : Nat}
    (hCount : count < (command arguments).length)
    (rest : Bytes) :
    parse ((command arguments ++ rest).take count) =
      .error .incomplete := by
  have hRead := (parse_command_iff arguments rest).mpr hFits
  rw [← List.take_append_drop count (_ ++ _)] at hRead
  refine steady_parse.incomplete hRead ?_
  rw [List.length_drop, List.length_append]
  omega

/-
  A command is read back, whatever follows it, if and only if
  its sizes fit. Reading takes all of its bytes, and none of
  those that follow.
-/
theorem reads_of_command
    (arguments : List Bytes)
    (rest : Bytes) :
    (parse (command arguments ++ rest) =
        .ok (.array (arguments.map .bulk), rest) ↔
      Fits arguments) ∧
    (Fits arguments →
      ∀ count < (command arguments).length,
        parse ((command arguments ++ rest).take count) =
          .error .incomplete) := by
  refine ⟨parse_command_iff arguments rest, ?_⟩
  intro hFits count hCount
  exact parse_take_command hFits hCount rest

------------------------------------------------------------
-- An Example
------------------------------------------------------------

/- An argument with the end of a line and bytes of no text. -/
def awkward : List Bytes :=
  [utf8 "SET", utf8 "$3\r\nkey\r\n", [13, 10, 0, 255], []]

theorem awkward_read :
    Fits awkward ∧
      parse (command awkward ++ utf8 "*1\r\n") =
        .ok (.array (awkward.map .bulk), utf8 "*1\r\n") := by
  have hFits : Fits awkward := by
    decide
  exact ⟨hFits, (reads_of_command awkward _).1.mpr hFits⟩

end Resp

end Rebac
