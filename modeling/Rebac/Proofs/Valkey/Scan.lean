import Mathlib.Control.Monad.Basic
import Rebac.Proofs.Valkey.Exchange
import Rebac.Proofs.Valkey.Execute

/-
  This file proves which commands a deletion by a pattern
  executes, and what it makes of what they come to.

  Page by page, keys are asked for and then deleted, until the
  cursor is the first one again. The first command that fails
  ends the deletion, and it then fails as well. Every page is
  read from bytes that have arrived, so there are only as many
  of them as there are bytes.

  Key definitions include:
    * `Valkey.Exchanged`
    * `Valkey.recorded`
    * `Valkey.Deletes`
    * `Valkey.Scans`
    * `Valkey.Client.scanLog`

  Key theorems include:
    * `Valkey.scans_of_scanDelete`
    * `Valkey.Scans.error_of_failed`
    * `Valkey.Client.scans_scanLog`
    * `Valkey.Client.scanDelete_ends`
-/

namespace Rebac

namespace Network

------------------------------------------------------------
-- Unread Bytes
------------------------------------------------------------

theorem unread_eq (network : Network) :
    network.unread =
      (network.arrivals.flatMap Arrival.contents).length := by
  unfold unread
  induction network.arrivals with
  | nil => rfl
  | cons arrival others ih =>
      rw [List.foldr_cons, ih, List.flatMap_cons,
        List.length_append]
      cases arrival <;> simp [Arrival.contents]

/- Bytes that arrive are not outstanding any more. -/
theorem Course.unread_eq
    {before after : Network}
    {opened : Nat}
    {received : Bytes}
    (hCourse : Course before after opened received) :
    before.unread = received.length + after.unread := by
  rcases hCourse.arrivals with ⟨taken, hTaken, rfl⟩
  rw [Network.unread_eq, Network.unread_eq, hTaken,
    List.flatMap_append, List.length_append]

end Network

namespace Valkey

variable {State : Type}
variable {pattern cursor : Bytes}
variable {deleted : UInt64}

------------------------------------------------------------
-- Recorded Commands
------------------------------------------------------------

/- A command and what it came to. -/
structure Exchanged where
  arguments : List Bytes
  outcome : Except Failure Resp.Value
  deriving DecidableEq

/- Executes commands and records them, the latest last. -/
def recorded
    (execute : Executor State) : Executor (State × List Exchanged) :=
  fun arguments before =>
    let (outcome, after) := execute arguments before.1
    (outcome, (after, before.2 ++ [⟨arguments, outcome⟩]))

/- The command that asks for a page of keys. -/
def scanCommand (pattern cursor : Bytes) : List Bytes :=
  [utf8 "SCAN", cursor, utf8 "MATCH", pattern, utf8 "COUNT",
    utf8 "100"]

/- The command that deletes keys. -/
def deleteCommand (keys : List Bytes) : List Bytes :=
  utf8 "DEL" :: keys

/- The next cursor and the keys of a page. -/
def readPage
    (reply : Resp.Value) : Except Failure (Bytes × List Bytes) :=
  match reply with
  | .array [next, .array keys] =>
      .ok (next.text, keys.map Resp.Value.text)
  | _ => .error .unexpectedScan

/- How keys are deleted: no command is needed if there are none. -/
inductive Deletes (keys : List Bytes) :
    List Exchanged → Except Failure UInt64 → Prop where
  | none
      (hKeys : keys = []) :
      Deletes keys [] (.ok 0)
  | sent {outcome : Except Failure Resp.Value}
      (hKeys : keys ≠ []) :
      Deletes keys [⟨deleteCommand keys, outcome⟩]
        (outcome.map fun reply => UInt64.ofInt reply.number)

/-
  How a deletion by a pattern goes on from a cursor, with the
  commands on the way and what it comes to. It ends when a
  page is not read, when its keys are not deleted, or behind
  the last page; or it stops before that.
-/
inductive Scans (pattern : Bytes) :
    (cursor : Bytes) → (deleted : UInt64) →
      List Exchanged → Except Failure (Option UInt64) → Prop where
  | unread {cursor : Bytes} {deleted : UInt64}
      {outcome : Except Failure Resp.Value} {failure : Failure}
      (hPage : outcome.bind readPage = .error failure) :
      Scans pattern cursor deleted
        [⟨scanCommand pattern cursor, outcome⟩] (.error failure)
  | undeleted {cursor next : Bytes} {deleted : UInt64}
      {reply : Resp.Value} {keys : List Bytes}
      {deletion : List Exchanged} {failure : Failure}
      (hPage : readPage reply = .ok (next, keys))
      (hDeletes : Deletes keys deletion (.error failure)) :
      Scans pattern cursor deleted
        (⟨scanCommand pattern cursor, .ok reply⟩ :: deletion)
        (.error failure)
  | last {cursor : Bytes} {deleted count : UInt64}
      {reply : Resp.Value} {keys : List Bytes}
      {deletion : List Exchanged}
      (hPage : readPage reply = .ok (startCursor, keys))
      (hDeletes : Deletes keys deletion (.ok count)) :
      Scans pattern cursor deleted
        (⟨scanCommand pattern cursor, .ok reply⟩ :: deletion)
        (.ok (some (deleted + count)))
  | more {cursor next : Bytes} {deleted count : UInt64}
      {reply : Resp.Value} {keys : List Bytes}
      {deletion others : List Exchanged}
      {outcome : Except Failure (Option UInt64)}
      (hPage : readPage reply = .ok (next, keys))
      (hNext : next ≠ startCursor)
      (hDeletes : Deletes keys deletion (.ok count))
      (hOthers :
        Scans pattern next (deleted + count) others outcome) :
      Scans pattern cursor deleted
        (⟨scanCommand pattern cursor, .ok reply⟩ ::
          (deletion ++ others))
        outcome
  | stopped {cursor : Bytes} {deleted : UInt64} :
      Scans pattern cursor deleted [] (.ok none)

/- Where reading a page has a result, there is a reply. -/
theorem eq_ok_of_bind
    {outcome : Except Failure Resp.Value}
    {page : Bytes × List Bytes}
    (hPage : outcome.bind readPage = .ok page) :
    ∃ reply, outcome = .ok reply ∧ readPage reply = .ok page := by
  cases outcome with
  | error failure => cases hPage
  | ok reply => exact ⟨reply, rfl, hPage⟩

section Recorded

variable {execute : Executor State}
variable {state : State}
variable {log : List Exchanged}

theorem scanPage_recorded :
    ∃ outcome after,
      scanPage (recorded execute) pattern cursor (state, log) =
        (outcome.bind readPage,
          (after,
            log ++ [⟨scanCommand pattern cursor, outcome⟩])) := by
  rcases hRun : execute (scanCommand pattern cursor) state with
    ⟨outcome, after⟩
  refine ⟨outcome, after, ?_⟩
  have hRecorded :
      recorded execute (scanCommand pattern cursor) (state, log) =
        (outcome,
          (after,
            log ++ [⟨scanCommand pattern cursor, outcome⟩])) := by
    simp only [recorded, hRun]
  change Exchange.andThen
    (recorded execute (scanCommand pattern cursor))
    (fun reply => Exchange.always (readPage reply)) _ = _
  rw [Exchange.andThen, hRecorded]
  cases outcome <;> rfl

theorem delete_recorded
    (keys : List Bytes) :
    ∃ deletion outcome after,
      delete (recorded execute) keys (state, log) =
          (outcome, (after, log ++ deletion)) ∧
        Deletes keys deletion outcome := by
  by_cases hKeys : keys = []
  · refine ⟨[], .ok 0, state, ?_, .none hKeys⟩
    rw [delete, if_pos hKeys, List.append_nil]
    rfl
  · rcases hRun : execute (deleteCommand keys) state with
      ⟨outcome, after⟩
    refine ⟨_, _, after, ?_, @Deletes.sent _ outcome hKeys⟩
    have hRecorded :
        recorded execute (deleteCommand keys) (state, log) =
          (outcome,
            (after, log ++ [⟨deleteCommand keys, outcome⟩])) := by
      simp only [recorded, hRun]
    rw [delete, if_neg hKeys]
    change Exchange.andThen
      (recorded execute (deleteCommand keys))
      (fun reply => Exchange.always
        (.ok (UInt64.ofInt reply.number))) _ = _
    rw [Exchange.andThen, hRecorded]
    cases outcome <;> rfl

/- Any executor goes through a deletion in this way. -/
theorem scans_of_scanDelete
    (pages : Nat) :
    ∃ more outcome after,
      scanDelete (recorded execute) pattern pages cursor deleted
          (state, log) =
        (outcome, (after, log ++ more)) ∧
      Scans pattern cursor deleted more outcome := by
  induction pages generalizing cursor deleted state log with
  | zero =>
      refine ⟨[], .ok none, state, ?_, .stopped⟩
      rw [List.append_nil]
      rfl
  | succ pages hPages =>
      rw [scanDelete, Exchange.andThen]
      rcases scanPage_recorded with ⟨outcome, middle, hScan⟩
      rw [hScan]
      cases hPage : outcome.bind readPage with
      | error failure =>
          exact ⟨_, _, middle, rfl, .unread hPage⟩
      | ok page =>
          rcases eq_ok_of_bind hPage with ⟨reply, rfl, hReply⟩
          rcases page with ⟨next, keys⟩
          dsimp only
          rw [Exchange.andThen]
          rcases delete_recorded keys with
            ⟨deletion, count, after, hDelete, hDeletes⟩
          rw [hDelete, List.append_assoc]
          cases count with
          | error failure =>
              exact ⟨_, _, after, rfl, .undeleted hReply hDeletes⟩
          | ok count =>
              dsimp only
              by_cases hLast : next = startCursor
              · subst hLast
                rw [if_pos rfl]
                exact ⟨_, _, after, rfl, .last hReply hDeletes⟩
              · rw [if_neg hLast]
                rcases hPages with
                  ⟨others, outcome, final, hRest, hOthers⟩
                refine ⟨_, outcome, final, ?_,
                  .more hReply hLast hDeletes hOthers⟩
                rw [hRest, List.append_assoc]
                rfl

end Recorded

------------------------------------------------------------
-- Failed Commands
------------------------------------------------------------

/- A command that has no reply, or an error as its reply. -/
def Exchanged.Failed (exchanged : Exchanged) : Prop :=
  ∃ failure, exchanged.outcome = .error failure

variable {log : List Exchanged}
variable {entry : Exchanged}

theorem Deletes.error_of_failed
    {keys : List Bytes}
    {outcome : Except Failure UInt64}
    (hDeletes : Deletes keys log outcome)
    (hEntry : entry ∈ log)
    (hFailed : entry.Failed) :
    ∃ failure, outcome = .error failure := by
  cases hDeletes with
  | none => cases hEntry
  | @sent outcome hKeys =>
      rcases List.mem_singleton.mp hEntry with rfl
      rcases hFailed with ⟨failure, hOutcome⟩
      change outcome = .error failure at hOutcome
      rw [hOutcome]
      exact ⟨failure, rfl⟩

theorem Deletes.failed_of_error
    {keys : List Bytes}
    {failure : Failure}
    (hDeletes : Deletes keys log (.error failure)) :
    ∃ entry ∈ log, entry.Failed := by
  generalize hError : Except.error failure = outcome at hDeletes
  cases hDeletes with
  | none => cases hError
  | @sent outcome hKeys =>
      cases outcome with
      | error failure =>
          exact ⟨_, List.mem_singleton_self _, failure, rfl⟩
      | ok reply => cases hError

/- If any of its commands fails, a deletion fails. -/
theorem Scans.error_of_failed
    {outcome : Except Failure (Option UInt64)}
    (hScans : Scans pattern cursor deleted log outcome)
    (hEntry : entry ∈ log)
    (hFailed : entry.Failed) :
    ∃ failure, outcome = .error failure := by
  induction hScans with
  | unread => exact ⟨_, rfl⟩
  | undeleted => exact ⟨_, rfl⟩
  | last hPage hDeletes =>
      rcases List.mem_cons.mp hEntry with rfl | hLater
      · rcases hFailed with ⟨failure, hOutcome⟩
        cases hOutcome
      · rcases hDeletes.error_of_failed hLater hFailed with
          ⟨failure, hCount⟩
        cases hCount
  | more hPage hNext hDeletes hOthers ih =>
      rcases List.mem_cons.mp hEntry with rfl | hLater
      · rcases hFailed with ⟨failure, hOutcome⟩
        cases hOutcome
      · rcases List.mem_append.mp hLater with hDelete | hOther
        · rcases hDeletes.error_of_failed hDelete hFailed with
            ⟨failure, hCount⟩
          cases hCount
        · exact ih hOther
  | stopped => cases hEntry

------------------------------------------------------------
-- Clients
------------------------------------------------------------

namespace Client

variable {client after : Client}

/- The commands of a deletion by a pattern, in their order. -/
def scanLog (pattern : Bytes) (client : Client) : List Exchanged :=
  (Valkey.scanDelete (recorded execute) pattern client.pages
    startCursor 0 (client, [])).2.2

/- A record does not change what it is a record of. -/
theorem alike_recorded (arguments : List Bytes) :
    Exchange.Alike
      (fun (before : Client × List Exchanged) other =>
        before.1 = other)
      (recorded execute arguments) (execute arguments) := by
  rintro before other rfl
  exact ⟨rfl, rfl⟩

/- A client goes through a deletion in this way. -/
theorem scans_scanLog (pattern : Bytes) (client : Client) :
    Scans pattern startCursor 0 (client.scanLog pattern)
      (Valkey.scanDelete execute pattern client.pages
        startCursor 0 client).1 := by
  have hAlike := alike_scanDelete alike_recorded pattern
    client.pages startCursor 0 (client, []) client rfl
  rcases scans_of_scanDelete client.pages with
    ⟨log, outcome, after, hRun, hScans⟩
  rw [← hAlike.1, scanLog, hRun]
  exact hScans

/- The bytes that a client can still use. -/
def outstanding (client : Client) : Nat :=
  client.buffer.length + client.network.unread

/- A reply is made of outstanding bytes. -/
theorem execute_reads
    {arguments : List Bytes}
    {reply : Resp.Value}
    (hSound : client.Sound)
    (hExecute : execute arguments client = (.ok reply, after)) :
    after.Sound ∧ after.outstanding < client.outstanding := by
  rcases execute_spec hSound hExecute with ⟨hAfter, hEnding⟩
  refine ⟨hAfter, ?_⟩
  generalize hOutcome : Except.ok reply = outcome at hEnding
  cases hEnding with
  | severed => cases hOutcome
  | oversized => cases hOutcome
  | answered hConnected hRead hCourse =>
      have hShorter := Resp.parse_shorter hRead
      have hUnread := hCourse.unread_eq
      rw [List.length_append] at hShorter
      unfold outstanding
      omega

theorem scanPage_reads
    {page : Bytes × List Bytes}
    (hSound : client.Sound)
    (hScan : scanPage execute pattern cursor client =
      (.ok page, after)) :
    after.Sound ∧ after.outstanding < client.outstanding := by
  rcases Exchange.ok_of_andThen hScan with
    ⟨reply, middle, hExecute, hRest⟩
  cases congrArg Prod.snd hRest
  exact execute_reads hSound hExecute

theorem delete_reads
    {keys : List Bytes}
    {count : UInt64}
    (hSound : client.Sound)
    (hDelete : delete execute keys client = (.ok count, after)) :
    after.Sound ∧ after.outstanding ≤ client.outstanding := by
  unfold delete at hDelete
  by_cases hKeys : keys = []
  · rw [if_pos hKeys] at hDelete
    cases hDelete
    exact ⟨hSound, Nat.le_refl _⟩
  · rw [if_neg hKeys] at hDelete
    rcases Exchange.ok_of_andThen hDelete with
      ⟨reply, middle, hExecute, hRest⟩
    cases congrArg Prod.snd hRest
    rcases execute_reads hSound hExecute with ⟨hAfter, hLess⟩
    exact ⟨hAfter, Nat.le_of_lt hLess⟩

/- A deletion ends before it runs out of pages. -/
theorem scanDelete_ends
    {pages : Nat}
    {result : Option UInt64}
    (hSound : client.Sound)
    (hPages : client.outstanding < pages)
    (hRun : Valkey.scanDelete execute pattern pages cursor
      deleted client = (.ok result, after)) :
    result ≠ none := by
  induction pages generalizing client cursor deleted with
  | zero => exact absurd hPages (Nat.not_lt_zero _)
  | succ pages ih =>
      unfold Valkey.scanDelete at hRun
      rcases Exchange.ok_of_andThen hRun with
        ⟨⟨next, keys⟩, middle, hScan, hRest⟩
      rcases Exchange.ok_of_andThen hRest with
        ⟨count, later, hDelete, hLast⟩
      rcases scanPage_reads hSound hScan with
        ⟨hMiddle, hLess⟩
      rcases delete_reads hMiddle hDelete with ⟨hLater, hLe⟩
      by_cases hNext : next = startCursor
      · rw [if_pos hNext] at hLast
        cases hLast
        exact Option.some_ne_none _
      · rw [if_neg hNext] at hLast
        exact ih hLater (by omega) hLast

/- What a deletion comes to is what its pages come to. -/
theorem scans_scanDelete
    (hSound : client.Sound)
    (pattern : Bytes) :
    Scans pattern startCursor 0 (client.scanLog pattern)
      ((client.scanDelete pattern).1.map some) := by
  have hScans := scans_scanLog pattern client
  unfold Client.scanDelete Exchange.andThen
  rcases hRun : Valkey.scanDelete execute pattern client.pages
      startCursor 0 client with ⟨outcome, after⟩
  rw [hRun] at hScans
  cases outcome with
  | error failure => exact hScans
  | ok result =>
      cases result with
      | some count => exact hScans
      | none =>
          exact absurd rfl
            (scanDelete_ends hSound (Nat.lt_succ_self _) hRun)

end Client

end Valkey

end Rebac
