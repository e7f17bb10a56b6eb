import Rebac.Proofs.Valkey.Exchange
import Rebac.Proofs.Valkey.Execute

/-
  This file proves that replies and commands do not get out
  of step.

  An observer writes down, for every command, how many
  connections there have been, which bytes have arrived
  meanwhile and what the command has come to. The replies on
  a connection are then the first values of the bytes that
  arrived on it, in order, and what the client keeps is what
  is behind them.

  Key definitions include:
    * `Resp.Reads`
    * `Valkey.Journal`
    * `Valkey.Journal.execute`
    * `Valkey.Journal.run`
    * `Valkey.Journal.Faithful`

  Key theorems include:
    * `Valkey.Journal.Faithful.execute`
    * `Valkey.Journal.replies_of_run`
-/

namespace Rebac

------------------------------------------------------------
-- Values in Order
------------------------------------------------------------

namespace Resp

/-
  The first values of a text, one after the other, and the
  bytes behind them.
-/
def Reads
    (text : Bytes)
    (values : List Value)
    (rest : Bytes) : Prop :=
  parseMany parse values.length text = .ok (values, rest)

section Reads

variable {text rest : Bytes}
variable {values : List Value}

theorem Reads.none (text : Bytes) : Reads text [] text :=
  rfl

/- Bytes that arrive later are behind all others. -/
theorem Reads.more
    (hReads : Reads text values rest)
    (more : Bytes) :
    Reads (text ++ more) values (rest ++ more) :=
  (steady_parseMany steady_parse values.length).append hReads
    more

/- One more value is read from what was left. -/
theorem Reads.snoc
    {value : Value}
    {behind : Bytes}
    (hReads : Reads text values rest)
    (hRead : parse rest = .ok (value, behind)) :
    Reads text (values ++ [value]) behind := by
  unfold Reads at hReads ⊢
  induction values generalizing text with
  | nil =>
      cases hReads
      simp [parseMany, hRead]
  | cons first others ih =>
      rw [List.length_cons, parseMany] at hReads
      split at hReads
      · cases hReads
      · next found left hFirst =>
          split at hReads
          · cases hReads
          · next rests last hOthers =>
              cases hReads
              have hBehind := ih hOthers
              rw [List.cons_append, List.length_cons,
                parseMany, hFirst]
              dsimp only
              rw [hBehind]

/- They are the first of all values of the text. -/
theorem Reads.first
    (hReads : Reads text values rest) :
    values <+: (intake text).values := by
  induction values generalizing text with
  | nil => exact List.nil_prefix
  | cons first others ih =>
      unfold Reads at hReads
      rw [List.length_cons, parseMany] at hReads
      split at hReads
      · cases hReads
      · next found left hFirst =>
          split at hReads
          · cases hReads
          · next rests last hOthers =>
              cases hReads
              rw [intake_of_ok hFirst]
              exact List.cons_prefix_cons.mpr
                ⟨rfl, ih hOthers⟩

end Reads

end Resp

namespace Valkey

------------------------------------------------------------
-- Journals
------------------------------------------------------------

/-
  A command as it was observed: how many connections there
  had been at its end, the bytes that arrived during it, and
  what it came to.
-/
structure Entry where
  connection : Nat
  received : Bytes
  outcome : Except Failure Resp.Value

/- The reply that a command got, be it an error. -/
def Entry.reply? (entry : Entry) : Option Resp.Value :=
  match entry.outcome with
  | .ok reply => some reply
  | .error (.server text) => some (.error text)
  | .error _ => none

/-
  A client under observation: the connections so far, and an
  entry for each command, the latest last.
-/
structure Journal where
  client : Client
  connections : Nat := 0
  entries : List Entry := []

namespace Journal

/- The entries of commands on a connection. -/
def on (journal : Journal) (connection : Nat) : List Entry :=
  journal.entries.filter fun entry =>
    entry.connection = connection

/- All bytes that arrived on a connection. -/
def stream (journal : Journal) (connection : Nat) : Bytes :=
  (journal.on connection).flatMap Entry.received

/- The replies that commands got on a connection, in order. -/
def replies
    (journal : Journal)
    (connection : Nat) : List Resp.Value :=
  (journal.on connection).filterMap Entry.reply?

/- What is observed of a command that leads to a client. -/
def observe
    (journal : Journal)
    (outcome : Except Failure Resp.Value)
    (after : Client) : Entry :=
  { connection :=
      journal.connections +
        journal.client.network.opened after.network
    received := journal.client.network.received after.network
    outcome := outcome }

/- Writes down a command that leads to a client. -/
def write
    (journal : Journal)
    (after : Client)
    (entry : Entry) : Journal :=
  { client := after
    connections := entry.connection
    entries := journal.entries ++ [entry] }

/- Executes a command and writes down what is observed. -/
def execute
    (arguments : List Bytes) : Exchange Journal Resp.Value :=
  fun journal =>
    let (outcome, after) := journal.client.execute arguments
    (outcome,
      journal.write after (journal.observe outcome after))

/- The journal after an operation of its client. -/
def perform
    (operation : Client.Operation)
    (journal : Journal) : Journal :=
  match operation with
  | .get key => (get execute key journal).2
  | .setex key seconds value =>
      (setex execute key seconds value journal).2
  | .delete keys => (delete execute keys journal).2
  | .scanDelete pattern =>
      (scanDelete execute pattern journal.client.pages
        startCursor 0 journal).2
  | .ping => (ping execute journal).2
  | .execute arguments => (execute arguments journal).2

/- A journal of one operation after the other. -/
def run :
    List (Network × Client.Operation) → Journal → Journal
  | [], journal => journal
  | (more, operation) :: others, journal =>
      run others
        ({ journal with client := journal.client.extend more
          }.perform operation)

/-
  Replies and commands are in step: what was replied on a
  connection is what arrived on it, and what is kept is what
  is behind the replies on the present connection.
-/
structure Faithful (journal : Journal) : Prop where
  sound : journal.client.Sound
  past : ∀ entry ∈ journal.entries,
    entry.connection ≤ journal.connections
  reads : ∀ connection, ∃ rest,
    Resp.Reads (journal.stream connection)
      (journal.replies connection) rest
  present : journal.client.connected = true →
    Resp.Reads (journal.stream journal.connections)
      (journal.replies journal.connections)
      journal.client.buffer

variable {journal : Journal}

/- A new client, and nothing written down yet. -/
theorem Faithful.start
    {client : Client}
    (hSound : client.Sound)
    (hConnected : client.connected = false) :
    Faithful { client := client } where
  sound := hSound
  past := List.forall_mem_nil _
  reads _ := ⟨[], .none []⟩
  present hNow := by
    rw [hConnected] at hNow
    cases hNow

theorem Faithful.extend
    (hFaithful : journal.Faithful)
    (more : Network) :
    Faithful
      { journal with client := journal.client.extend more } where
  sound := ⟨hFaithful.sound.offline, hFaithful.sound.past⟩
  past := hFaithful.past
  reads := hFaithful.reads
  present := hFaithful.present

/- Nothing is written down of a connection before it is open. -/
theorem Faithful.on_eq_nil
    (hFaithful : journal.Faithful)
    {connection : Nat}
    (hLater : journal.connections < connection) :
    journal.on connection = [] := by
  apply List.filter_eq_nil_iff.mpr
  intro entry hEntry hOn
  have hPast := hFaithful.past entry hEntry
  have hSame := of_decide_eq_true hOn
  omega

/-
  What is kept is behind the replies on the connection that
  the next command uses.
-/
theorem Faithful.base
    (hFaithful : journal.Faithful) :
    Resp.Reads
      (journal.stream
        (journal.connections + journal.client.opens))
      (journal.replies
        (journal.connections + journal.client.opens))
      journal.client.buffer := by
  unfold Client.opens
  by_cases hConnected : journal.client.connected = true
  · rw [if_pos hConnected]
    exact hFaithful.present hConnected
  · have hOffline := Bool.eq_false_iff.mpr hConnected
    have hNothing :=
      hFaithful.on_eq_nil (Nat.lt_succ_self journal.connections)
    rw [if_neg hConnected, hFaithful.sound.offline hOffline,
      stream, replies, hNothing]
    exact .none []

/- An entry adds to its own connection, and to no other. -/
theorem on_write
    (after : Client)
    (entry : Entry)
    (connection : Nat) :
    (journal.write after entry).on connection =
      journal.on connection ++
        if entry.connection = connection then [entry]
        else [] := by
  unfold on write
  by_cases hOn : entry.connection = connection <;> simp [hOn]

theorem stream_write (after : Client) (entry : Entry) :
    (journal.write after entry).stream entry.connection =
      journal.stream entry.connection ++ entry.received := by
  rw [stream, on_write, if_pos rfl, List.flatMap_append,
    List.flatMap_singleton, stream]

theorem replies_write (after : Client) (entry : Entry) :
    (journal.write after entry).replies entry.connection =
      journal.replies entry.connection ++
        entry.reply?.toList := by
  have hOwn : [entry].filterMap Entry.reply? =
      entry.reply?.toList := by
    cases hReply : entry.reply? <;> simp [hReply]
  rw [replies, on_write, if_pos rfl, List.filterMap_append,
    hOwn, replies]

/-
  A journal stays faithful if an entry goes on with what was
  observed on its connection.
-/
theorem Faithful.write
    {after : Client}
    {entry : Entry}
    {rest : Bytes}
    (hFaithful : journal.Faithful)
    (hSound : after.Sound)
    (hLater : journal.connections ≤ entry.connection)
    (hReads :
      Resp.Reads
        (journal.stream entry.connection ++ entry.received)
        (journal.replies entry.connection ++
          entry.reply?.toList)
        rest)
    (hRest : after.connected = true → rest = after.buffer) :
    (journal.write after entry).Faithful where
  sound := hSound
  past := by
    have hEarlier : ∀ earlier ∈ journal.entries,
        earlier.connection ≤ entry.connection := by
      intro earlier hMem
      exact Nat.le_trans (hFaithful.past earlier hMem) hLater
    exact List.forall_mem_append.mpr
      ⟨hEarlier,
        List.forall_mem_singleton.mpr (Nat.le_refl _)⟩
  reads connection := by
    by_cases hOn : entry.connection = connection
    · subst hOn
      refine ⟨rest, ?_⟩
      rw [stream_write, replies_write]
      exact hReads
    · rw [stream, replies, on_write, if_neg hOn,
        List.append_nil]
      exact hFaithful.reads connection
  present hConnected := by
    have hBuffer : after.buffer = rest := (hRest hConnected).symm
    change Resp.Reads
      ((journal.write after entry).stream entry.connection)
      ((journal.write after entry).replies entry.connection)
      after.buffer
    rw [stream_write, replies_write, hBuffer]
    exact hReads

/- Failures that sever a connection are no replies. -/
theorem reply?_of_severs
    {entry : Entry}
    {failure : Failure}
    (hOutcome : entry.outcome = .error failure)
    (hSevers : failure.Severs) :
    entry.reply? = none := by
  unfold Entry.reply?
  rw [hOutcome]
  cases failure with
  | server text => exact absurd rfl (hSevers.2 text)
  | _ => rfl

theorem reply?_of_accept
    {entry : Entry}
    {reply : Resp.Value}
    (hOutcome : entry.outcome = Client.accept reply) :
    entry.reply? = some reply := by
  unfold Entry.reply?
  rw [hOutcome]
  cases reply <;> rfl

/-
  Whatever a command comes to, the journal stays faithful.
-/
theorem Faithful.execute
    (hFaithful : journal.Faithful)
    (arguments : List Bytes) :
    (journal.execute arguments).2.Faithful := by
  unfold Journal.execute
  cases hExecute : journal.client.execute arguments with
  | mk outcome after =>
      rcases Client.execute_spec hFaithful.sound hExecute with
        ⟨hSound, hEnding⟩
      have hBase := hFaithful.base
      have hLater : journal.connections ≤
          (journal.observe outcome after).connection :=
        Nat.le_add_right _ _
      dsimp only
      cases hEnding with
      | @severed failure _ opened received hSevers hOffline =>
          -- What arrived is behind the replies, and is lost.
          have hReply :
              (journal.observe (.error failure) after).reply? =
                none :=
            reply?_of_severs rfl hSevers
          rcases hFaithful.reads
              (journal.observe (.error failure) after).connection
            with ⟨rest, hReads⟩
          have hMore := hReads.more
            (journal.observe (.error failure) after).received
          rw [← List.append_nil (journal.replies _),
            ← Option.toList_none, ← hReply] at hMore
          refine hFaithful.write hSound hLater hMore ?_
          intro hConnected
          rw [hOffline.1] at hConnected
          cases hConnected
      | answered hConnected hRead hCourse =>
          refine hFaithful.write hSound hLater ?_ (fun _ => rfl)
          rw [reply?_of_accept rfl, observe, hCourse.opened_eq,
            hCourse.received_eq]
          exact (hBase.more _).snoc hRead
      | oversized hConnected hRead hBuffer hCourse =>
          -- Nothing is replied, and all that arrived is kept.
          refine hFaithful.write hSound hLater ?_ (fun _ => rfl)
          rw [observe, hCourse.opened_eq, hCourse.received_eq,
            hBuffer]
          change Resp.Reads _ (_ ++ []) _
          rw [List.append_nil]
          exact hBase.more _

------------------------------------------------------------
-- Replies in Order
------------------------------------------------------------

/- A faithful journal of a client. -/
def Follows (journal : Journal) (client : Client) : Prop :=
  journal.client = client ∧ journal.Faithful

theorem alike_execute (arguments : List Bytes) :
    Exchange.Alike Follows (Journal.execute arguments)
      (Client.execute arguments) := by
  intro journal client hFollows
  rcases hFollows with ⟨rfl, hFaithful⟩
  exact ⟨rfl, rfl, hFaithful.execute arguments⟩

/- Observing a client does not change what it does. -/
theorem Follows.perform
    {client : Client}
    (hFollows : journal.Follows client)
    (operation : Client.Operation) :
    (journal.perform operation).Follows
      (client.perform operation) := by
  cases operation with
  | get key =>
      exact (alike_get alike_execute key _ _ hFollows).2
  | setex key seconds value =>
      exact (alike_setex alike_execute key seconds value _ _
        hFollows).2
  | delete keys =>
      exact (alike_delete alike_execute keys _ _ hFollows).2
  | scanDelete pattern =>
      rw [Client.perform_scanDelete, ← hFollows.1]
      exact (alike_scanDelete alike_execute pattern _ _ _ _ _
        ⟨rfl, hFollows.2⟩).2
  | ping => exact (alike_ping alike_execute _ _ hFollows).2
  | execute arguments =>
      exact (alike_execute arguments _ _ hFollows).2

theorem Follows.run
    {client : Client}
    (hFollows : journal.Follows client)
    (script : List (Network × Client.Operation)) :
    (journal.run script).Follows (client.run script) := by
  induction script generalizing journal client with
  | nil => exact hFollows
  | cons step others ih =>
      rcases hFollows with ⟨rfl, hFaithful⟩
      have hExtended :
          Follows
            { journal with
              client := journal.client.extend step.1 }
            (journal.client.extend step.1) :=
        ⟨rfl, hFaithful.extend step.1⟩
      exact ih (hExtended.perform step.2)

/-
  Whatever the network does, the replies that commands get on
  a connection are the first values of the bytes that arrive
  on this connection, in order. The bytes that a client keeps
  for the next command are those behind these replies on its
  present connection, and none are kept without one.
-/
theorem replies_of_run
    (host : Bytes)
    (port patience : Nat)
    (script : List (Network × Client.Operation)) :
    let client : Client :=
      { host := host
        port := port
        patience := patience
        network := {} }
    let journal := run script { client := client }
    journal.client = client.run script ∧
      (∀ connection,
        journal.replies connection <+:
          (Resp.intake (journal.stream connection)).values) ∧
      (journal.client.connected = true →
        Resp.Reads (journal.stream journal.connections)
          (journal.replies journal.connections)
          journal.client.buffer) ∧
      (journal.client.connected = false →
        journal.client.buffer = []) := by
  intro client journal
  have hSound : client.Sound :=
    ⟨fun _ => rfl, List.forall_mem_nil _⟩
  have hStart : Follows { client := client } client :=
    ⟨rfl, .start hSound rfl⟩
  rcases hStart.run script with ⟨hClient, hFaithful⟩
  refine ⟨hClient, ?_, hFaithful.present,
    hFaithful.sound.offline⟩
  intro connection
  rcases hFaithful.reads connection with ⟨rest, hReads⟩
  exact hReads.first

------------------------------------------------------------
-- An Example
------------------------------------------------------------

section Example

def remote : Client :=
  { host := utf8 "valkey.local"
    port := 6379
    patience := 50
    network := {} }

/-
  The first lookup is late. A reply comes in two pieces, and
  then half of another one before the connection ends.
-/
def outage : List (Network × Client.Operation) :=
  [({ resolutions := [.late 0 (some (utf8 "10.0.0.1"))] },
      .ping),
    ({ resolutions := [.found (utf8 "10.0.0.2")]
       connections := [.established]
       arrivals :=
        [.bytes (utf8 "$1\r\n"), .bytes (utf8 "a\r\n+st")] },
      .get (utf8 "key")),
    ({ arrivals := [.bytes (utf8 "ale"), .ended] }, .ping),
    ({ connections := [.established]
       arrivals := [.bytes (utf8 "+PONG\r\n")] }, .ping)]

/- What was left of the first connection is not read again. -/
example :
    let journal := run outage { client := remote }
    journal.connections = 2 ∧
      journal.stream 1 = utf8 "$1\r\na\r\n+stale" ∧
      journal.replies 1 = [.bulk (utf8 "a")] ∧
      journal.replies 2 = [.simple (utf8 "PONG")] := by
  refine ⟨?_, ?_, ?_, ?_⟩ <;> rfl

end Example

end Journal

end Valkey

end Rebac
