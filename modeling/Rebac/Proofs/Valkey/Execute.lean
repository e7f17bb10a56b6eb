import Rebac.Proofs.Resp.Stream

/-
  This file proves what one command can do to a client.

  A command needs a connection, and opens one where there is
  none. It ends in one of three ways: the connection is given
  up together with all bytes read from it, a reply is taken
  off the bytes that have arrived, or the bytes announce an
  array that is too large, and everything stays.

  Commands that were given up before do not interfere: their
  lookups end without any effect.

  Key definitions include:
    * `Network.Course`
    * `Valkey.Failure.Severs`
    * `Valkey.Client.Sound`
    * `Valkey.Client.Ending`

  Key theorems include:
    * `Valkey.Client.start_eq`
    * `Valkey.Client.awaitReply_spec`
    * `Valkey.Client.execute_spec`
-/

namespace Rebac

------------------------------------------------------------
-- Networks
------------------------------------------------------------

namespace Network

/- What was used up of a script, down to what is left of it. -/
def used
    {Outcome : Type}
    (script left : List Outcome) : List Outcome :=
  script.take (script.length - left.length)

theorem used_append
    {Outcome : Type}
    (front left : List Outcome) :
    used (front ++ left) left = front := by
  simp [used]

/- The bytes that arrive. -/
def Arrival.contents : Arrival → Bytes
  | .bytes chunk => chunk
  | _ => []

/- How many connections were established since a state. -/
def opened (before after : Network) : Nat :=
  (used before.connections after.connections).count
    .established

/- The bytes that arrived since a state. -/
def received (before after : Network) : Bytes :=
  (used before.arrivals after.arrivals).flatMap
    Arrival.contents

/-
  The course of a network: how many connections were
  established, and which bytes arrived.
-/
structure Course
    (before after : Network)
    (opened : Nat)
    (received : Bytes) : Prop where
  connections : ∃ taken,
    before.connections = taken ++ after.connections ∧
      taken.count .established = opened
  arrivals : ∃ taken,
    before.arrivals = taken ++ after.arrivals ∧
      taken.flatMap Arrival.contents = received

section Course

variable {before middle after : Network}
variable {first second : Nat}
variable {early late : Bytes}

theorem Course.idle
    (hConnections : after.connections = before.connections)
    (hArrivals : after.arrivals = before.arrivals) :
    Course before after 0 [] where
  connections := ⟨[], by rw [hConnections]; rfl, rfl⟩
  arrivals := ⟨[], by rw [hArrivals]; rfl, rfl⟩

theorem Course.trans
    (hFirst : Course before middle first early)
    (hSecond : Course middle after second late) :
    Course before after (first + second) (early ++ late) := by
  rcases hFirst.connections with ⟨opening, hOpening, hFirstly⟩
  rcases hSecond.connections with ⟨others, hOthers, hLater⟩
  rcases hFirst.arrivals with ⟨chunks, hChunks, hEarly⟩
  rcases hSecond.arrivals with ⟨more, hMore, hLate⟩
  constructor
  · refine ⟨opening ++ others, ?_, ?_⟩
    · rw [hOpening, hOthers, List.append_assoc]
    · rw [List.count_append, hFirstly, hLater]
  · refine ⟨chunks ++ more, ?_, ?_⟩
    · rw [hChunks, hMore, List.append_assoc]
    · rw [List.flatMap_append, hEarly, hLate]

/- Closing a connection is not part of the course. -/
theorem Course.close
    (hCourse : Course before after first early) :
    Course before after.close first early where
  connections := hCourse.connections
  arrivals := hCourse.arrivals

theorem Course.opened_eq
    (hCourse : Course before after first early) :
    before.opened after = first := by
  rcases hCourse.connections with ⟨taken, hTaken, hCount⟩
  rw [opened, hTaken, used_append, hCount]

theorem Course.received_eq
    (hCourse : Course before after first early) :
    before.received after = early := by
  rcases hCourse.arrivals with ⟨taken, hTaken, hText⟩
  rw [received, hTaken, used_append, hText]

end Course

theorem course_resolve
    {network after : Network}
    {host : Bytes}
    {port : Nat}
    {outcome : Resolution}
    (hResolve : network.resolve host port = (outcome, after)) :
    network.Course after 0 [] := by
  unfold resolve at hResolve
  dsimp only at hResolve
  split at hResolve <;>
  · cases hResolve
    exact .idle rfl rfl

theorem course_connect
    {network after : Network}
    {address : Bytes}
    {outcome : Connecting}
    (hConnect : network.connect address = (outcome, after)) :
    network.Course after
      (if outcome = .established then 1 else 0) [] := by
  unfold connect at hConnect
  dsimp only at hConnect
  split at hConnect
  · next hNone =>
      cases hConnect
      exact .idle rfl rfl
  · next found others hSome =>
      cases hConnect
      refine ⟨⟨[outcome], hSome, ?_⟩, ⟨[], rfl, rfl⟩⟩
      by_cases hOutcome : outcome = .established <;>
        simp [hOutcome]

theorem course_write
    {network after : Network}
    {payload : Bytes}
    {outcome : Writing}
    (hWrite : network.write payload = (outcome, after)) :
    network.Course after 0 [] := by
  unfold write at hWrite
  dsimp only at hWrite
  split at hWrite <;>
  · cases hWrite
    exact .idle rfl rfl

end Network

namespace Valkey

------------------------------------------------------------
-- Failures
------------------------------------------------------------

/-
  Failures other than an error that the server replies with
  and an array that is too large.
-/
def Failure.Severs (failure : Failure) : Prop :=
  failure ≠ .oversized ∧ ∀ text, failure ≠ .server text

namespace Client

------------------------------------------------------------
-- Abandoned Commands
------------------------------------------------------------

/- No connection, and no bytes kept of an earlier one. -/
def Offline (client : Client) : Prop :=
  client.connected = false ∧ client.buffer = []

/-
  What is true of a client between its commands. Overdue
  lookups belong to commands that have been begun.
-/
structure Sound (client : Client) : Prop where
  offline : client.connected = false → client.buffer = []
  past : ∀ lookup ∈ client.overdue,
    lookup.command ≤ client.begun

theorem Sound.of_connected
    {client : Client}
    (hConnected : client.connected = true)
    (hPast : ∀ lookup ∈ client.overdue,
      lookup.command ≤ client.begun) :
    client.Sound where
  offline hOffline := by
    rw [hConnected] at hOffline
    cases hOffline
  past := hPast

/- The rest of a command that is not the latest is left out. -/
theorem resume_eq
    {client : Client}
    {lookup : Lookup}
    (hOld : lookup.command ≠ client.begun) :
    (resume lookup client).2 = client := by
  unfold resume Exchange.andThen conclude
  rw [if_pos hOld]

/- Abandoned commands leave the next one alone. -/
theorem start_eq
    {client : Client}
    (hSound : client.Sound) :
    client.start = client.next := by
  have hDue : ∀ lookup ∈ client.due,
      lookup.command ≠ client.next.begun := by
    intro lookup hLookup
    have hPast :=
      hSound.past lookup (List.mem_filter.mp hLookup |>.1)
    exact Nat.ne_of_lt (Nat.lt_succ_of_le hPast)
  unfold start
  generalize client.due = due at hDue ⊢
  induction due with
  | nil => rfl
  | cons lookup others ih =>
      rcases List.forall_mem_cons.mp hDue with ⟨hOld, hOthers⟩
      rw [List.foldl_cons, resume_eq hOld]
      exact ih hOthers

theorem Sound.next
    {client : Client}
    (hSound : client.Sound) :
    client.next.Sound where
  offline := hSound.offline
  past := by
    intro lookup hLookup
    rcases List.mem_map.mp hLookup with ⟨earlier, hEarlier, rfl⟩
    exact Nat.le_succ_of_le
      (hSound.past earlier (List.mem_filter.mp hEarlier |>.1))

------------------------------------------------------------
-- Connecting
------------------------------------------------------------

/- How many connections a command has to open. -/
def opens (client : Client) : Nat :=
  if client.connected then 0 else 1

/-
  How an attempt to have a connection ends: with one, or with
  none and nothing kept.
-/
inductive Connects
    (before : Client) : Except Failure Unit → Client → Prop where
  | connected {after : Client}
      (hConnected : after.connected = true)
      (hBuffer : after.buffer = before.buffer)
      (hCourse : before.network.Course after.network
        before.opens []) :
      Connects before (.ok ()) after
  | failed {failure : Failure} {after : Client}
      (hSevers : failure.Severs)
      (hOffline : after.Offline)
      (hCourse : before.network.Course after.network 0 []) :
      Connects before (.error failure) after

variable {before after : Client}
variable {arguments : List Bytes}

/- A lookup that ends in time may only set the address. -/
theorem conclude_spec
    (client : Client)
    {answer : Option Bytes}
    {outcome : Except Failure Bytes}
    (hConclude :
      conclude client.begun answer client = (outcome, after)) :
    (∃ address, after = { client with address := address }) ∧
      ∀ failure, outcome = .error failure → failure.Severs := by
  unfold conclude at hConclude
  rw [if_neg fun hOther => hOther rfl] at hConclude
  split at hConclude
  · cases hConclude
    refine ⟨⟨after.address, rfl⟩, ?_⟩
    intro failure hFailure
    cases hFailure
    exact ⟨nofun, nofun⟩
  · next address =>
      cases hConclude
      exact ⟨⟨some address, rfl⟩, nofun⟩

/- Looking up the address leaves a client without connection. -/
theorem locate_spec
    {outcome : Except Failure Bytes}
    (hSound : before.Sound)
    (hConnected : before.connected = false)
    (hLocate : locate arguments before = (outcome, after)) :
    after.Sound ∧ after.connected = false ∧
      before.network.Course after.network 0 [] ∧
      ∀ failure, outcome = .error failure → failure.Severs := by
  have hSilence : (Failure.silence before.patience).Severs :=
    ⟨nofun, nofun⟩
  have hEnded : ∀ {network : Network} {answer : Option Bytes},
      before.network.Course network 0 [] →
      conclude before.begun answer
          { before with network := network } =
        (outcome, after) →
      after.Sound ∧ after.connected = false ∧
        before.network.Course after.network 0 [] ∧
        ∀ failure, outcome = .error failure →
          failure.Severs := by
    intro network answer hCourse hConclude
    rcases conclude_spec { before with network := network }
        hConclude with
      ⟨⟨address, rfl⟩, hSevers⟩
    exact ⟨⟨hSound.offline, hSound.past⟩, hConnected, hCourse,
      hSevers⟩
  unfold locate at hLocate
  split at hLocate
  · cases hLocate
    exact ⟨hSound, hConnected, .idle rfl rfl, nofun⟩
  · split at hLocate
    · cases hLocate
      exact ⟨⟨hSound.offline, hSound.past⟩, hConnected,
        .idle rfl rfl, nofun⟩
    · cases hResolve :
          before.network.resolve before.host before.port with
      | mk resolution network =>
          have hCourse := Network.course_resolve hResolve
          rw [hResolve] at hLocate
          cases resolution with
          | found address => exact hEnded hCourse hLocate
          | unknown => exact hEnded hCourse hLocate
          | unanswered =>
              cases hLocate
              refine ⟨⟨fun _ => rfl, hSound.past⟩, hConnected,
                hCourse, ?_⟩
              intro failure hFailure
              cases hFailure
              exact hSilence
          | late delay answer =>
              cases hLocate
              refine ⟨⟨fun _ => rfl, ?_⟩, hConnected, hCourse,
                ?_⟩
              · exact List.forall_mem_append.mpr
                  ⟨hSound.past,
                    List.forall_mem_singleton.mpr
                      (Nat.le_refl before.begun)⟩
              · intro failure hFailure
                cases hFailure
                exact hSilence

/- An attempt to connect establishes a connection or fails. -/
theorem open?_spec
    {address : Bytes}
    {outcome : Except Failure Unit}
    (hSound : before.Sound)
    (hConnected : before.connected = false)
    (hOpen : open? address before = (outcome, after)) :
    after.Sound ∧ before.Connects outcome after := by
  have hBuffer := hSound.offline hConnected
  have hOpens : before.opens = 1 := by
    rw [opens, hConnected]
    rfl
  unfold open? at hOpen
  cases hConnect : before.network.connect address with
  | mk connecting network =>
      have hCourse := Network.course_connect hConnect
      rw [hConnect] at hOpen
      cases connecting with
      | established =>
          cases hOpen
          refine ⟨⟨nofun, hSound.past⟩, .connected rfl rfl ?_⟩
          rw [hOpens]
          exact hCourse
      | refused =>
          cases hOpen
          exact ⟨⟨hSound.offline, hSound.past⟩,
            .failed ⟨nofun, nofun⟩ ⟨hConnected, hBuffer⟩ hCourse⟩
      | unanswered =>
          cases hOpen
          exact ⟨⟨fun _ => rfl, hSound.past⟩,
            .failed ⟨nofun, nofun⟩ ⟨rfl, rfl⟩ hCourse.close⟩

theorem connect_spec
    {outcome : Except Failure Unit}
    (hSound : before.Sound)
    (hConnect : connect arguments before = (outcome, after)) :
    after.Sound ∧ before.Connects outcome after := by
  unfold connect at hConnect
  by_cases hConnected : before.connected = true
  · rw [if_pos hConnected] at hConnect
    cases hConnect
    refine ⟨hSound, .connected hConnected rfl ?_⟩
    rw [opens, if_pos hConnected]
    exact .idle rfl rfl
  · rw [if_neg hConnected] at hConnect
    unfold Exchange.andThen at hConnect
    have hOffline := Bool.eq_false_iff.mpr hConnected
    cases hLocate : locate arguments before with
    | mk located middle =>
        rcases locate_spec hSound hOffline hLocate with
          ⟨hMiddle, hStill, hCourse, hSevers⟩
        rw [hLocate] at hConnect
        cases located with
        | error failure =>
            cases hConnect
            exact ⟨hMiddle, .failed (hSevers failure rfl)
              ⟨hStill, hMiddle.offline hStill⟩ hCourse⟩
        | ok address =>
            rcases open?_spec hMiddle hStill hConnect with
              ⟨hAfter, hOpened⟩
            refine ⟨hAfter, ?_⟩
            cases hOpened with
            | connected hNow hBuffer hOpening =>
                refine .connected hNow ?_ ?_
                · rw [hBuffer, hMiddle.offline hStill,
                    hSound.offline hOffline]
                · have hCourses := hCourse.trans hOpening
                  rw [opens, hStill, Nat.zero_add] at hCourses
                  rw [opens, hOffline]
                  exact hCourses
            | failed hSevers hNothing hOpening =>
                exact .failed hSevers hNothing
                  (hCourse.trans hOpening)

------------------------------------------------------------
-- Sending and Receiving
------------------------------------------------------------

/- A payload is sent, or the connection is given up. -/
theorem send_spec
    {payload : Bytes}
    {outcome : Except Failure Unit}
    (hSound : before.Sound)
    (hSend : send payload before = (outcome, after)) :
    after.Sound ∧ before.network.Course after.network 0 [] ∧
      (outcome = .ok () ∧ after.connected = before.connected ∧
          after.buffer = before.buffer ∨
        outcome = .error .brokenWrite ∧ after.Offline) := by
  unfold send at hSend
  cases hWrite : before.network.write payload with
  | mk writing network =>
      have hCourse := Network.course_write hWrite
      rw [hWrite] at hSend
      cases writing with
      | sent =>
          cases hSend
          exact ⟨⟨hSound.offline, hSound.past⟩, hCourse,
            .inl ⟨rfl, rfl, rfl⟩⟩
      | broken =>
          cases hSend
          exact ⟨⟨fun _ => rfl, hSound.past⟩, hCourse.close,
            .inr ⟨rfl, rfl, rfl⟩⟩

/- What a reading is of a text, and what it keeps of it. -/
def Reading.Of (text kept : Bytes) : Reading → Prop
  | .value reply => Resp.parse text = .ok (reply, kept)
  | .failed failure => failure.Severs
  | .oversized =>
      Resp.parse text = .error .oversized ∧ kept = text

/- Waiting for a reply reads the bytes that arrive meanwhile. -/
theorem awaitReply_spec
    {patience : Nat}
    {arrivals left : List Network.Arrival}
    {buffer kept : Bytes}
    {reading : Reading}
    (hAwait :
      awaitReply patience arrivals buffer =
        (reading, kept, left)) :
    ∃ taken, arrivals = taken ++ left ∧
      reading.Of
        (buffer ++ taken.flatMap Network.Arrival.contents)
        kept := by
  fun_induction awaitReply patience arrivals buffer with
  | case1 arrivals buffer reply rest hRead =>
      cases hAwait
      refine ⟨[], rfl, ?_⟩
      rwa [List.flatMap_nil, List.append_nil]
  | case2 arrivals buffer cause hRead =>
      cases hAwait
      exact ⟨[], rfl, nofun, nofun⟩
  | case3 arrivals buffer hRead =>
      cases hAwait
      refine ⟨[], rfl, ?_⟩
      rw [List.flatMap_nil, List.append_nil]
      exact ⟨hRead, rfl⟩
  | case4 buffer hRead =>
      cases hAwait
      exact ⟨[], rfl, nofun, nofun⟩
  | case5 buffer hRead chunk others ih =>
      rcases ih hAwait with ⟨taken, rfl, hOf⟩
      refine ⟨.bytes chunk :: taken, rfl, ?_⟩
      rw [List.append_assoc] at hOf
      exact hOf
  | case6 buffer hRead others =>
      cases hAwait
      exact ⟨[.ended], rfl, nofun, nofun⟩
  | case7 buffer hRead others =>
      cases hAwait
      exact ⟨[.reset], rfl, nofun, nofun⟩
  | case8 buffer hRead others =>
      cases hAwait
      exact ⟨[.silence], rfl, nofun, nofun⟩

/-
  How a command ends. The bytes that a reply is read from are
  those that were kept and those that have arrived.
-/
inductive Ending
    (before : Client) :
    Except Failure Resp.Value → Client → Prop where
  | severed {failure : Failure} {after : Client}
      {opened : Nat} {received : Bytes}
      (hSevers : failure.Severs)
      (hOffline : after.Offline)
      (hOpened : opened ≤ before.opens)
      (hReceived : opened < before.opens → received = [])
      (hCourse :
        before.network.Course after.network opened received) :
      Ending before (.error failure) after
  | answered {reply : Resp.Value} {after : Client}
      {received : Bytes}
      (hConnected : after.connected = true)
      (hRead : Resp.parse (before.buffer ++ received) =
        .ok (reply, after.buffer))
      (hCourse : before.network.Course after.network
        before.opens received) :
      Ending before (accept reply) after
  | oversized {after : Client} {received : Bytes}
      (hConnected : after.connected = true)
      (hRead : Resp.parse (before.buffer ++ received) =
        .error .oversized)
      (hBuffer : after.buffer = before.buffer ++ received)
      (hCourse : before.network.Course after.network
        before.opens received) :
      Ending before (.error .oversized) after

/- Reading a reply ends like the command that it is for. -/
theorem receive_spec
    {middle : Client}
    {outcome : Except Failure Resp.Value}
    (hSound : middle.Sound)
    (hConnected : middle.connected = true)
    (hBuffer : middle.buffer = before.buffer)
    (hCourse : before.network.Course middle.network
      before.opens [])
    (hReceive : receive middle = (outcome, after)) :
    after.Sound ∧
      before.Ending
        (outcome.bind accept) after := by
  unfold receive at hReceive
  cases hAwait : awaitReply middle.patience
      middle.network.arrivals middle.buffer with
  | mk reading rest =>
      rcases rest with ⟨kept, left⟩
      rcases awaitReply_spec hAwait with ⟨taken, hTaken, hOf⟩
      rw [hAwait] at hReceive
      have hReading : middle.network.Course
          { middle.network with arrivals := left } 0
          (taken.flatMap Network.Arrival.contents) :=
        ⟨⟨[], rfl, rfl⟩, ⟨taken, hTaken, rfl⟩⟩
      have hArrived := hCourse.trans hReading
      rw [hBuffer] at hOf
      cases reading with
      | value reply =>
          cases hReceive
          exact ⟨.of_connected hConnected hSound.past,
            .answered hConnected hOf hArrived⟩
      | failed failure =>
          cases hReceive
          exact ⟨⟨fun _ => rfl, hSound.past⟩,
            .severed hOf ⟨rfl, rfl⟩ (Nat.le_refl _)
              (fun hLess => absurd hLess (Nat.lt_irrefl _))
              hArrived.close⟩
      | oversized =>
          cases hReceive
          exact ⟨.of_connected hConnected hSound.past,
            .oversized hConnected hOf.1 hOf.2 hArrived⟩

------------------------------------------------------------
-- Commands
------------------------------------------------------------

/- What is called a result is called one by its command. -/
theorem andThen_accept
    (exchange : Exchange Client Resp.Value)
    (client : Client) :
    Exchange.andThen exchange
        (fun reply => Exchange.always (accept reply)) client =
      ((exchange client).1.bind accept, (exchange client).2) := by
  unfold Exchange.andThen
  rcases exchange client with ⟨_ | reply, after⟩ <;> rfl

/-
  Sending a command and reading the reply, where there is a
  connection.
-/
theorem converse_spec
    {middle : Client}
    {outcome : Except Failure Resp.Value}
    (hSound : middle.Sound)
    (hConnected : middle.connected = true)
    (hBuffer : middle.buffer = before.buffer)
    (hCourse : before.network.Course middle.network
      before.opens [])
    (hConverse :
      converse arguments middle = (outcome, after)) :
    after.Sound ∧ before.Ending (outcome.bind accept) after := by
  unfold converse Exchange.andThen at hConverse
  cases hSend : send (Resp.command arguments) middle with
  | mk sending sent =>
      rcases send_spec hSound hSend with
        ⟨hSent, hSending, ⟨rfl, hStill, hSame⟩ |
          ⟨rfl, hOffline⟩⟩
      · rw [hSend] at hConverse
        exact receive_spec hSent (hStill.trans hConnected)
          (hSame.trans hBuffer) (hCourse.trans hSending)
          hConverse
      · rw [hSend] at hConverse
        cases hConverse
        exact ⟨hSent, .severed ⟨nofun, nofun⟩ hOffline
          (Nat.le_refl _)
          (fun hLess => absurd hLess (Nat.lt_irrefl _))
          (hCourse.trans hSending)⟩

/-
  A command leaves a client sound, and ends in one of three
  ways.
-/
theorem execute_spec
    {outcome : Except Failure Resp.Value}
    (hSound : before.Sound)
    (hExecute :
      execute arguments before = (outcome, after)) :
    after.Sound ∧ before.Ending outcome after := by
  unfold execute at hExecute
  rw [start_eq hSound] at hExecute
  unfold Exchange.andThen at hExecute
  cases hConnect : connect arguments before.next with
  | mk connecting middle =>
      rcases connect_spec hSound.next hConnect with
        ⟨hMiddle, hConnects⟩
      rw [hConnect] at hExecute
      cases hConnects with
      | connected hConnected hBuffer hCourse =>
          dsimp only at hExecute
          rw [← Exchange.andThen, andThen_accept] at hExecute
          cases hConverse : converse arguments middle with
          | mk reply left =>
              rw [hConverse] at hExecute
              cases hExecute
              exact converse_spec hMiddle hConnected hBuffer
                hCourse hConverse
      | failed hSevers hOffline hCourse =>
          cases hExecute
          exact ⟨hMiddle, .severed hSevers hOffline
            (Nat.zero_le _) (fun _ => rfl) hCourse⟩

end Client

end Valkey

end Rebac
