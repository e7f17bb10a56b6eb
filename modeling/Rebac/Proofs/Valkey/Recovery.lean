import Rebac.Proofs.Valkey.Exchange
import Rebac.Proofs.Valkey.Execute

/-
  This file proves what failures leave behind.

  A command that fails gives up its connection and all bytes
  that were read from it, with one exception. An array that
  is announced with too many elements is not kept out of the
  buffer: the connection stays open, and every command on it
  meets the same bytes again.

  Key definitions include:
    * `Valkey.Client.Reachable`
    * `Valkey.Client.Afresh`
    * `Valkey.Client.Recovers`
    * `Valkey.Client.Stuck`
    * `Valkey.Client.ButBytes`

  Key theorems include:
    * `Valkey.Client.Reachable.run`
    * `Valkey.Client.Recovers.of_offline`
    * `Valkey.Client.Stuck.execute`
    * `Valkey.Client.ButBytes.eq_of_offline`
    * `Valkey.Client.offline_iff_of_failed`
-/

namespace Rebac

namespace Network

------------------------------------------------------------
-- Networks
------------------------------------------------------------

/- A network where something else is to arrive. -/
def withArrivals
    (network : Network)
    (arrivals : List Arrival) : Network :=
  { network with arrivals := arrivals }

variable (network : Network)
variable (arrivals : List Arrival)

theorem resolve_withArrivals
    (host : Bytes)
    (port : Nat) :
    (network.withArrivals arrivals).resolve host port =
      ((network.resolve host port).1,
        (network.resolve host port).2.withArrivals
          arrivals) := by
  unfold resolve withArrivals record
  cases network.resolutions <;> rfl

theorem connect_withArrivals (address : Bytes) :
    (network.withArrivals arrivals).connect address =
      ((network.connect address).1,
        (network.connect address).2.withArrivals
          arrivals) := by
  unfold connect withArrivals record
  cases network.connections <;> rfl

theorem write_withArrivals (payload : Bytes) :
    (network.withArrivals arrivals).write payload =
      ((network.write payload).1,
        (network.write payload).2.withArrivals arrivals) := by
  unfold write withArrivals
  cases network.writings.headD .sent <;> rfl

end Network

namespace Valkey

namespace Client

------------------------------------------------------------
-- Reachable Clients
------------------------------------------------------------

/-
  The clients that a new client can turn into, whatever
  comes from the network and whatever it is asked for.
-/
inductive Reachable : Client → Prop where
  | new (host : Bytes) (port patience : Nat) :
      Reachable
        { host := host
          port := port
          patience := patience
          network := {} }
  | extend
      {client : Client}
      (more : Network)
      (hReachable : Reachable client) :
      Reachable (client.extend more)
  | execute
      {client : Client}
      (arguments : List Bytes)
      (hReachable : Reachable client) :
      Reachable (client.execute arguments).2

variable {client other after : Client}
variable {arguments : List Bytes}
variable {outcome : Except Failure Resp.Value}

theorem Sound.extend
    (hSound : client.Sound)
    (more : Network) :
    (client.extend more).Sound :=
  ⟨hSound.offline, hSound.past⟩

theorem Reachable.sound
    (hReachable : client.Reachable) : client.Sound := by
  induction hReachable with
  | new host port patience =>
      exact ⟨fun _ => rfl, List.forall_mem_nil _⟩
  | extend more _ ih => exact ih.extend more
  | execute arguments _ ih => exact (execute_spec ih rfl).1

theorem alike_reachable (arguments : List Bytes) :
    Exchange.Alike
      (fun client other => client = other ∧ client.Reachable)
      (execute arguments) (execute arguments) := by
  intro client other hRelated
  rcases hRelated with ⟨rfl, hReachable⟩
  exact ⟨rfl, rfl, hReachable.execute arguments⟩

theorem Reachable.perform
    (hReachable : client.Reachable)
    (operation : Operation) :
    (client.perform operation).Reachable := by
  have hSelf : client = client ∧ client.Reachable :=
    ⟨rfl, hReachable⟩
  cases operation with
  | get key =>
      exact (alike_get alike_reachable key _ _ hSelf).2.2
  | setex key seconds value =>
      exact (alike_setex alike_reachable key seconds value _ _
        hSelf).2.2
  | delete keys =>
      exact (alike_delete alike_reachable keys _ _ hSelf).2.2
  | scanDelete pattern =>
      rw [perform_scanDelete]
      exact (alike_scanDelete alike_reachable pattern _ _ _ _ _
        hSelf).2.2
  | ping => exact (alike_ping alike_reachable _ _ hSelf).2.2
  | execute arguments => exact hReachable.execute arguments

/- Between its operations, a client is reachable. -/
theorem Reachable.run
    (hReachable : client.Reachable)
    (script : List (Network × Operation)) :
    (client.run script).Reachable := by
  induction script generalizing client with
  | nil => exact hReachable
  | cons step others ih =>
      exact ih ((hReachable.extend step.1).perform step.2)

------------------------------------------------------------
-- Recovery
------------------------------------------------------------

/-
  How a command ends that uses no bytes of earlier ones: it
  gets no reply, or it opens a connection and reads its reply
  off the bytes that arrive there.
-/
inductive Afresh
    (before : Network) :
    Except Failure Resp.Value → Client → Prop where
  | severed {failure : Failure} {after : Client}
      (hSevers : failure.Severs)
      (hOffline : after.Offline) :
      Afresh before (.error failure) after
  | answered {reply : Resp.Value} {after : Client}
      (hOpened : before.opened after.network = 1)
      (hRead : Resp.parse (before.received after.network) =
        .ok (reply, after.buffer)) :
      Afresh before (accept reply) after
  | oversized {after : Client}
      (hOpened : before.opened after.network = 1)
      (hRead : Resp.parse (before.received after.network) =
        .error .oversized)
      (hBuffer :
        after.buffer = before.received after.network) :
      Afresh before (.error .oversized) after

/-
  The network lets a client have a connection: it has the
  server's address, or will find it out in time, and the
  server takes the connection.
-/
def Reaches (client : Client) : Prop :=
  client.network.connections.head? = some .established ∧
    (client.address ≠ none ∨ isNumeric client.host = true ∨
      ∃ address, client.network.resolutions.head? =
        some (.found address))

/-
  Whatever comes next from the network, the next command
  makes a fresh start, and has a connection of its own if the
  network lets it.
-/
structure Recovers (client : Client) : Prop where
  afresh : ∀ more arguments {outcome after},
    execute arguments (client.extend more) =
        (outcome, after) →
      Afresh (client.network.extend more) outcome after
  reconnects : ∀ more arguments,
    (client.extend more).Reaches →
      (client.network.extend more).opened
        (execute arguments (client.extend more)).2.network = 1

/- Without a connection, nothing that was read is used. -/
theorem afresh_of_offline
    (hSound : client.Sound)
    (hOffline : client.Offline)
    (hExecute :
      execute arguments client = (outcome, after)) :
    Afresh client.network outcome after := by
  have hOpens : client.opens = 1 := by
    rw [opens, hOffline.1]
    rfl
  rcases execute_spec hSound hExecute with ⟨_, hEnding⟩
  cases hEnding with
  | severed hSevers hLost =>
      exact .severed hSevers hLost
  | answered hConnected hRead hCourse =>
      rw [hOffline.2, List.nil_append,
        ← hCourse.received_eq] at hRead
      exact .answered (hCourse.opened_eq.trans hOpens) hRead
  | oversized hConnected hRead hBuffer hCourse =>
      rw [hOffline.2, List.nil_append,
        ← hCourse.received_eq] at hRead hBuffer
      exact .oversized (hCourse.opened_eq.trans hOpens) hRead
        hBuffer

/- The address is found where the network lets it be found. -/
theorem Reaches.locate
    (hReaches : client.Reaches)
    (arguments : List Bytes) :
    ∃ address middle,
      locate arguments client = (.ok address, middle) ∧
        middle.network.connections =
          client.network.connections := by
  unfold Client.locate
  cases hAddress : client.address with
  | some address => exact ⟨address, client, rfl, rfl⟩
  | none =>
      by_cases hNumeric : isNumeric client.host = true
      · rw [if_pos hNumeric]
        exact ⟨_, _, rfl, rfl⟩
      · rcases hReaches.2 with hKnown | hGiven | hFound
        · exact absurd hAddress hKnown
        · exact absurd hGiven hNumeric
        · rcases hFound with ⟨address, hHead⟩
          rcases List.head?_eq_some_iff.mp hHead with
            ⟨others, hOthers⟩
          rw [if_neg hNumeric]
          unfold Network.resolve conclude
          simp only [Network.record, hOthers, ne_eq,
            not_true_eq_false, if_false]
          exact ⟨address, _, rfl, rfl⟩

theorem Reaches.connect
    (hReaches : client.Reaches)
    (hConnected : client.connected = false)
    (arguments : List Bytes) :
    ∃ middle,
      connect arguments client = (.ok (), middle) ∧
        client.network.connections =
          .established :: middle.network.connections := by
  rcases hReaches.locate arguments with
    ⟨address, middle, hLocate, hSame⟩
  rcases List.head?_eq_some_iff.mp hReaches.1 with
    ⟨others, hOthers⟩
  unfold Client.connect Exchange.andThen
  rw [hConnected, hLocate]
  unfold open? Network.connect Network.record
  dsimp only
  rw [hSame, hOthers]
  exact ⟨_, rfl, rfl⟩

/- Neither writing nor reading opens a connection. -/
theorem connections_send
    (payload : Bytes)
    (client : Client) :
    (send payload client).2.network.connections =
      client.network.connections := by
  unfold send Network.write
  cases client.network.writings.headD .sent <;> rfl

theorem connections_receive (client : Client) :
    (receive client).2.network.connections =
      client.network.connections := by
  unfold receive
  rcases awaitReply client.patience client.network.arrivals
      client.buffer with
    ⟨_ | _ | _, buffer, arrivals⟩ <;> rfl

theorem connections_converse
    (arguments : List Bytes)
    (client : Client) :
    (converse arguments client).2.network.connections =
      client.network.connections := by
  have hSend :=
    connections_send (Resp.command arguments) client
  unfold converse Exchange.andThen
  revert hSend
  rcases send (Resp.command arguments) client with
    ⟨_ | _, sent⟩
  · exact id
  · exact (connections_receive sent).trans

/- A command has a connection where the network lets it. -/
theorem opened_of_reaches
    (hSound : client.Sound)
    (hOffline : client.Offline)
    (hReaches : client.Reaches)
    (arguments : List Bytes) :
    client.network.opened
      (execute arguments client).2.network = 1 := by
  have hNext : client.next.Reaches := hReaches
  rcases hNext.connect hOffline.1 arguments with
    ⟨middle, hConnect, hConnections⟩
  have hSame := connections_converse arguments middle
  unfold execute
  rw [start_eq hSound, Exchange.andThen, hConnect]
  dsimp only
  rw [andThen_accept]
  change (Network.used client.next.network.connections
    (converse arguments middle).2.network.connections).count
      .established = 1
  rw [hSame, hConnections]
  rw [← List.singleton_append, Network.used_append]
  rfl

theorem Recovers.of_offline
    (hSound : client.Sound)
    (hOffline : client.Offline) : client.Recovers where
  afresh more _ _ _ hExecute :=
    afresh_of_offline (hSound.extend more) hOffline hExecute
  reconnects more arguments hReaches :=
    opened_of_reaches (hSound.extend more) hOffline hReaches
      arguments

------------------------------------------------------------
-- Stuck Connections
------------------------------------------------------------

/-
  A connection on which an array was announced that is too
  large.
-/
structure Stuck (client : Client) : Prop where
  connected : client.connected = true
  announced :
    Resp.parse client.buffer = .error .oversized

theorem Stuck.extend
    (hStuck : client.Stuck)
    (more : Network) :
    (client.extend more).Stuck :=
  ⟨hStuck.connected, hStuck.announced⟩

/- Nothing more is read, and nothing is taken away. -/
theorem Stuck.receive
    (hStuck : client.Stuck) :
    receive client = (.error .oversized, client) := by
  have hAwait : awaitReply client.patience
      client.network.arrivals client.buffer =
        (.oversized, client.buffer, client.network.arrivals) := by
    rw [awaitReply.eq_def]
    dsimp only
    rw [hStuck.announced]
  unfold Client.receive
  rw [hAwait]

/-
  A command on such a connection meets the same bytes. They
  stay until a write fails.
-/
theorem Stuck.execute
    (hStuck : client.Stuck)
    (hSound : client.Sound)
    (hExecute :
      execute arguments client = (outcome, after)) :
    outcome = .error .oversized ∧ after.Stuck ∧
        after.buffer = client.buffer ∨
      outcome = .error .brokenWrite ∧ after.Offline := by
  have hConnected : client.next.connected = true :=
    hStuck.connected
  have hConnect : connect arguments client.next =
      (.ok (), client.next) := by
    unfold connect
    rw [if_pos hConnected]
  unfold Client.execute at hExecute
  rw [start_eq hSound, Exchange.andThen, hConnect] at hExecute
  dsimp only at hExecute
  rw [andThen_accept, converse, Exchange.andThen] at hExecute
  cases hSend :
      send (Resp.command arguments) client.next with
  | mk sending sent =>
      rw [hSend] at hExecute
      rcases (send_spec hSound.next hSend).2.2 with
        ⟨rfl, hStill, hSame⟩ | ⟨rfl, hOffline⟩
      · have hSent : sent.Stuck :=
          ⟨hStill.trans hConnected,
            by rw [hSame]; exact hStuck.announced⟩
        dsimp only at hExecute
        rw [hSent.receive] at hExecute
        cases hExecute
        exact .inl ⟨rfl, hSent, hSame⟩
      · cases hExecute
        exact .inr ⟨rfl, hOffline⟩

------------------------------------------------------------
-- Independence
------------------------------------------------------------

/-
  Clients that differ in nothing but the bytes that were read
  or are to arrive.
-/
def ButBytes (client other : Client) : Prop :=
  ∃ buffer arrivals,
    other =
      { client with
        buffer := buffer
        network := client.network.withArrivals arrivals }

theorem alike_conclude
    (command : Nat)
    (answer : Option Bytes) :
    Exchange.Alike ButBytes (conclude command answer)
      (conclude command answer) := by
  intro client other hButBytes
  rcases hButBytes with ⟨buffer, arrivals, rfl⟩
  unfold conclude
  by_cases hLatest : command ≠ client.begun
  · rw [if_pos hLatest, if_pos hLatest]
    exact ⟨rfl, buffer, arrivals, rfl⟩
  · rw [if_neg hLatest, if_neg hLatest]
    cases answer <;> exact ⟨rfl, buffer, arrivals, rfl⟩

theorem alike_locate (arguments : List Bytes) :
    Exchange.Alike ButBytes (locate arguments)
      (locate arguments) := by
  intro client other hButBytes
  rcases hButBytes with ⟨buffer, arrivals, rfl⟩
  unfold locate
  dsimp only
  split
  · exact ⟨rfl, buffer, arrivals, rfl⟩
  · by_cases hNumeric : isNumeric client.host = true
    · rw [if_pos hNumeric, if_pos hNumeric]
      exact ⟨rfl, buffer, arrivals, rfl⟩
    · rw [if_neg hNumeric, if_neg hNumeric,
        Network.resolve_withArrivals]
      rcases client.network.resolve client.host client.port with
        ⟨_ | _ | _ | _, network⟩
      · exact alike_conclude _ _ _ _ ⟨buffer, arrivals, rfl⟩
      · exact alike_conclude _ _ _ _ ⟨buffer, arrivals, rfl⟩
      · exact ⟨rfl, [], arrivals, rfl⟩
      · exact ⟨rfl, [], arrivals, rfl⟩

theorem alike_open? (address : Bytes) :
    Exchange.Alike ButBytes (open? address)
      (open? address) := by
  intro client other hButBytes
  rcases hButBytes with ⟨buffer, arrivals, rfl⟩
  unfold open?
  dsimp only
  rw [Network.connect_withArrivals]
  rcases client.network.connect address with
    ⟨_ | _ | _, network⟩
  · exact ⟨rfl, buffer, arrivals, rfl⟩
  · exact ⟨rfl, buffer, arrivals, rfl⟩
  · exact ⟨rfl, [], arrivals, rfl⟩

theorem alike_connect (arguments : List Bytes) :
    Exchange.Alike ButBytes (connect arguments)
      (connect arguments) := by
  intro client other hButBytes
  have hOpening :=
    (alike_locate arguments).andThen alike_open? client other
      hButBytes
  unfold connect
  have hSame : other.connected = client.connected := by
    rcases hButBytes with ⟨buffer, arrivals, rfl⟩
    rfl
  rw [hSame]
  by_cases hConnected : client.connected = true
  · rw [if_pos hConnected, if_pos hConnected]
    exact ⟨rfl, hButBytes⟩
  · rw [if_neg hConnected, if_neg hConnected]
    exact hOpening

theorem alike_send (payload : Bytes) :
    Exchange.Alike ButBytes (send payload)
      (send payload) := by
  intro client other hButBytes
  rcases hButBytes with ⟨buffer, arrivals, rfl⟩
  unfold send
  dsimp only
  rw [Network.write_withArrivals]
  rcases client.network.write payload with ⟨_ | _, network⟩
  · exact ⟨rfl, buffer, arrivals, rfl⟩
  · exact ⟨rfl, [], arrivals, rfl⟩

/-
  An exchange forgets the bytes that were read if, wherever
  it fails and severs the connection, it leaves clients that
  differed in bytes only different in bytes only.
-/
def Forgets
    {Result : Type}
    (exchange : Exchange Client Result) : Prop :=
  ∀ client other, ButBytes client other →
    ∀ failure another,
      (exchange client).1 = .error failure →
      (exchange other).1 = .error another →
      failure.Severs → another.Severs →
      ButBytes (exchange client).2 (exchange other).2

theorem forgets_receive : Forgets receive := by
  intro client other hButBytes failure another hFailure
    hAnother hSevers hOther
  rcases hButBytes with ⟨buffer, arrivals, rfl⟩
  revert hFailure hAnother
  unfold receive
  dsimp only
  rcases awaitReply client.patience client.network.arrivals
      client.buffer with
    ⟨_ | _ | _, kept, left⟩
  · exact nofun
  · -- Both buffers are given up with their connections.
    rcases awaitReply client.patience
        (client.network.withArrivals arrivals).arrivals
        buffer with
      ⟨_ | _ | _, kept', left'⟩
    · exact nofun
    · exact fun _ _ => ⟨[], left', rfl⟩
    · intro _ hAnother
      cases hAnother
      exact absurd rfl hOther.1
  · intro hFailure
    cases hFailure
    exact absurd rfl hSevers.1

theorem Forgets.behind
    {First Result : Type}
    {first : Exchange Client First}
    {next : First → Exchange Client Result}
    (hFirst : Exchange.Alike ButBytes first first)
    (hNext : ∀ result, Forgets (next result)) :
    Forgets (first.andThen next) := by
  intro client other hButBytes failure another
  have hMiddle := hFirst client other hButBytes
  unfold Exchange.andThen
  revert hMiddle
  rcases first client with ⟨outcome, middle⟩
  rcases first other with ⟨outcome', middle'⟩
  intro hMiddle
  rcases hMiddle with ⟨rfl, hMiddle⟩
  cases outcome with
  | error failure => exact fun _ _ _ _ => hMiddle
  | ok result =>
      exact hNext result middle middle' hMiddle failure another

/- A reply does not sever a connection, be it an error. -/
theorem eq_error_of_bind
    {failure : Failure}
    (hOutcome : outcome.bind accept = .error failure)
    (hSevers : failure.Severs) :
    outcome = .error failure := by
  cases outcome with
  | error other => exact hOutcome
  | ok reply =>
      cases reply with
      | error text =>
          cases hOutcome
          exact absurd rfl (hSevers.2 text)
      | _ => cases hOutcome

theorem Forgets.accepted
    {exchange : Exchange Client Resp.Value}
    (hForgets : Forgets exchange) :
    Forgets
      (exchange.andThen fun reply =>
        Exchange.always (accept reply)) := by
  intro client other hButBytes failure another hFailure
    hAnother hSevers hOther
  rw [andThen_accept] at hFailure hAnother ⊢
  rw [andThen_accept]
  exact hForgets client other hButBytes failure another
    (eq_error_of_bind hFailure hSevers)
    (eq_error_of_bind hAnother hOther) hSevers hOther

theorem forgets_converse (arguments : List Bytes) :
    Forgets (converse arguments) :=
  .behind (alike_send _) fun _ => forgets_receive

/- Without a connection, a command has failed. -/
theorem severs_of_offline
    (hSound : client.Sound)
    (hExecute :
      execute arguments client = (outcome, after))
    (hOffline : after.Offline) :
    ∃ failure, outcome = .error failure ∧ failure.Severs := by
  rcases execute_spec hSound hExecute with ⟨_, hEnding⟩
  cases hEnding with
  | severed hSevers _ => exact ⟨_, rfl, hSevers⟩
  | answered hConnected =>
      rw [hOffline.1] at hConnected
      cases hConnected
  | oversized hConnected =>
      rw [hOffline.1] at hConnected
      cases hConnected

/-
  If commands leave two clients without a connection that
  differed in bytes only, then the clients do not differ any
  more, unless other bytes are still to arrive.
-/
theorem ButBytes.eq_of_offline
    {otherwise : Client}
    {another : Except Failure Resp.Value}
    (hButBytes : client.ButBytes other)
    (hSound : client.Sound)
    (hOther : other.Sound)
    (hExecute :
      execute arguments client = (outcome, after))
    (hAnother :
      execute arguments other = (another, otherwise))
    (hOffline : after.Offline)
    (hOtherwise : otherwise.Offline)
    (hArrivals :
      otherwise.network.arrivals = after.network.arrivals) :
    otherwise = after := by
  rcases severs_of_offline hSound hExecute hOffline with
    ⟨failure, rfl, hSevers⟩
  rcases severs_of_offline hOther hAnother hOtherwise with
    ⟨failure', rfl, hSevers'⟩
  have hNext : ButBytes client.next other.next := by
    rcases hButBytes with ⟨buffer, arrivals, rfl⟩
    exact ⟨buffer, arrivals, rfl⟩
  have hForgets : Forgets
      (Exchange.andThen (connect arguments) fun _ =>
        Exchange.andThen (converse arguments) fun reply =>
          Exchange.always (accept reply)) :=
    .behind (alike_connect arguments) fun _ =>
      (forgets_converse arguments).accepted
  unfold execute at hExecute hAnother
  rw [start_eq hSound] at hExecute
  rw [start_eq hOther] at hAnother
  have hAfter := hForgets _ _ hNext failure failure'
    (congrArg Prod.fst hExecute) (congrArg Prod.fst hAnother)
    hSevers hSevers'
  rw [hExecute, hAnother] at hAfter
  rcases hAfter with ⟨buffer, arrivals, rfl⟩
  have hBuffer : buffer = after.buffer :=
    hOtherwise.2.trans hOffline.2.symm
  have hLeft : arrivals = after.network.arrivals := hArrivals
  rw [hBuffer, hLeft]
  rfl

------------------------------------------------------------
-- Failures
------------------------------------------------------------

/- A failure severs the connection or leaves it stuck. -/
theorem Ending.failed
    {failure : Failure}
    (hEnding : client.Ending outcome after)
    (hOutcome : outcome = .error failure)
    (hServer : ∀ text, failure ≠ .server text) :
    failure.Severs ∧ after.Offline ∨
      failure = .oversized ∧ after.Stuck := by
  cases hEnding with
  | severed hSevers hOffline =>
      cases hOutcome
      exact .inl ⟨hSevers, hOffline⟩
  | @answered reply _ _ =>
      cases reply with
      | error text =>
          cases hOutcome
          exact absurd rfl (hServer text)
      | _ => cases hOutcome
  | oversized hConnected hRead hBuffer =>
      cases hOutcome
      rw [← hBuffer] at hRead
      exact .inr ⟨rfl, hConnected, hRead⟩

theorem Stuck.not_offline
    (hStuck : client.Stuck) : ¬ client.Offline := by
  intro hOffline
  have hConnected := hStuck.connected
  rw [hOffline.1] at hConnected
  cases hConnected

/-
  After a failure that is not an error of the server's, a
  client has no connection and no bytes, unless an array was
  announced that is too large. Then the next command makes a
  fresh start, and it does not matter which bytes were read.
  In the other case, the connection is of no more use.
-/
theorem offline_iff_of_failed
    {failure : Failure}
    (hReachable : client.Reachable)
    (hExecute :
      execute arguments client = (.error failure, after))
    (hServer : ∀ text, failure ≠ .server text) :
    (after.Offline ↔ failure ≠ .oversized) ∧
      (after.Offline →
        after.Recovers ∧
          ∀ {other otherwise another},
            other.Reachable →
            client.ButBytes other →
            execute arguments other = (another, otherwise) →
            otherwise.Offline →
            otherwise.network.arrivals =
              after.network.arrivals →
            otherwise = after) ∧
      (failure = .oversized →
        after.Stuck ∧
          ∀ more arguments {outcome later},
            execute arguments (after.extend more) =
                (outcome, later) →
              outcome = .error .oversized ∧ later.Stuck ∧
                  later.buffer = after.buffer ∨
                outcome = .error .brokenWrite ∧
                  later.Offline) := by
  have hSound := hReachable.sound
  rcases execute_spec hSound hExecute with ⟨hAfter, hEnding⟩
  have hFailed := hEnding.failed rfl hServer
  refine ⟨⟨?_, ?_⟩, ?_, ?_⟩
  · intro hOffline hOversized
    rcases hFailed with ⟨hSevers, _⟩ | ⟨_, hStuck⟩
    · exact hSevers.1 hOversized
    · exact hStuck.not_offline hOffline
  · intro hOther
    rcases hFailed with ⟨_, hOffline⟩ | ⟨hOversized, _⟩
    · exact hOffline
    · exact absurd hOversized hOther
  · intro hOffline
    refine ⟨.of_offline hAfter hOffline, ?_⟩
    intro other otherwise another hOther hButBytes hAnother
      hOtherwise hArrivals
    exact hButBytes.eq_of_offline hSound hOther.sound hExecute
      hAnother hOffline hOtherwise hArrivals
  · intro hOversized
    rcases hFailed with ⟨hSevers, _⟩ | ⟨_, hStuck⟩
    · exact absurd hOversized hSevers.1
    · refine ⟨hStuck, ?_⟩
      intro more arguments outcome later hLater
      exact (hStuck.extend more).execute (hAfter.extend more)
        hLater

------------------------------------------------------------
-- An Example
------------------------------------------------------------

/- A client that gets a given text on its first connection. -/
def hearing (text : Bytes) : Client :=
  let client : Client :=
    { host := utf8 "valkey.local"
      port := 6379
      patience := 50
      network := {} }
  client.extend
    { resolutions := [.found (utf8 "10.0.0.1")]
      connections := [.established]
      arrivals := [.bytes text] }

theorem reachable_hearing (text : Bytes) :
    (hearing text).Reachable :=
  .extend _ (.new _ _ _)

def pinging : List Bytes :=
  [utf8 "PING"]

/- A value of an unknown kind costs the connection. -/
theorem recovers_from_unknownKind :
    ∃ after,
      execute pinging (hearing (utf8 "?\r\n")) =
          (.error (.malformed (.unknownKind 63)), after) ∧
        after.Offline ∧ after.Recovers := by
  have hExecute : execute pinging (hearing (utf8 "?\r\n")) =
      (.error (.malformed (.unknownKind 63)),
        (execute pinging (hearing (utf8 "?\r\n"))).2) := by
    rfl
  have hFailed := offline_iff_of_failed
    (reachable_hearing (utf8 "?\r\n")) hExecute nofun
  have hOffline := hFailed.1.mpr nofun
  exact ⟨_, hExecute, hOffline, (hFailed.2.1 hOffline).1⟩

/-
  An array of too many elements does not, and what arrives
  behind it is not read.
-/
theorem stuck_at_oversized :
    let text := utf8 "*9223372036854775807\r\n"
    let (outcome, after) := execute pinging (hearing text)
    let more : Network :=
      { connections := [.established]
        arrivals := [.bytes (utf8 "+PONG\r\n")] }
    (hearing text).Reachable ∧
      outcome = .error .oversized ∧
      after.connected = true ∧
      after.buffer = text ∧
      (execute pinging (after.extend more)).1 =
        .error .oversized := by
  refine ⟨reachable_hearing _, ?_, ?_, ?_, ?_⟩ <;> rfl

end Client

end Valkey

end Rebac
