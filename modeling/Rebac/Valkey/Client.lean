import Rebac.Resp.Parse
import Rebac.Valkey.Network

/-
  This file defines the client of a cache server.

  The client keeps one connection and opens it when a
  command needs one. A command is written, and then bytes
  are read until the buffer holds a whole reply. Whatever
  goes wrong on the way closes the connection, and the next
  command opens a fresh one.

  A lookup of the server's address may end long after its
  command was given up. Commands are numbered, so that the
  rest of such a command does not interfere with later ones.

  Key definitions include:
    * `Valkey.Failure`
    * `Valkey.Failure.message`
    * `Valkey.Client`
    * `Valkey.Exchange`
    * `Valkey.Client.conclude`
    * `Valkey.Client.start`
    * `Valkey.Client.execute`
    * `Valkey.get`
    * `Valkey.setex`
    * `Valkey.delete`
    * `Valkey.ping`
    * `Valkey.scanDelete`
    * `Valkey.Client.scanDelete`
-/

namespace Rebac

namespace Valkey

------------------------------------------------------------
-- Failures
------------------------------------------------------------

/- Why a command has no result. -/
inductive Failure where
  | abandoned
  | unresolved (host : Bytes) (port : Nat)
  | refused (host : Bytes) (port : Nat)
  | brokenWrite
  | ended
  | reset
  | malformed (cause : Resp.Malformation)
  | oversized
  | silence (milliseconds : Nat)
  | server (text : Bytes)
  | unexpectedGet
  | unexpectedPing (text : Bytes)
  | unexpectedScan
  deriving DecidableEq, Repr

/- The wording of a failure. -/
def Failure.message : Failure → Bytes
  | .abandoned => utf8 "abandoned after timeout"
  | .unresolved host port =>
      utf8 "resolve " ++ host ++ utf8 ":" ++
        Numeral.ofNat port ++
        utf8 " failed: Host not found (authoritative)"
  | .refused host port =>
      utf8 "connect " ++ host ++ utf8 ":" ++
        Numeral.ofNat port ++
        utf8 " failed: Connection refused"
  | .brokenWrite => utf8 "write failed: Broken pipe"
  | .ended => utf8 "read failed: End of file"
  | .reset => utf8 "read failed: Connection reset by peer"
  | .malformed cause => utf8 "protocol error: " ++ cause.message
  | .oversized =>
      utf8 "command failed: " ++ Resp.Fault.message .oversized
  | .silence milliseconds =>
      utf8 "timeout after " ++ Numeral.ofNat milliseconds ++
        utf8 "ms"
  | .server text => utf8 "server error: " ++ text
  | .unexpectedGet => utf8 "unexpected GET reply type"
  | .unexpectedPing text =>
      utf8 "unexpected PING reply '" ++ text ++ utf8 "'"
  | .unexpectedScan => utf8 "unexpected SCAN reply shape"

/-
  An exchange with a server changes a state, whether it has
  a result or fails.
-/
abbrev Exchange (State Result : Type) :=
  State → Except Failure Result × State

/- Continues an exchange that had a result. -/
def Exchange.andThen
    {State First Second : Type}
    (first : Exchange State First)
    (next : First → Exchange State Second) :
    Exchange State Second :=
  fun state =>
    match first state with
    | (.error failure, state) => (.error failure, state)
    | (.ok result, state) => next result state

/- An exchange that does nothing. -/
def Exchange.always
    {State Result : Type}
    (outcome : Except Failure Result) :
    Exchange State Result :=
  fun state => (outcome, state)

------------------------------------------------------------
-- Clients
------------------------------------------------------------

/-
  A lookup of the server's address that its command did not
  wait for: the number and the arguments of that command,
  how many commands are still to come and go before the
  lookup ends, and the address that it ends with.
-/
structure Lookup where
  command : Nat
  arguments : List Bytes
  delay : Nat
  answer : Option Bytes
  deriving DecidableEq, Repr

/-
  A client of the server on a host and port. It has the
  server's address once that was found out, and a connection
  while it is `connected`; the buffer holds the bytes that
  were read but not used. It counts the commands that were
  begun and keeps the lookups that are overdue.
-/
structure Client where
  host : Bytes
  port : Nat
  patience : Nat
  network : Network
  address : Option Bytes := none
  connected : Bool := false
  buffer : Bytes := []
  begun : Nat := 0
  overdue : List Lookup := []
  deriving Repr

namespace Client

/- Whether a text is a number from 0 to 255. -/
def isOctet (text : Bytes) : Bool :=
  match Numeral.readNat? text with
  | none => false
  | some number =>
      number ≤ 255 && text == Numeral.ofNat number

/-
  Whether a host is given by its address: four numbers with
  dots between them, or a text with a colon.
-/
def isNumeric (host : Bytes) : Bool :=
  let parts := Bytes.split 46 host
  host.contains 58 ||
    (parts.length == 4 && parts.all isOctet)

/- Gives up the connection and the bytes read from it. -/
def disconnect (client : Client) : Client :=
  { client with
    network := client.network.close
    connected := false
    buffer := [] }

/-
  Ends a lookup of a command. Its answer is used only if the
  command is still the latest one.
-/
def conclude
    (command : Nat)
    (answer : Option Bytes) : Exchange Client Bytes :=
  fun client =>
    if command ≠ client.begun then
      (.error .abandoned, client)
    else
      match answer with
      | none =>
          (.error (.unresolved client.host client.port), client)
      | some address =>
          (.ok address, { client with address := some address })

/- Finds out the address of the server for a command. -/
def locate (arguments : List Bytes) : Exchange Client Bytes :=
  fun client =>
    match client.address with
    | some address => (.ok address, client)
    | none =>
        if isNumeric client.host then
          (.ok client.host,
            { client with address := some client.host })
        else
          let (outcome, network) :=
            client.network.resolve client.host client.port
          let client := { client with network := network }
          match outcome with
          | .found address =>
              conclude client.begun (some address) client
          | .unknown => conclude client.begun none client
          | .unanswered =>
              (.error (.silence client.patience),
                { client with buffer := [] })
          | .late delay answer =>
              (.error (.silence client.patience),
                { client with
                  buffer := []
                  overdue := client.overdue ++
                    [{ command := client.begun
                       arguments := arguments
                       delay := delay
                       answer := answer }] })

/-
  Connects to the address of the server. After a failure the
  address is looked up anew.
-/
def open? (address : Bytes) : Exchange Client Unit :=
  fun client =>
    let (outcome, network) := client.network.connect address
    let client := { client with network := network }
    match outcome with
    | .established => (.ok (), { client with connected := true })
    | .refused =>
        (.error (.refused client.host client.port),
          { client with address := none })
    | .unanswered =>
        (.error (.silence client.patience),
          { client.disconnect with address := none })

/- Sees to it that there is a connection for a command. -/
def connect (arguments : List Bytes) : Exchange Client Unit :=
  fun client =>
    if client.connected then
      (.ok (), client)
    else
      Exchange.andThen (locate arguments) open? client

/- Writes a payload to the connection. -/
def send (payload : Bytes) : Exchange Client Unit :=
  fun client =>
    let (outcome, network) := client.network.write payload
    let client := { client with network := network }
    match outcome with
    | .sent => (.ok (), client)
    | .broken => (.error .brokenWrite, client.disconnect)

/-
  What reading comes to: the outcome, what is left in the
  buffer and the arrivals that are left.
-/
inductive Reading where
  | value (value : Resp.Value)
  | failed (failure : Failure)
  | oversized

/-
  Reads from the given arrivals until the buffer holds a
  whole reply.
-/
def awaitReply
    (patience : Nat) :
    (arrivals : List Network.Arrival) →
    (buffer : Bytes) →
    Reading × Bytes × List Network.Arrival
  | arrivals, buffer =>
      match Resp.parse buffer with
      | .ok (value, rest) => (.value value, rest, arrivals)
      | .error (.malformed cause) =>
          (.failed (.malformed cause), buffer, arrivals)
      | .error .oversized => (.oversized, buffer, arrivals)
      | .error .incomplete =>
          match arrivals with
          | [] => (.failed (.silence patience), buffer, [])
          | .bytes chunk :: others =>
              awaitReply patience others (buffer ++ chunk)
          | .ended :: others => (.failed .ended, buffer, others)
          | .reset :: others => (.failed .reset, buffer, others)
          | .silence :: others =>
              (.failed (.silence patience), buffer, others)
termination_by structural arrivals => arrivals

/-
  Reads one reply from the connection. An array that is too
  large is the only failure that keeps the connection.
-/
def receive : Exchange Client Resp.Value :=
  fun client =>
    let (reading, buffer, arrivals) :=
      awaitReply client.patience client.network.arrivals
        client.buffer
    let client :=
      { client with
        buffer := buffer
        network := { client.network with arrivals := arrivals } }
    match reading with
    | .value value => (.ok value, client)
    | .failed failure => (.error failure, client.disconnect)
    | .oversized => (.error .oversized, client)

/- Turns a reply that is an error into a failure. -/
def accept
    (reply : Resp.Value) : Except Failure Resp.Value :=
  match reply with
  | .error text => .error (.server text)
  | value => .ok value

/- Sends a command and reads the reply to it. -/
def converse
    (arguments : List Bytes) : Exchange Client Resp.Value :=
  Exchange.andThen (send (Resp.command arguments)) fun _ =>
    receive

/- Goes on with a command whose lookup has ended at last. -/
def resume (lookup : Lookup) : Exchange Client Resp.Value :=
  Exchange.andThen (conclude lookup.command lookup.answer)
    fun address =>
      Exchange.andThen (open? address) fun _ =>
        converse lookup.arguments

/- The lookups that end during the next command. -/
def due (client : Client) : List Lookup :=
  client.overdue.filter fun lookup => lookup.delay = 0

/- Counts a command. All other overdue lookups come closer. -/
def next (client : Client) : Client :=
  { client with
    begun := client.begun + 1
    overdue :=
      (client.overdue.filter fun lookup =>
        lookup.delay ≠ 0).map fun lookup =>
          { lookup with delay := lookup.delay - 1 } }

/-
  Begins a command. The commands whose lookups end meanwhile
  are gone on with, and nobody waits for what they come to.
-/
def start (client : Client) : Client :=
  client.due.foldl
    (fun client lookup => (resume lookup client).2)
    client.next

/- Sends a command and gives the server's reply. -/
def execute
    (arguments : List Bytes) : Exchange Client Resp.Value :=
  fun client =>
    Exchange.andThen (connect arguments)
      (fun _ =>
        Exchange.andThen (converse arguments) fun reply =>
          Exchange.always (accept reply))
      client.start

end Client

------------------------------------------------------------
-- Commands
------------------------------------------------------------

/- Anything that executes commands. -/
abbrev Executor (State : Type) :=
  List Bytes → Exchange State Resp.Value

section Commands

variable {State : Type}
variable (execute : Executor State)

/- Looks up a key. -/
def get (key : Bytes) : Exchange State (Option Bytes) :=
  Exchange.andThen (execute [utf8 "GET", key]) fun reply =>
    Exchange.always
      (match reply with
       | .null => .ok none
       | .bulk text => .ok (some text)
       | _ => .error .unexpectedGet)

/- Puts a value under a key for a number of seconds. -/
def setex
    (key : Bytes)
    (seconds : Nat)
    (value : Bytes) : Exchange State Unit :=
  Exchange.andThen
    (execute
      [utf8 "SETEX", key, Numeral.ofNat seconds, value])
    fun _ => Exchange.always (.ok ())

/- Deletes keys and counts those that were there. -/
def delete (keys : List Bytes) : Exchange State UInt64 :=
  if keys = [] then
    Exchange.always (.ok 0)
  else
    Exchange.andThen (execute (utf8 "DEL" :: keys)) fun reply =>
      Exchange.always
        (.ok (UInt64.ofInt reply.number))

/- Asks whether the server is there. -/
def ping : Exchange State Unit :=
  Exchange.andThen (execute [utf8 "PING"]) fun reply =>
    Exchange.always
      (if reply.text = utf8 "PONG" then .ok ()
       else .error (.unexpectedPing reply.text))

/- One page of a scan: the next cursor and some keys. -/
def scanPage
    (pattern cursor : Bytes) :
    Exchange State (Bytes × List Bytes) :=
  Exchange.andThen
    (execute
      [utf8 "SCAN", cursor, utf8 "MATCH", pattern,
        utf8 "COUNT", utf8 "100"])
    fun reply =>
      Exchange.always
        (match reply with
         | .array [next, .array keys] =>
             .ok (next.text, keys.map Resp.Value.text)
         | _ => .error .unexpectedScan)

/- The cursor that a scan starts from and ends with. -/
def startCursor : Bytes :=
  utf8 "0"

/-
  Deletes the keys that match a pattern page by page, and
  counts them. The result is `none` if the scan has not come
  to its end after the given number of pages.
-/
def scanDelete
    (pattern : Bytes) :
    (pages : Nat) →
    (cursor : Bytes) →
    (deleted : UInt64) →
    Exchange State (Option UInt64)
  | 0, _, _ => Exchange.always (.ok none)
  | pages + 1, cursor, deleted =>
      Exchange.andThen (scanPage execute pattern cursor)
        fun (next, keys) =>
          Exchange.andThen (delete execute keys) fun count =>
            if next = startCursor then
              Exchange.always (.ok (some (deleted + count)))
            else
              scanDelete pattern pages next (deleted + count)

end Commands

/-
  A number of pages that a scan does not reach: each page
  takes at least one byte of what is still to be read.
-/
def Client.pages (client : Client) : Nat :=
  client.buffer.length + client.network.unread + 1

/- Deletes the keys that match a pattern. -/
def Client.scanDelete
    (pattern : Bytes) : Exchange Client UInt64 :=
  fun client =>
    Exchange.andThen
      (Valkey.scanDelete Client.execute pattern client.pages
        startCursor 0)
      (fun count =>
        Exchange.always
          (match count with
           | some count => .ok count
           | none => .error (.silence client.patience)))
      client

end Valkey

end Rebac
