import Rebac.Bytes

/-
  This file defines the network that a client sees: what its
  next operations will come to, and a record of what the
  client did.

  Operations of a kind come to their outcomes in order. When
  no outcome is left, names cannot be resolved, connections
  are refused, writes succeed and nothing more arrives.

  Key definitions include:
    * `Network`
    * `Network.chunks`
    * `Network.deliver`
    * `Network.resolve`
    * `Network.connect`
    * `Network.write`
    * `Network.close`
    * `Network.unread`
-/

namespace Rebac

------------------------------------------------------------
-- Outcomes
------------------------------------------------------------

namespace Network

/-
  What the resolution of a name comes to. One that is late
  has its answer, if any, only after its command was given
  up and `delay` more commands have begun and ended.
-/
inductive Resolution where
  | found (address : Bytes)
  | unknown
  | unanswered
  | late (delay : Nat) (answer : Option Bytes)
  deriving DecidableEq, Repr

/- What an attempt to connect comes to. -/
inductive Connecting where
  | established
  | refused
  | unanswered
  deriving DecidableEq, Repr

/- What a write comes to. -/
inductive Writing where
  | sent
  | broken
  deriving DecidableEq, Repr

/- What a read comes to. -/
inductive Arrival where
  | bytes (chunk : Bytes)
  | ended
  | reset
  | silence
  deriving DecidableEq, Repr

/- What a client did that others can see. -/
inductive Event where
  | resolve (host : Bytes) (port : Nat)
  | connect (address : Bytes)
  | close
  deriving DecidableEq, Repr

end Network

/-
  The outcomes that are still to come, and the events and
  payloads so far, the latest last.
-/
structure Network where
  resolutions : List Network.Resolution := []
  connections : List Network.Connecting := []
  writings : List Network.Writing := []
  arrivals : List Network.Arrival := []
  events : List Network.Event := []
  sent : List Bytes := []
  deriving Repr

namespace Network

------------------------------------------------------------
-- Deliveries
------------------------------------------------------------

/- The most bytes that one read takes. -/
def chunkSize : Nat :=
  4096

/- The parts of a text that are read one by one. -/
def chunks (text : Bytes) : List Bytes :=
  if text = [] then
    []
  else
    text.take chunkSize :: chunks (text.drop chunkSize)
termination_by text.length
decreasing_by
  have hLength : text.length ≠ 0 := by
    simpa using ‹text ≠ []›
  simp only [List.length_drop, chunkSize]
  omega

/- A text that will arrive after all that is to come. -/
def deliver (network : Network) (text : Bytes) : Network :=
  { network with
    arrivals :=
      network.arrivals ++ (chunks text).map .bytes }

/- The bytes that are still to arrive. -/
def unread (network : Network) : Nat :=
  network.arrivals.foldr
    (fun arrival count =>
      match arrival with
      | .bytes chunk => chunk.length + count
      | _ => count)
    0

------------------------------------------------------------
-- Operations
------------------------------------------------------------

/- Adds an event to the record. -/
def record (network : Network) (event : Event) : Network :=
  { network with events := network.events ++ [event] }

/- Looks up the address of a host. -/
def resolve
    (network : Network)
    (host : Bytes)
    (port : Nat) : Resolution × Network :=
  let network := network.record (.resolve host port)
  match network.resolutions with
  | [] => (.unknown, network)
  | outcome :: others =>
      (outcome, { network with resolutions := others })

/- Connects to an address. -/
def connect
    (network : Network)
    (address : Bytes) : Connecting × Network :=
  let network := network.record (.connect address)
  match network.connections with
  | [] => (.refused, network)
  | outcome :: others =>
      (outcome, { network with connections := others })

/- Writes a payload, which is sent as a whole or not at all. -/
def write
    (network : Network)
    (payload : Bytes) : Writing × Network :=
  let outcome := network.writings.headD .sent
  let network :=
    { network with writings := network.writings.tail }
  match outcome with
  | .sent =>
      (.sent, { network with sent := network.sent ++ [payload] })
  | .broken => (.broken, network)

/- Closes the connection. -/
def close (network : Network) : Network :=
  network.record .close

end Network

end Rebac
