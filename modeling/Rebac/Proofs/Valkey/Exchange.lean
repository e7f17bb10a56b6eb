import Rebac.Valkey.Client

/-
  This file proves that what is true of executing one
  command line is true of all commands that are built on it.

  Two exchanges are alike if they take related states to
  related states and have the same result on the way. The
  commands of a client do nothing but execute command lines,
  so they are alike wherever their executors are.

  Key definitions include:
    * `Valkey.Exchange.Alike`
    * `Valkey.Client.Operation`
    * `Valkey.Client.perform`
    * `Valkey.Client.run`

  Key theorems include:
    * `Valkey.Exchange.Alike.andThen`
    * `Valkey.alike_scanDelete`
-/

namespace Rebac

namespace Valkey

------------------------------------------------------------
-- Exchanges
------------------------------------------------------------

namespace Exchange

variable {State Other First Result : Type}
variable {Related : State → Other → Prop}

/-
  Exchanges are alike if from related states they have the
  same outcome and lead to related states.
-/
def Alike
    (Related : State → Other → Prop)
    (here : Exchange State Result)
    (there : Exchange Other Result) : Prop :=
  ∀ state other, Related state other →
    (here state).1 = (there other).1 ∧
      Related (here state).2 (there other).2

theorem alike_always (outcome : Except Failure Result) :
    Alike Related (always outcome) (always outcome) :=
  fun _ _ hRelated => ⟨rfl, hRelated⟩

theorem Alike.andThen
    {first : Exchange State First}
    {other : Exchange Other First}
    {next : First → Exchange State Result}
    {following : First → Exchange Other Result}
    (hFirst : Alike Related first other)
    (hNext : ∀ result,
      Alike Related (next result) (following result)) :
    Alike Related (first.andThen next)
      (other.andThen following) := by
  intro here there hRelated
  have hMiddle := hFirst here there hRelated
  unfold Exchange.andThen
  revert hMiddle
  rcases first here with ⟨outcome, middle⟩
  rcases other there with ⟨outcome', middle'⟩
  rintro ⟨rfl, hMiddle⟩
  cases outcome with
  | error failure => exact ⟨rfl, hMiddle⟩
  | ok result => exact hNext result middle middle' hMiddle

/- What is only made of a result does not change a state. -/
theorem andThen_always_snd
    (first : Exchange State First)
    (outcome : First → Except Failure Result)
    (state : State) :
    (first.andThen (fun result => always (outcome result))
      state).2 = (first state).2 := by
  unfold Exchange.andThen
  rcases first state with ⟨_ | result, after⟩ <;> rfl

/- Where there is a result, both parts had one. -/
theorem ok_of_andThen
    {first : Exchange State First}
    {next : First → Exchange State Result}
    {state after : State}
    {result : Result}
    (hRun : first.andThen next state = (.ok result, after)) :
    ∃ found middle,
      first state = (.ok found, middle) ∧
        next found middle = (.ok result, after) := by
  unfold Exchange.andThen at hRun
  rcases hFirst : first state with ⟨_ | found, middle⟩
  · rw [hFirst] at hRun
    cases hRun
  · rw [hFirst] at hRun
    exact ⟨found, middle, rfl, hRun⟩

end Exchange

------------------------------------------------------------
-- Commands
------------------------------------------------------------

section Commands

open Exchange

variable {State Other : Type}
variable {Related : State → Other → Prop}
variable {execute : Executor State}
variable {another : Executor Other}
variable (hExecute : ∀ arguments,
  Alike Related (execute arguments) (another arguments))

include hExecute

theorem alike_get (key : Bytes) :
    Alike Related (get execute key) (get another key) :=
  (hExecute _).andThen fun _ => alike_always _

theorem alike_setex
    (key : Bytes)
    (seconds : Nat)
    (value : Bytes) :
    Alike Related (setex execute key seconds value)
      (setex another key seconds value) :=
  (hExecute _).andThen fun _ => alike_always _

theorem alike_delete (keys : List Bytes) :
    Alike Related (delete execute keys) (delete another keys) := by
  unfold delete
  by_cases hKeys : keys = []
  · rw [if_pos hKeys, if_pos hKeys]
    exact alike_always _
  · rw [if_neg hKeys, if_neg hKeys]
    exact (hExecute _).andThen fun _ => alike_always _

theorem alike_ping :
    Alike Related (ping execute) (ping another) :=
  (hExecute _).andThen fun _ => alike_always _

theorem alike_scanPage (pattern cursor : Bytes) :
    Alike Related (scanPage execute pattern cursor)
      (scanPage another pattern cursor) :=
  (hExecute _).andThen fun _ => alike_always _

/- A scan goes from page to page on both sides. -/
theorem alike_scanDelete
    (pattern : Bytes)
    (pages : Nat)
    (cursor : Bytes)
    (deleted : UInt64) :
    Alike Related
      (scanDelete execute pattern pages cursor deleted)
      (scanDelete another pattern pages cursor deleted) := by
  induction pages generalizing cursor deleted with
  | zero => exact alike_always _
  | succ pages ih =>
      unfold scanDelete
      apply (alike_scanPage hExecute pattern cursor).andThen
      intro page
      apply (alike_delete hExecute page.2).andThen
      intro count
      by_cases hLast : page.1 = startCursor
      · rw [if_pos hLast, if_pos hLast]
        exact alike_always _
      · rw [if_neg hLast, if_neg hLast]
        exact ih page.1 (deleted + count)

end Commands

------------------------------------------------------------
-- Operations
------------------------------------------------------------

namespace Client

/- What can be asked of a client. -/
inductive Operation where
  | get (key : Bytes)
  | setex (key : Bytes) (seconds : Nat) (value : Bytes)
  | delete (keys : List Bytes)
  | scanDelete (pattern : Bytes)
  | ping
  | execute (arguments : List Bytes)
  deriving DecidableEq, Repr

/- The client after an operation. -/
def perform
    (operation : Operation)
    (client : Client) : Client :=
  match operation with
  | .get key => (get execute key client).2
  | .setex key seconds value =>
      (setex execute key seconds value client).2
  | .delete keys => (delete execute keys client).2
  | .scanDelete pattern => (scanDelete pattern client).2
  | .ping => (ping execute client).2
  | .execute arguments => (execute arguments client).2

theorem perform_scanDelete
    (pattern : Bytes)
    (client : Client) :
    client.perform (.scanDelete pattern) =
      (Valkey.scanDelete execute pattern client.pages
        startCursor 0 client).2 :=
  Exchange.andThen_always_snd _ _ client

end Client

end Valkey

------------------------------------------------------------
-- Runs
------------------------------------------------------------

/- The outcomes of another script come after all others. -/
def Network.extend (network more : Network) : Network :=
  { network with
    resolutions := network.resolutions ++ more.resolutions
    connections := network.connections ++ more.connections
    writings := network.writings ++ more.writings
    arrivals := network.arrivals ++ more.arrivals }

namespace Valkey

namespace Client

/- A client whose network has more to come. -/
def extend (client : Client) (more : Network) : Client :=
  { client with network := client.network.extend more }

/-
  One operation after the other. More is made to come from
  the network before each of them.
-/
def run :
    List (Network × Operation) → Client → Client
  | [], client => client
  | (more, operation) :: others, client =>
      run others ((client.extend more).perform operation)

end Client

end Valkey

end Rebac
