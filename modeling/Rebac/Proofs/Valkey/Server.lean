import Rebac.Proofs.Valkey.Scan
import Mathlib.Data.Finset.Card
import Mathlib.Data.Finset.Dedup
import Mathlib.Logic.Relation

/-
  This file defines what is known of a server that keys are
  deleted on, and proves what becomes of it by the commands
  of its only client.

  Nothing is known of the server's state but its keys. They
  may lapse between commands, and it is not known whether a
  command was carried out whose reply was lost. All that is
  known of a listing is what servers promise: a key that is
  there all the time is on one of the pages.

  Key definitions include:
    * `Valkey.Server`
    * `Valkey.Server.Iteration`
    * `Valkey.Server.Lawful`
    * `Valkey.Server.Session`
    * `Valkey.Server.Clears`

  Key theorems include:
    * `Valkey.Server.shrinks_of_rests`
    * `Valkey.Server.Session.of_scan`
    * `Valkey.Server.Session.of_deletes`
-/

namespace Rebac

namespace Valkey

------------------------------------------------------------
-- Servers
------------------------------------------------------------

/-
  A server, told by the keys that it holds in each state, the
  replies that it can give to a command and the states that
  they lead to, what can become of a state without a command,
  and which keys a pattern stands for.
-/
structure Server (State : Type) where
  keys : State → Finset Bytes
  Replies : List Bytes → State → Resp.Value → State → Prop
  Lapses : State → State → Prop
  Stands : Bytes → Bytes → Prop

/- A number that is not negative is converted as it is. -/
theorem ofInt_natCast (number : Nat) :
    UInt64.ofInt (number : Int) = UInt64.ofNat number := by
  have hMod : ((number : Int) % 2 ^ 64).toNat =
      number % 2 ^ 64 := by
    omega
  rw [UInt64.ofInt, hMod]
  exact UInt64.ofNat_mod_size

/- The reply that gives a page of keys. -/
def pageReply (next : Bytes) (page : List Bytes) : Resp.Value :=
  .array [.bulk next, .array (page.map .bulk)]

theorem readPage_pageReply
    (next : Bytes)
    (page : List Bytes) :
    readPage (pageReply next page) = .ok (next, page) := by
  have hTexts : (page.map Resp.Value.bulk).map Resp.Value.text =
      page := by
    rw [List.map_map]
    exact List.map_id page
  change Except.ok (next, _) = _
  rw [hTexts]

namespace Server

variable {State : Type}
variable (server : Server State)

/- What happens between the pages while a key is there. -/
def Keeps (key : Bytes) : State → State → Prop :=
  Relation.ReflTransGen fun before after =>
    (server.Lapses before after ∨
      ∃ keys reply,
        server.Replies (deleteCommand keys) before reply after) ∧
      key ∈ server.keys before ∧ key ∈ server.keys after

/-
  An iteration goes on from a cursor to the last page and
  reports keys. All the time, a key is there.
-/
inductive Iteration (pattern key : Bytes) :
    (cursor : Bytes) → State → (reported : List Bytes) → Prop where
  | last {cursor : Bytes} {before asked after : State}
      {page : List Bytes}
      (hKeeps : server.Keeps key before asked)
      (hHeld : key ∈ server.keys asked)
      (hPage : server.Replies (scanCommand pattern cursor) asked
        (pageReply startCursor page) after) :
      Iteration pattern key cursor before page
  | more {cursor next : Bytes} {before asked after : State}
      {page others : List Bytes}
      (hKeeps : server.Keeps key before asked)
      (hHeld : key ∈ server.keys asked)
      (hPage : server.Replies (scanCommand pattern cursor) asked
        (pageReply next page) after)
      (hNext : next ≠ startCursor)
      (hOthers : Iteration pattern key next after others) :
      Iteration pattern key cursor before (page ++ others)

/-
  What a server promises. Asked for a page, it gives one with
  keys that the pattern stands for, and asked to delete keys,
  it counts those that were there. Keys come only by commands,
  and an iteration misses none that is there all the time.
-/
structure Lawful : Prop where
  scan : ∀ {pattern cursor before reply after},
    server.Replies (scanCommand pattern cursor) before reply
        after →
      ∃ next page, reply = pageReply next page ∧
        (∀ key ∈ page, server.Stands pattern key) ∧
        server.keys after = server.keys before
  delete : ∀ {keys before reply after}, keys ≠ [] →
    server.Replies (deleteCommand keys) before reply after →
      server.keys after = server.keys before \ keys.toFinset ∧
        reply = .integer
          (server.keys before \ server.keys after).card
  lapse : ∀ {before after}, server.Lapses before after →
    server.keys after ⊆ server.keys before
  complete : ∀ {pattern key state reported},
    server.Iteration pattern key startCursor state reported →
      server.Stands pattern key → key ∈ reported

/-
  What becomes of a server by a command of its only client.
  If the command fails, it may or may not have been carried
  out.
-/
def Serves (entry : Exchanged) (before after : State) : Prop :=
  match entry.outcome with
  | .ok reply =>
      server.Replies entry.arguments before reply after
  | .error _ =>
      after = before ∨
        ∃ reply,
          server.Replies entry.arguments before reply after

/-
  What becomes of a server by the commands of its only client,
  and the keys that are removed by them. Others may lapse
  meanwhile.
-/
inductive Session :
    State → List Exchanged → (removed : Finset Bytes) →
      State → Prop where
  | done {before after : State}
      (hRests : Relation.ReflTransGen server.Lapses before after) :
      Session before [] ∅ after
  | command {before asked served after : State}
      {entry : Exchanged} {log : List Exchanged}
      {removed : Finset Bytes}
      (hRests : Relation.ReflTransGen server.Lapses before asked)
      (hServes : server.Serves entry asked served)
      (hLater : Session served log removed after) :
      Session before (entry :: log)
        ((server.keys asked \ server.keys served) ∪ removed)
        after

------------------------------------------------------------
-- Keys That Stay
------------------------------------------------------------

/- Keys that are there after some time were there all the time. -/
def Shrinks (before after : State) : Prop :=
  ∀ key ∈ server.keys after,
    key ∈ server.keys before ∧ server.Keeps key before after

variable {server}
variable {pattern key cursor : Bytes}
variable {before middle after : State}
variable {log others : List Exchanged}
variable {removed : Finset Bytes}

theorem Shrinks.subset
    (hShrinks : server.Shrinks before after) :
    server.keys after ⊆ server.keys before :=
  fun key hKey => (hShrinks key hKey).1

theorem Shrinks.trans
    (hFirst : server.Shrinks before middle)
    (hSecond : server.Shrinks middle after) :
    server.Shrinks before after := by
  intro key hKey
  rcases hSecond key hKey with ⟨hMiddle, hLater⟩
  rcases hFirst key hMiddle with ⟨hBefore, hEarlier⟩
  exact ⟨hBefore, hEarlier.trans hLater⟩

theorem shrinks_of_rests
    (hLawful : server.Lawful)
    (hRests : Relation.ReflTransGen server.Lapses before after) :
    server.Shrinks before after := by
  intro key hKey
  induction hRests using Relation.ReflTransGen.head_induction_on with
  | refl => exact ⟨hKey, .refl⟩
  | head hLapses _ ih =>
      have hHeld := hLawful.lapse hLapses ih.1
      exact ⟨hHeld, ih.2.head ⟨.inl hLapses, hHeld, ih.1⟩⟩

theorem shrinks_of_delete
    (hLawful : server.Lawful)
    {keys : List Bytes}
    {reply : Resp.Value}
    (hKeys : keys ≠ [])
    (hReplies :
      server.Replies (deleteCommand keys) before reply after) :
    server.Shrinks before after := by
  intro key hKey
  have hHeld : key ∈ server.keys before := by
    rw [(hLawful.delete hKeys hReplies).1] at hKey
    exact (Finset.mem_sdiff.mp hKey).1
  exact ⟨hHeld, .single ⟨.inr ⟨keys, reply, hReplies⟩, hHeld, hKey⟩⟩

theorem Iteration.behind
    {reported : List Bytes}
    (hIteration :
      server.Iteration pattern key cursor middle reported)
    (hKeeps : server.Keeps key before middle) :
    server.Iteration pattern key cursor before reported := by
  cases hIteration with
  | last hLater hHeld hPage =>
      exact .last (hKeeps.trans hLater) hHeld hPage
  | more hLater hHeld hPage hNext hOthers =>
      exact .more (hKeeps.trans hLater) hHeld hPage hNext hOthers

------------------------------------------------------------
-- Sessions
------------------------------------------------------------

/- Without a command, nothing is removed and nothing comes. -/
theorem Session.of_nil
    (hLawful : server.Lawful)
    (hSession : server.Session before [] removed after) :
    removed = ∅ ∧ server.keys after ⊆ server.keys before := by
  cases hSession with
  | done hRests =>
      exact ⟨rfl, (shrinks_of_rests hLawful hRests).subset⟩

/- Asking for a page removes nothing, whether or not it comes. -/
theorem Session.of_scan
    (hLawful : server.Lawful)
    {outcome : Except Failure Resp.Value}
    (hSession : server.Session before
      (⟨scanCommand pattern cursor, outcome⟩ :: log) removed
      after) :
    ∃ asked served,
      server.Shrinks before asked ∧
        server.keys served = server.keys asked ∧
        (∀ reply, outcome = .ok reply →
          server.Replies (scanCommand pattern cursor) asked reply
            served) ∧
        server.Session served log removed after := by
  cases hSession with
  | @command _ asked served _ _ _ others hRests hServes hLater =>
      have hSame : server.keys served = server.keys asked := by
        cases outcome with
        | ok reply =>
            rcases hLawful.scan hServes with ⟨_, _, _, _, hSame⟩
            exact hSame
        | error failure =>
            rcases hServes with rfl | ⟨reply, hReplies⟩
            · rfl
            · rcases hLawful.scan hReplies with
                ⟨_, _, _, _, hSame⟩
              exact hSame
      refine ⟨asked, served, shrinks_of_rests hLawful hRests,
        hSame, ?_, ?_⟩
      · rintro reply rfl
        exact hServes
      · rw [hSame, Finset.sdiff_self, Finset.empty_union]
        exact hLater

/- What becomes of a server as given keys are deleted. -/
structure Clears
    (server : Server State)
    (keys : List Bytes)
    (before : State)
    (removed : Finset Bytes)
    (after : State) : Prop where
  shrinks : server.Shrinks before after
  held : removed ⊆ server.keys before
  listed : removed ⊆ keys.toFinset
  gone : Disjoint removed (server.keys after)

theorem clears_nothing (keys : List Bytes) (state : State) :
    server.Clears keys state ∅ state where
  shrinks _ hKey := ⟨hKey, .refl⟩
  held := Finset.empty_subset _
  listed := Finset.empty_subset _
  gone := Finset.disjoint_empty_left _

theorem clears_of_delete
    (hLawful : server.Lawful)
    {keys : List Bytes}
    {reply : Resp.Value}
    (hKeys : keys ≠ [])
    (hReplies :
      server.Replies (deleteCommand keys) before reply after) :
    server.Clears keys before
      (server.keys before \ server.keys after) after where
  shrinks := shrinks_of_delete hLawful hKeys hReplies
  held := Finset.sdiff_subset
  listed := by
    rw [(hLawful.delete hKeys hReplies).1]
    intro key hKey
    simp only [Finset.mem_sdiff, not_and, not_not] at hKey
    exact hKey.2 hKey.1
  gone := Finset.sdiff_disjoint

theorem Clears.behind
    {keys : List Bytes}
    (hClears : server.Clears keys middle removed after)
    (hShrinks : server.Shrinks before middle) :
    server.Clears keys before removed after where
  shrinks := hShrinks.trans hClears.shrinks
  held := hClears.held.trans hShrinks.subset
  listed := hClears.listed
  gone := hClears.gone

/-
  Deleting keys removes none but these. If there is a count,
  it counts those that were removed, and none is left.
-/
theorem Session.of_deletes
    (hLawful : server.Lawful)
    {keys : List Bytes}
    {deletion : List Exchanged}
    {outcome : Except Failure UInt64}
    (hDeletes : Deletes keys deletion outcome)
    (hSession : server.Session before (deletion ++ log) removed
      after) :
    ∃ early late middle,
      removed = early ∪ late ∧
        server.Clears keys before early middle ∧
        server.Session middle log late after ∧
        ∀ count, outcome = .ok count →
          count = UInt64.ofNat early.card ∧
            ∀ key ∈ keys, key ∉ server.keys middle := by
  cases hDeletes with
  | none hKeys =>
      refine ⟨∅, removed, before, (Finset.empty_union _).symm,
        clears_nothing keys before, hSession, ?_⟩
      rintro count ⟨⟩
      rw [hKeys]
      exact ⟨rfl, nofun⟩
  | @sent outcome hKeys =>
      cases hSession with
      | @command _ asked served _ _ _ late hRests hServes
          hLater =>
          have hShrinks := shrinks_of_rests hLawful hRests
          refine ⟨_, late, served, rfl, ?_, hLater, ?_⟩
          · cases outcome with
            | ok reply =>
                exact (clears_of_delete hLawful hKeys
                  hServes).behind hShrinks
            | error failure =>
                rcases hServes with rfl | ⟨reply, hReplies⟩
                · rw [Finset.sdiff_self]
                  exact (clears_nothing keys _).behind hShrinks
                · exact (clears_of_delete hLawful hKeys
                    hReplies).behind hShrinks
          · intro count hCount
            cases outcome with
            | error failure => cases hCount
            | ok reply =>
                cases hCount
                rcases hLawful.delete hKeys hServes with
                  ⟨hLeft, rfl⟩
                refine ⟨ofInt_natCast _, ?_⟩
                intro key hKey hHeld
                rw [hLeft, Finset.mem_sdiff,
                  List.mem_toFinset] at hHeld
                exact hHeld.2 hKey

end Server

end Valkey

end Rebac
