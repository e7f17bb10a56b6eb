import Rebac.Proofs.Check.Visible
import Rebac.Proofs.Store.Snapshot

/-
  This file proves that a request about an earlier snapshot
  is decided as it was when that snapshot was the latest one.

  Key definitions include:
    * `Limits.Suffices`
    * `Store.Remembers`

  Key theorems include:
    * `Engine.checkWithin_snapshot`
    * `Engine.boundsAlong_eq`
    * `Engine.check_snapshot`
    * `Store.LeftBy.remembers`
    * `Store.remembers_of_run`
-/

namespace Rebac

------------------------------------------------------------
-- Requests
------------------------------------------------------------

/-
  Whether the time of the limits suffices for what the clock
  shows: there is no end to it, or it is never over.
-/
def Limits.Suffices
    (limits : Limits)
    (course : Clock.Course) : Prop :=
  limits.deadline = 0 ∨
    ∀ look,
      Clock.nanoseconds (course.shows look) <
        Clock.after course.start limits.deadline

namespace Engine

open Tables (Recalls)

variable {now before : Tables}
variable {txid : Int}

/- The users of a snapshot are those of its time. -/
theorem visibleUsers_eq
    (hNow : Recalls txid now before)
    (hBefore : Recalls txid before before)
    (contextual : List TupleKey.Parts) :
    visibleUsers now txid contextual =
      visibleUsers before txid contextual := by
  funext relation object
  rcases hNow.find
      { relation := some relation
        objectType := some object.type
        objectId := some object.id } with
    ⟨rows, hRows, hFirst⟩
  rcases hBefore.find
      { relation := some relation
        objectType := some object.type
        objectId := some object.id } with
    ⟨others, hOthers, hSecond⟩
  rw [hFirst] at hSecond
  have hUsers :=
    congrArg (List.map fun tuple => tuple.parts.user)
      (Except.ok.inj hSecond)
  rw [List.map_map, List.map_map] at hUsers
  unfold visibleUsers Tables.tuplesOn
  rw [hRows, hOthers]
  exact congrArg (fun users => some (users ++ _)) hUsers

/-
  Within the same limits, a request about a snapshot comes to
  the same as one about the latest snapshot at its time.
-/
theorem checkWithin_snapshot
    (hNow : Recalls txid now before)
    (hBefore : Recalls txid before before)
    (hLast : before.lastTxid = .ok txid)
    (engine : Engine)
    (bounds : Bounds)
    (request : Request) :
    engine.checkWithin now bounds
        { request with txid := some txid } =
      engine.checkWithin before bounds
        { request with txid := none } := by
  have hSnapshot :
      snapshot now { request with txid := some txid } =
        snapshot before { request with txid := none } := by
    unfold snapshot
    rw [hLast]
  have hUnderstand :
      engine.understand now { request with txid := some txid } =
        engine.understand before
          { request with txid := none } := by
    unfold understand
    rw [hSnapshot]
  unfold checkWithin
  rw [hUnderstand]
  cases hAsked :
      engine.understand before { request with txid := none } with
  | error abort => rfl
  | ok question =>
      have hTxid : question.txid = txid := by
        have hAsksAbout := (understood_of_understand hAsked).txid
        unfold snapshot at hAsksAbout
        rw [hLast] at hAsksAbout
        exact (Except.ok.inj hAsksAbout).symm
      have hScene :
          scene now bounds question =
            scene before bounds question := by
        unfold scene
        rw [hTxid, visibleUsers_eq hNow hBefore]
      simp only [answer, hScene]

/- If the time suffices, no look at the clock is too late. -/
theorem boundsAlong_eq
    {engine : Engine}
    {course : Clock.Course}
    {request : Request}
    (hSuffices : engine.limits.Suffices course)
    (hDeadline : request.deadline = none) :
    engine.boundsAlong course request =
      { maxDepth := engine.limits.maxDepth
        maxExpansions := engine.limits.maxExpansions
        expired := fun _ => false } := by
  unfold boundsAlong expired
  rw [hDeadline]
  congr 1
  funext look
  rw [Bool.and_eq_false_iff, decide_eq_false_iff_not,
    decide_eq_false_iff_not]
  rcases hSuffices with hNone | hBefore
  · exact .inl (hNone ▸ Nat.lt_irrefl 0)
  · exact .inr (Int.not_le.mpr (hBefore look))

/- Without a deadline, no time is too late. -/
theorem boundsAt_eq
    {engine : Engine}
    {request : Request}
    (hLimits : engine.limits.deadline = 0)
    (hDeadline : request.deadline = none)
    (time : Int) :
    engine.boundsAt time request =
      { maxDepth := engine.limits.maxDepth
        maxExpansions := engine.limits.maxExpansions
        expired := fun _ => false } :=
  boundsAlong_eq (.inl hLimits) hDeadline

/- Without a deadline, it does not matter when it is decided. -/
theorem check_snapshot
    (hNow : Recalls txid now before)
    (hBefore : Recalls txid before before)
    (hLast : before.lastTxid = .ok txid)
    {engine : Engine}
    {request : Request}
    (hLimits : engine.limits.deadline = 0)
    (hDeadline : request.deadline = none)
    (time other : Int) :
    engine.check now time { request with txid := some txid } =
      engine.check before other
        { request with txid := none } := by
  have hBounds :
      engine.boundsAt time { request with txid := some txid } =
        engine.boundsAt other
          { request with txid := none } :=
    (boundsAt_eq hLimits hDeadline time).trans
      (boundsAt_eq hLimits hDeadline other).symm
  unfold check
  rw [hBounds]
  exact checkWithin_snapshot hNow hBefore hLast engine _ request

end Engine

------------------------------------------------------------
-- Histories
------------------------------------------------------------

namespace Store

open Tables (Recalls)

/-
  What is looked up in the snapshot at a transaction, or is
  decided about it, is what was looked up or decided when it
  was the latest one.
-/
structure Remembers (txid : Int) (now before : Store) : Prop where
  reads : Recalls txid now.tables before.tables
  checks : ∀ (engine : Engine) (request : Request),
    engine.limits.deadline = 0 → request.deadline = none →
      ∀ time other,
        engine.check now.tables time
            { request with txid := some txid } =
          engine.check before.tables other
            { request with txid := none }

variable {start : Store}
variable {txid : Int}
variable {earlier : List Event}

/- A store remembers a batch if the snapshot at it is kept. -/
theorem LeftBy.remembers
    {now : Store}
    (hBlank : start.Blank)
    (hLeft : LeftBy start txid earlier)
    (hNow : now.tables.missing = [])
    (hTuples :
      now.tables.tuplesAt txid =
        (start.run earlier).tables.tuples) :
    Remembers txid now (start.run earlier) := by
  have hSteady := ((Reachable.blank hBlank).run earlier).steady
  have hLast : (start.run earlier).tables.last = txid :=
    hLeft.last hBlank
  have hAtLast :
      (start.run earlier).tables.tuplesAt txid =
        (start.run earlier).tables.tuples := by
    rw [← hLast]
    exact hSteady.timely.tuplesAt_last
  have hRead : (start.run earlier).tables.lastTxid = .ok txid := by
    rw [Tables.lastTxid_eq hSteady.missing, hLast]
  have hReads :=
    Tables.recalls_of_tuplesAt hTuples hNow hSteady.missing
  have hItself :=
    Tables.recalls_of_tuplesAt hAtLast hSteady.missing
      hSteady.missing
  refine ⟨hReads, ?_⟩
  intro engine request hLimits hDeadline time other
  exact Engine.check_snapshot hReads hItself hRead hLimits
    hDeadline time other

/-
  Every transaction up to the last one was that of a batch,
  and the store remembers what that batch left. Whatever
  happens later does not matter, as long as the numbers of
  transactions are not used up.
-/
theorem remembers_of_run
    (hBlank : start.Blank)
    (txid : Int) :
    (∀ events,
      0 ≤ txid → txid ≤ (start.run events).tables.last →
        ∃ earlier later,
          events = earlier ++ later ∧
            LeftBy start txid earlier ∧
              Remembers txid (start.run events)
                (start.run earlier)) ∧
      (txid < Numeral.largestInt64 →
        ∀ earlier later, LeftBy start txid earlier →
          Remembers txid (start.run (earlier ++ later))
            (start.run earlier)) := by
  constructor
  · intro events hFirst hLast
    rcases exists_leftBy hBlank events hFirst hLast with
      ⟨earlier, later, hSplit, hLeft, hTuples⟩
    have hNow := ((Reachable.blank hBlank).run events).steady
    refine ⟨earlier, later, hSplit, hLeft, ?_⟩
    exact hLeft.remembers hBlank hNow.missing hTuples
  · intro hRoom earlier later hLeft
    have hSteady :=
      ((Reachable.blank hBlank).run earlier).steady
    have hNow :=
      ((Reachable.blank hBlank).run (earlier ++ later)).steady
    have hLast := hLeft.last hBlank
    apply hLeft.remembers hBlank hNow.missing
    rw [run_append, tuplesAt_run later hSteady
      (Int.le_of_eq hLast.symm) hRoom, ← hLast]
    exact hSteady.timely.tuplesAt_last

end Store

------------------------------------------------------------
-- An Example
------------------------------------------------------------

namespace Sharing

/- The user's tuple is written and, later on, deleted. -/
def first : List Store.Event :=
  [.write 1000 [alice, alice] []]

def later : List Store.Event :=
  [.write 2000 [team] [alice]]

/- Whether the user may view the document. -/
def question : Request :=
  { key := { alice with relation := utf8 "viewer" } }

theorem first_leftBy : Store.LeftBy store 1 first := by
  have hReceipt :
      ((Store.write 1000 [alice, alice] []).run
        (store.run [])).1 = .ok ⟨1, 1, 0⟩ := by
    decide +kernel
  exact .batch (Store.run_write hReceipt)

/-
  The user was allowed to view the document then, and still
  is in that snapshot, but not any more.
-/
theorem first_remembered :
    store.Blank ∧
      0 ≤ (1 : Int) ∧
      1 ≤ (store.run (first ++ later)).tables.last ∧
      Store.LeftBy store 1 first ∧
      Store.Remembers 1 (store.run (first ++ later))
        (store.run first) ∧
      (Documents.engine.check (store.run (first ++ later)).tables
        3000 { question with txid := some 1 }).decision =
          .allowed ∧
      (Documents.engine.check (store.run (first ++ later)).tables
        3000 question).decision =
          .denied := by
  rcases Store.remembers_of_run store_blank 1 with
    ⟨_, hLater⟩
  have hRemembers :=
    hLater (by decide) first later first_leftBy
  have hSame :=
    hRemembers.checks Documents.engine question rfl rfl 3000 1000
  refine ⟨store_blank, by decide, by decide +kernel,
    first_leftBy, hRemembers, ?_, by decide +kernel⟩
  rw [hSame]
  decide +kernel

end Sharing

end Rebac
