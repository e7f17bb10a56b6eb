import Mathlib.Algebra.Group.Nat.Defs
import Rebac.Proofs.Valkey.Server
import Rebac.Proofs.Valkey.Recovery
import Rebac.Proofs.Cache.Glob

/-
  This file proves that a deletion by a pattern leaves no key
  behind.

  Keys are deleted while they are being listed. A key that
  had survived would have been there all the time. So it was
  on one of the pages, and it would not have survived that
  page.

  Key definitions include:
    * `Valkey.Server.Turns`
    * `Valkey.Server.Swept`
    * `Valkey.Server.twoPages`

  Key theorems include:
    * `Valkey.Server.Session.of_page`
    * `Valkey.Server.Swept.of_scans`
    * `Valkey.swept_of_session`
    * `Valkey.Server.lawful_twoPages`
-/

namespace Rebac

namespace Valkey

namespace Server

variable {State : Type}
variable {server : Server State}
variable {pattern cursor : Bytes}
variable {before after : State}
variable {log others : List Exchanged}
variable {removed : Finset Bytes}

------------------------------------------------------------
-- Pages
------------------------------------------------------------

/-
  What becomes of a server as one page of keys is asked for
  and these keys are deleted.
-/
structure Turns
    (server : Server State)
    (pattern cursor next : Bytes)
    (keys : List Bytes)
    (outcome : Except Failure UInt64)
    (before : State)
    (removed : Finset Bytes)
    (after : State) : Prop where
  left : server.keys after ⊆ server.keys before
  held : removed ⊆ server.keys before
  gone : Disjoint removed (server.keys after)
  stands : ∀ key ∈ removed, server.Stands pattern key
  counted : ∀ count, outcome = .ok count →
    count = UInt64.ofNat removed.card ∧
      ∀ key ∈ keys, key ∉ server.keys after
  passes : ∀ key ∈ server.keys after,
    ∃ asked served,
      server.Keeps key before asked ∧
        key ∈ server.keys asked ∧
        server.Replies (scanCommand pattern cursor) asked
          (pageReply next keys) served ∧
        server.Keeps key served after

/- A page that was read is the one that the server gave. -/
theorem Lawful.of_readPage
    (hLawful : server.Lawful)
    {next : Bytes}
    {keys : List Bytes}
    {reply : Resp.Value}
    (hReplies :
      server.Replies (scanCommand pattern cursor) before reply
        after)
    (hPage : readPage reply = .ok (next, keys)) :
    reply = pageReply next keys ∧
      ∀ key ∈ keys, server.Stands pattern key := by
  rcases hLawful.scan hReplies with
    ⟨given, page, rfl, hStands, _⟩
  rw [readPage_pageReply] at hPage
  cases hPage
  exact ⟨rfl, hStands⟩

theorem Session.of_page
    (hLawful : server.Lawful)
    {next : Bytes}
    {keys : List Bytes}
    {reply : Resp.Value}
    {deletion : List Exchanged}
    {outcome : Except Failure UInt64}
    (hPage : readPage reply = .ok (next, keys))
    (hDeletes : Deletes keys deletion outcome)
    (hSession : server.Session before
      (⟨scanCommand pattern cursor, .ok reply⟩ ::
        (deletion ++ log))
      removed after) :
    ∃ early late middle,
      removed = early ∪ late ∧
        server.Turns pattern cursor next keys outcome before early
          middle ∧
        server.Session middle log late after := by
  rcases hSession.of_scan hLawful with
    ⟨asked, served, hAsked, hSame, hReplies, hServed⟩
  rcases hLawful.of_readPage (hReplies reply rfl) hPage with
    ⟨rfl, hStands⟩
  rcases hServed.of_deletes hLawful hDeletes with
    ⟨early, late, middle, hRemoved, hClears, hLater, hCount⟩
  have hHeld : server.keys served ⊆ server.keys before :=
    hSame.trans_subset hAsked.subset
  refine ⟨early, late, middle, hRemoved, ?_, hLater⟩
  constructor
  case left => exact hClears.shrinks.subset.trans hHeld
  case held => exact hClears.held.trans hHeld
  case gone => exact hClears.gone
  case counted => exact hCount
  case stands =>
    intro key hKey
    exact hStands key (List.mem_toFinset.mp (hClears.listed hKey))
  case passes =>
    intro key hKey
    rcases hClears.shrinks key hKey with ⟨hThere, hStays⟩
    rw [hSame] at hThere
    exact ⟨asked, served, (hAsked key hThere).2, hThere,
      hReplies _ rfl, hStays⟩

------------------------------------------------------------
-- Deletions by a Pattern
------------------------------------------------------------

/-
  What becomes of a server as keys are deleted from a cursor
  on. If there is a count, it counts the keys that were
  removed, and a key that is left was on none of the pages.
-/
structure Swept
    (server : Server State)
    (pattern cursor : Bytes)
    (deleted : UInt64)
    (log : List Exchanged)
    (outcome : Except Failure (Option UInt64))
    (before : State)
    (removed : Finset Bytes)
    (after : State) : Prop where
  left : server.keys after ⊆ server.keys before
  held : removed ⊆ server.keys before
  stands : ∀ key ∈ removed, server.Stands pattern key
  failed : ∀ failure, outcome = .error failure →
    ∃ entry ∈ log, entry.Failed
  counted : ∀ count, outcome = .ok (some count) →
    count = deleted + UInt64.ofNat removed.card
  missed : ∀ count, outcome = .ok (some count) →
    ∀ key ∈ server.keys after,
      ∃ reported,
        server.Iteration pattern key cursor before reported ∧
          key ∉ reported

/- Where no page is read, nothing is removed. -/
theorem Swept.of_unread
    (hLawful : server.Lawful)
    {deleted : UInt64}
    {outcome : Except Failure Resp.Value}
    {failure : Failure}
    (hPage : outcome.bind readPage = .error failure)
    (hSession : server.Session before
      [⟨scanCommand pattern cursor, outcome⟩] removed after) :
    server.Swept pattern cursor deleted
      [⟨scanCommand pattern cursor, outcome⟩] (.error failure)
      before removed after := by
  rcases hSession.of_scan hLawful with
    ⟨asked, served, hAsked, hSame, hReplies, hServed⟩
  rcases hServed.of_nil hLawful with ⟨rfl, hRest⟩
  constructor
  case left =>
    exact hRest.trans (hSame.trans_subset hAsked.subset)
  case held => exact Finset.empty_subset _
  case stands => exact nofun
  case counted => exact nofun
  case missed => exact nofun
  case failed =>
    intro _ _
    refine ⟨_, List.mem_singleton_self _, ?_⟩
    cases outcome with
    | error failure => exact ⟨failure, rfl⟩
    | ok reply =>
        -- What the server gives is a page and can be read.
        rcases hLawful.scan (hReplies reply rfl) with
          ⟨next, page, rfl, _⟩
        change readPage (pageReply next page) = _ at hPage
        rw [readPage_pageReply] at hPage
        cases hPage

/- Where the keys of a page stay, a command has failed. -/
theorem Swept.of_undeleted
    (hLawful : server.Lawful)
    {deleted : UInt64}
    {next : Bytes}
    {keys : List Bytes}
    {reply : Resp.Value}
    {deletion : List Exchanged}
    {failure : Failure}
    (hPage : readPage reply = .ok (next, keys))
    (hDeletes : Deletes keys deletion (.error failure))
    (hSession : server.Session before
      (⟨scanCommand pattern cursor, .ok reply⟩ :: deletion)
      removed after) :
    server.Swept pattern cursor deleted
      (⟨scanCommand pattern cursor, .ok reply⟩ :: deletion)
      (.error failure) before removed after := by
  rw [← List.append_nil deletion] at hSession
  rcases hSession.of_page hLawful hPage hDeletes with
    ⟨early, late, middle, rfl, hTurns, hLater⟩
  rcases hLater.of_nil hLawful with ⟨rfl, hRest⟩
  rw [Finset.union_empty]
  constructor
  case left => exact hRest.trans hTurns.left
  case held => exact hTurns.held
  case stands => exact hTurns.stands
  case counted => exact nofun
  case missed => exact nofun
  case failed =>
    intro _ _
    rcases hDeletes.failed_of_error with
      ⟨entry, hEntry, hFailed⟩
    exact ⟨entry, List.mem_cons_of_mem _ hEntry, hFailed⟩

/- Behind the last page, an iteration is over. -/
theorem Swept.of_last
    (hLawful : server.Lawful)
    {deleted count : UInt64}
    {keys : List Bytes}
    {reply : Resp.Value}
    {deletion : List Exchanged}
    (hPage : readPage reply = .ok (startCursor, keys))
    (hDeletes : Deletes keys deletion (.ok count))
    (hSession : server.Session before
      (⟨scanCommand pattern cursor, .ok reply⟩ :: deletion)
      removed after) :
    server.Swept pattern cursor deleted
      (⟨scanCommand pattern cursor, .ok reply⟩ :: deletion)
      (.ok (some (deleted + count))) before removed after := by
  rw [← List.append_nil deletion] at hSession
  rcases hSession.of_page hLawful hPage hDeletes with
    ⟨early, late, middle, rfl, hTurns, hLater⟩
  rcases hTurns.counted count rfl with ⟨rfl, hNone⟩
  rcases hLater.of_nil hLawful with ⟨rfl, hRest⟩
  rw [Finset.union_empty]
  constructor
  case left => exact hRest.trans hTurns.left
  case held => exact hTurns.held
  case stands => exact hTurns.stands
  case failed => exact nofun
  case counted =>
    rintro _ ⟨⟩
    rfl
  case missed =>
    intro _ _ key hKey
    have hMiddle := hRest hKey
    rcases hTurns.passes key hMiddle with
      ⟨asked, served, hKeeps, hHeld, hReplies, _⟩
    exact ⟨keys, .last hKeeps hHeld hReplies,
      fun hListed => hNone key hListed hMiddle⟩

/- An iteration goes from page to page. -/
theorem Swept.of_more
    (hLawful : server.Lawful)
    {deleted count : UInt64}
    {next : Bytes}
    {keys : List Bytes}
    {reply : Resp.Value}
    {deletion : List Exchanged}
    {outcome : Except Failure (Option UInt64)}
    (hPage : readPage reply = .ok (next, keys))
    (hNext : next ≠ startCursor)
    (hDeletes : Deletes keys deletion (.ok count))
    (hSession : server.Session before
      (⟨scanCommand pattern cursor, .ok reply⟩ ::
        (deletion ++ others))
      removed after)
    (hOthers : ∀ {middle late},
      server.Session middle others late after →
        server.Swept pattern next (deleted + count) others outcome
          middle late after) :
    server.Swept pattern cursor deleted
      (⟨scanCommand pattern cursor, .ok reply⟩ ::
        (deletion ++ others))
      outcome before removed after := by
  rcases hSession.of_page hLawful hPage hDeletes with
    ⟨early, late, middle, rfl, hTurns, hLater⟩
  rcases hTurns.counted count rfl with ⟨rfl, hNone⟩
  have hSwept := hOthers hLater
  constructor
  case left => exact hSwept.left.trans hTurns.left
  case held =>
    exact Finset.union_subset hTurns.held
      (hSwept.held.trans hTurns.left)
  case stands =>
    intro key hKey
    rcases Finset.mem_union.mp hKey with hEarly | hLate
    · exact hTurns.stands key hEarly
    · exact hSwept.stands key hLate
  case failed =>
    intro failure hFailure
    rcases hSwept.failed failure hFailure with
      ⟨entry, hEntry, hFailed⟩
    exact ⟨entry,
      List.mem_cons_of_mem _ (List.mem_append_right _ hEntry),
      hFailed⟩
  case counted =>
    intro total hTotal
    -- No key is removed twice, as it has to be there.
    have hApart : Disjoint early late :=
      hTurns.gone.mono_right hSwept.held
    rw [hSwept.counted total hTotal,
      Finset.card_union_of_disjoint hApart, UInt64.ofNat_add,
      UInt64.add_assoc]
  case missed =>
    intro total hTotal key hKey
    have hMiddle := hSwept.left hKey
    rcases hSwept.missed total hTotal key hKey with
      ⟨reported, hIteration, hMissed⟩
    rcases hTurns.passes key hMiddle with
      ⟨asked, served, hKeeps, hHeld, hReplies, hStays⟩
    refine ⟨keys ++ reported,
      .more hKeeps hHeld hReplies hNext
        (hIteration.behind hStays), ?_⟩
    rw [List.mem_append]
    rintro (hListed | hReported)
    · exact hNone key hListed hMiddle
    · exact hMissed hReported

/- Deletions sweep the server, page by page. -/
theorem Swept.of_scans
    (hLawful : server.Lawful)
    {deleted : UInt64}
    {outcome : Except Failure (Option UInt64)}
    (hScans : Scans pattern cursor deleted log outcome)
    (hEnds : outcome ≠ .ok none)
    (hSession : server.Session before log removed after) :
    server.Swept pattern cursor deleted log outcome before removed
      after := by
  induction hScans generalizing before removed with
  | unread hPage => exact .of_unread hLawful hPage hSession
  | undeleted hPage hDeletes =>
      exact .of_undeleted hLawful hPage hDeletes hSession
  | last hPage hDeletes =>
      exact .of_last hLawful hPage hDeletes hSession
  | more hPage hNext hDeletes _ ih =>
      exact .of_more hLawful hPage hNext hDeletes hSession
        (ih hEnds)
  | stopped => exact absurd rfl hEnds

end Server

/-
  As its only client deletes the keys that a pattern stands
  for, a server loses no other key. There is a count unless
  one of the commands fails, and then it counts the keys that
  were removed, and of those that were there at the start and
  that the pattern stands for, none is left.
-/
theorem swept_of_session
    {State : Type}
    {server : Server State}
    {client : Client}
    {pattern : Bytes}
    {before after : State}
    {removed : Finset Bytes}
    (hLawful : server.Lawful)
    (hReachable : client.Reachable)
    (hSession : server.Session before (client.scanLog pattern)
      removed after) :
    (∀ key ∈ removed, server.Stands pattern key) ∧
      ((∃ count, (client.scanDelete pattern).1 = .ok count) ↔
        ∀ entry ∈ client.scanLog pattern, ¬ entry.Failed) ∧
      ∀ count, (client.scanDelete pattern).1 = .ok count →
        count = UInt64.ofNat removed.card ∧
          ((server.keys before).card < 2 ^ 64 →
            count.toNat = removed.card) ∧
          ∀ key ∈ server.keys before,
            server.Stands pattern key →
              key ∉ server.keys after := by
  have hScans :=
    Client.scans_scanDelete hReachable.sound pattern
  generalize (client.scanDelete pattern).1 = outcome at hScans ⊢
  have hEnds : outcome.map some ≠ .ok none := by
    intro hNone
    cases outcome <;> cases hNone
  have hSwept := Server.Swept.of_scans hLawful hScans hEnds hSession
  refine ⟨hSwept.stands, ⟨?_, ?_⟩, ?_⟩
  · rintro ⟨count, rfl⟩ entry hEntry hFailed
    rcases hScans.error_of_failed hEntry hFailed with
      ⟨failure, hFailure⟩
    cases hFailure
  · intro hNone
    cases outcome with
    | ok count => exact ⟨count, rfl⟩
    | error failure =>
        rcases hSwept.failed failure rfl with
          ⟨entry, hEntry, hFailed⟩
        exact absurd hFailed (hNone entry hEntry)
  · rintro count rfl
    have hCount := hSwept.counted count rfl
    rw [UInt64.zero_add] at hCount
    refine ⟨hCount, ?_, ?_⟩
    · intro hFew
      rw [hCount]
      exact UInt64.toNat_ofNat_of_lt'
        (Nat.lt_of_le_of_lt (Finset.card_le_card hSwept.held) hFew)
    · intro key _ hStands hKey
      rcases hSwept.missed count rfl key hKey with
        ⟨reported, hIteration, hMissed⟩
      exact hMissed (hLawful.complete hIteration hStands)

------------------------------------------------------------
-- An Example
------------------------------------------------------------

namespace Server

/- The keys that a page has to have, in some order. -/
def pageKeys
    (early : Bytes → Bool)
    (pattern cursor : Bytes)
    (held : Finset Bytes) : Finset Bytes :=
  held.filter fun key =>
    Glob.Matches .full pattern key ∧
      (early key ↔ cursor = startCursor)

/-
  A server that gives its keys on two pages: some keys for
  the first cursor, and all others for any other cursor. Keys
  may be on a page more than once.
-/
def twoPages (early : Bytes → Bool) : Server (Finset Bytes) where
  keys := id
  Replies arguments before reply after :=
    (∃ pattern cursor next page,
      arguments = scanCommand pattern cursor ∧
        reply = pageReply next page ∧
        (next = startCursor ↔ cursor ≠ startCursor) ∧
        page.toFinset = pageKeys early pattern cursor before ∧
        after = before) ∨
      ∃ keys,
        arguments = deleteCommand keys ∧
          after = before \ keys.toFinset ∧
          reply = .integer (before \ after).card
  Lapses before after := after ⊆ before
  Stands := Glob.Matches .full

theorem scanCommand_ne
    (pattern cursor : Bytes)
    (keys : List Bytes) :
    scanCommand pattern cursor ≠ deleteCommand keys := by
  intro hSame
  exact absurd (List.cons.inj hSame).1 (by decide)

theorem pageReply_inj
    {next other : Bytes}
    {page others : List Bytes}
    (hSame : pageReply next page = pageReply other others) :
    next = other ∧ page = others := by
  have hRead := congrArg readPage hSame
  rw [readPage_pageReply, readPage_pageReply] at hRead
  exact Prod.mk.inj (Except.ok.inj hRead)

theorem twoPages_scan
    {early : Bytes → Bool}
    {pattern cursor : Bytes}
    {before after : Finset Bytes}
    {reply : Resp.Value}
    (hReplies : (twoPages early).Replies
      (scanCommand pattern cursor) before reply after) :
    ∃ next page,
      reply = pageReply next page ∧
        (next = startCursor ↔ cursor ≠ startCursor) ∧
        (∀ key, key ∈ page ↔
          key ∈ before ∧ Glob.Matches .full pattern key ∧
            (early key ↔ cursor = startCursor)) ∧
        after = before := by
  rcases hReplies with
    ⟨_, _, next, page, hCommand, hReply, hNext, hPage, hSame⟩ |
      ⟨keys, hCommand, _⟩
  · simp only [scanCommand, List.cons.injEq, and_true,
      true_and] at hCommand
    rcases hCommand with ⟨rfl, rfl⟩
    refine ⟨next, page, hReply, hNext, ?_, hSame⟩
    intro key
    rw [← List.mem_toFinset, hPage, pageKeys, Finset.mem_filter]
  · exact absurd hCommand (scanCommand_ne pattern cursor keys)

theorem lawful_twoPages (early : Bytes → Bool) :
    (twoPages early).Lawful where
  scan := by
    intro pattern cursor before reply after hReplies
    rcases twoPages_scan hReplies with
      ⟨next, page, hReply, _, hPage, rfl⟩
    exact ⟨next, page, hReply,
      fun key hKey => ((hPage key).mp hKey).2.1, rfl⟩
  delete := by
    intro keys before reply after _ hReplies
    rcases hReplies with
      ⟨pattern, cursor, _, _, hCommand, _⟩ |
        ⟨others, hCommand, hLeft, hReply⟩
    · exact absurd hCommand.symm
        (scanCommand_ne pattern cursor keys)
    · rcases (List.cons.inj hCommand).2 with rfl
      exact ⟨hLeft, hReply⟩
  lapse := id
  complete := by
    intro pattern key state reported hIteration hStands
    cases hIteration with
    | last hKeeps hHeld hPage =>
        rcases twoPages_scan hPage with ⟨next, page, hReply, hNext, _⟩
        rcases pageReply_inj hReply with ⟨rfl, rfl⟩
        exact absurd rfl (hNext.mp rfl)
    | more hKeeps hHeld hPage hNext hOthers =>
        rcases twoPages_scan hPage with
          ⟨_, _, hReply, _, hFirst, _⟩
        rcases pageReply_inj hReply with ⟨rfl, rfl⟩
        by_cases hEarly : early key
        · exact List.mem_append_left _ ((hFirst key).mpr
            ⟨hHeld, hStands, iff_of_true hEarly rfl⟩)
        · apply List.mem_append_right
          cases hOthers with
          | last _ hStill hPage =>
              rcases twoPages_scan hPage with
                ⟨_, _, hReply, _, hSecond, _⟩
              rcases pageReply_inj hReply with ⟨rfl, rfl⟩
              exact (hSecond key).mpr
                ⟨hStill, hStands, iff_of_false hEarly hNext⟩
          | more _ _ hPage hLater =>
              rcases twoPages_scan hPage with
                ⟨_, _, hReply, hCursor, _⟩
              rcases pageReply_inj hReply with ⟨rfl, rfl⟩
              exact absurd (hCursor.mpr hNext) hLater

end Server

namespace Visits

def first : Bytes :=
  utf8 "v:1"

def second : Bytes :=
  utf8 "v:2"

def third : Bytes :=
  utf8 "v:3"

def note : Bytes :=
  utf8 "n"

def visits : Bytes :=
  utf8 "v:*"

/- On the first page, one of two keys is repeated. -/
def replies : Bytes :=
  utf8 "*2\r\n$1\r\n9\r\n" ++
    utf8 "*3\r\n$3\r\nv:1\r\n$3\r\nv:2\r\n$3\r\nv:1\r\n" ++
    utf8 ":2\r\n" ++
    utf8 "*2\r\n$1\r\n0\r\n" ++
    utf8 "*1\r\n$3\r\nv:3\r\n" ++
    utf8 ":1\r\n"

def visitor : Client :=
  Client.hearing replies

def server : Server (Finset Bytes) :=
  .twoPages fun key => key ≠ third

/- What the client sends, and the replies to it. -/
def log : List Exchanged :=
  [⟨scanCommand visits startCursor,
      .ok (pageReply (utf8 "9") [first, second, first])⟩,
    ⟨deleteCommand [first, second, first], .ok (.integer 2)⟩,
    ⟨scanCommand visits (utf8 "9"),
      .ok (pageReply startCursor [third])⟩,
    ⟨deleteCommand [third], .ok (.integer 1)⟩]

theorem scanLog_visitor : visitor.scanLog visits = log := by
  decide +kernel

theorem matches_visits_iff (key : Bytes) :
    Glob.Matches .full visits key ↔ utf8 "v:" <+: key := by
  have hPlain : ∀ byte ∈ utf8 "v:",
      Glob.isSpecial byte = false := by
    decide +kernel
  exact (Glob.rules_matches .full).star_iff hPlain

theorem pageKeys_visits
    (early : Bytes → Bool)
    (cursor : Bytes)
    (held : Finset Bytes) :
    Server.pageKeys early visits cursor held =
      held.filter fun key =>
        utf8 "v:" <+: key ∧ (early key ↔ cursor = startCursor) :=
  Finset.filter_congr fun key _ =>
    and_congr_left' (matches_visits_iff key)

theorem session_log :
    server.Session {first, second, third, note} log
      {first, second, third} {note} := by
  have hRemoved : ({first, second, third} : Finset Bytes) =
      ({first, second, third, note} \
          {first, second, third, note}) ∪
        (({first, second, third, note} \ {third, note}) ∪
          (({third, note} \ {third, note}) ∪
            (({third, note} \ {note}) ∪ ∅))) := by
    decide +kernel
  rw [hRemoved]
  refine .command .refl ?_ (.command .refl ?_
    (.command .refl ?_ (.command .refl ?_ (.done .refl))))
  · exact .inl ⟨_, _, _, _, rfl, rfl, by decide,
      by rw [pageKeys_visits]; decide +kernel, rfl⟩
  · exact .inr ⟨_, rfl, by decide +kernel, rfl⟩
  · exact .inl ⟨_, _, _, _, rfl, rfl, by decide,
      by rw [pageKeys_visits]; decide +kernel, rfl⟩
  · exact .inr ⟨_, rfl, by decide +kernel, rfl⟩

/- All three visits are deleted and counted, and no note is. -/
theorem visits_swept :
    (visitor.scanDelete visits).1 = .ok 3 ∧
      (∀ key ∈ ({first, second, third} : Finset Bytes),
        Glob.Matches .full visits key) ∧
      (3 : UInt64).toNat =
        ({first, second, third} : Finset Bytes).card ∧
      ∀ key ∈ ({first, second, third, note} : Finset Bytes),
        Glob.Matches .full visits key →
          key ∉ ({note} : Finset Bytes) := by
  have hCount : (visitor.scanDelete visits).1 = .ok 3 := by
    decide +kernel
  have hSession : server.Session {first, second, third, note}
      (visitor.scanLog visits) {first, second, third} {note} := by
    rw [scanLog_visitor]
    exact session_log
  rcases swept_of_session (Server.lawful_twoPages _)
      (Client.reachable_hearing replies) hSession with
    ⟨hStands, _, hSwept⟩
  rcases hSwept 3 hCount with ⟨_, hCard, hGone⟩
  exact ⟨hCount, hStands, hCard (by decide +kernel), hGone⟩

end Visits

end Valkey

end Rebac
