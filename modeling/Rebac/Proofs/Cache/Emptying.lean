import Mathlib.Data.Bool.AllAny
import Rebac.Proofs.Cache.Selection

/-
  This file proves which keys leave the shared cache when all
  decisions are forgotten.

  They are selected by a pattern: what the keys start with,
  and a star behind it. The start is not escaped, so it is a
  pattern as well. It stands for itself, and for nothing else,
  exactly if it contains none of the signs that mean something
  to the server.

  Key definitions include:
    * `Glob.countSingle`
    * `PermissionCache.Empties`

  Key theorems include:
    * `Glob.exists_short_match`
    * `Glob.matches_start_iff`
    * `Glob.exists_other_match`
    * `Glob.stands_for_start_iff`
    * `PermissionCache.emptied_exactly_iff`
-/

namespace Rebac

namespace Glob

variable {dialect : Dialect}
variable {start rest pattern text : Bytes}

------------------------------------------------------------
-- Short Matches
------------------------------------------------------------

/- A piece other than a star stands for a single byte. -/
theorem matchesPieces_single_iff
    {piece : Piece}
    {others : List Piece}
    {byte : UInt8}
    (hSingle : piece ≠ .anyRun) :
    matchesPieces (piece :: others) (byte :: rest) = true ↔
      piece.admits byte = true ∧
        matchesPieces others rest = true := by
  cases piece with
  | anyRun => exact absurd rfl hSingle
  | _ => simp [matchesPieces]

/- The number of pieces that stand for a byte each. -/
def countSingle (pieces : List Piece) : Nat :=
  pieces.countP fun piece => piece ≠ .anyRun

@[simp] theorem countSingle_nil : countSingle [] = 0 := rfl

@[simp] theorem countSingle_anyRun (others : List Piece) :
    countSingle (.anyRun :: others) = countSingle others := by
  simp [countSingle]

theorem countSingle_cons
    {piece : Piece}
    (hSingle : piece ≠ .anyRun)
    (others : List Piece) :
    countSingle (piece :: others) = countSingle others + 1 := by
  simp [countSingle, hSingle]

/-
  If pieces stand for some text, they stand for one in which
  every star stands for nothing.
-/
theorem exists_matchesPieces
    {pieces : List Piece}
    (hText : matchesPieces pieces text = true) :
    ∃ short, matchesPieces pieces short = true ∧
      short.length = countSingle pieces := by
  induction pieces generalizing text with
  | nil => exact ⟨[], by simp [matchesPieces], rfl⟩
  | cons piece others ih =>
      by_cases hRun : piece = .anyRun
      · subst hRun
        rcases matchesPieces_anyRun_iff.mp hText with
          ⟨_, behind, _, hBehind⟩
        rcases ih hBehind with ⟨short, hShort, hLength⟩
        refine ⟨short, ?_, by simpa using hLength⟩
        exact matchesPieces_anyRun_iff.mpr
          ⟨[], short, rfl, hShort⟩
      · cases text with
        | nil => cases piece <;> simp [matchesPieces] at hText hRun
        | cons byte behind =>
            rw [matchesPieces_single_iff hRun] at hText
            rcases ih hText.2 with ⟨short, hShort, hLength⟩
            refine ⟨byte :: short, ?_, ?_⟩
            · rw [matchesPieces_single_iff hRun]
              exact ⟨hText.1, hShort⟩
            · simp [countSingle_cons hRun, hLength]

/- What a pattern goes on with behind a class. -/
def behindClass (text : Bytes) : Bytes :=
  (classRanges (classStart text).2).2

theorem classRanges_suffix (text : Bytes) :
    (classRanges text).2 <:+ text := by
  fun_induction classRanges text with
  | case1 => exact List.suffix_rfl
  | case2 rest => exact List.suffix_cons _ _
  | case3 byte rest ranges behind hRest ih =>
      rw [hRest] at ih
      exact ih.trans ⟨[92, byte], rfl⟩
  | case4 low high rest _ _ ranges behind hRest ih =>
      rw [hRest] at ih
      exact ih.trans ⟨[low, 45, high], rfl⟩
  | case5 byte rest _ _ _ ranges behind hRest ih =>
      rw [hRest] at ih
      exact ih.trans (List.suffix_cons _ _)

theorem classStart_suffix (text : Bytes) :
    (classStart text).2 <:+ text := by
  fun_cases classStart text with
  | case1 rest => exact List.suffix_cons _ _
  | case2 => exact List.suffix_rfl

theorem behindClass_suffix (text : Bytes) :
    behindClass text <:+ text :=
  (classRanges_suffix _).trans (classStart_suffix text)

theorem classRanges_shorter
    (hSome : text ≠ []) :
    (classRanges text).2.length < text.length := by
  fun_cases classRanges text with
  | case1 => exact absurd rfl hSome
  | case2 rest => simp
  | case3 byte rest ranges behind hRest =>
      have hShorter := classRanges_not_longer rest
      simp only [hRest, List.length_cons] at hShorter ⊢
      omega
  | case4 low high rest _ _ ranges behind hRest =>
      have hShorter := classRanges_not_longer rest
      simp only [hRest, List.length_cons] at hShorter ⊢
      omega
  | case5 byte rest _ _ _ ranges behind hRest =>
      have hShorter := classRanges_not_longer rest
      simp only [hRest, List.length_cons] at hShorter ⊢
      omega

/- A class takes a byte at least, if there is one. -/
theorem behindClass_shorter
    (hSome : text ≠ []) :
    (behindClass text).length < text.length := by
  by_cases hNone : (classStart text).2 = []
  · rw [behindClass, hNone]
    exact List.length_pos_iff.mpr hSome
  · have hStart := classStart_not_longer text
    have hRanges := classRanges_shorter hNone
    unfold behindClass
    omega

/- The star at the end of a pattern ends what is left of it. -/
theorem star_suffix_of_suffix
    (hStar : [42] <:+ pattern)
    (hRest : rest <:+ pattern)
    (hSome : rest ≠ []) :
    [42] <:+ rest := by
  apply List.suffix_of_suffix_length_le hStar hRest
  exact List.length_pos_iff.mpr hSome

theorem star_suffix_of_ne
    {byte : UInt8}
    (hStar : [42] <:+ byte :: rest)
    (hOther : byte ≠ 42) :
    [42] <:+ rest := by
  rcases List.suffix_cons_iff.mp hStar with hLast | hMore
  · simp [Ne.symm hOther] at hLast
  · exact hMore

/-
  A pattern that ends with a star has fewer single pieces than
  signs: its last star is no such piece, or part of a longer one.
-/
theorem countSingle_pieces_lt
    (hStar : [42] <:+ pattern) :
    countSingle (pieces dialect pattern) < pattern.length := by
  fun_induction pieces dialect pattern with
  | case1 => simp at hStar
  | case2 rest ih =>
      rw [countSingle_anyRun, List.length_cons]
      by_cases hNone : rest = []
      · simp [hNone, pieces]
      · have hRest := ih
          (star_suffix_of_suffix hStar ⟨[42], rfl⟩ hNone)
        omega
  | case3 byte rest ih =>
      rw [countSingle_cons (by simp), List.length_cons,
        List.length_cons]
      by_cases hNone : rest = []
      · simp [hNone, pieces]
      · have hRest := ih
          (star_suffix_of_suffix hStar ⟨[92, byte], rfl⟩ hNone)
        omega
  | case4 byte rest hOther _ hMark ih =>
      rw [countSingle_cons (by simp), List.length_cons]
      have hRest := ih (star_suffix_of_ne hStar hOther)
      omega
  | case5 byte rest hOther _ _ hBracket start members ih =>
      rw [countSingle_cons (by simp), List.length_cons]
      change countSingle (pieces dialect (behindClass rest)) + 1 <
        rest.length + 1
      have hRest := star_suffix_of_ne hStar hOther
      by_cases hNone : behindClass rest = []
      · have hSome : 0 < rest.length := hRest.length_le
        rw [hNone, pieces, countSingle_nil]
        omega
      · have hBehind := ih
          (star_suffix_of_suffix hRest (behindClass_suffix rest)
            hNone)
        have hShorter := (behindClass_suffix rest).length_le
        exact Nat.succ_lt_succ
          (Nat.lt_of_lt_of_le hBehind hShorter)
  | case6 byte rest hOther _ _ _ ih =>
      rw [countSingle_cons (by simp), List.length_cons]
      have hRest := ih (star_suffix_of_ne hStar hOther)
      omega

/-
  A pattern that ends with a star and stands for some text
  stands for one that is shorter than the pattern.
-/
theorem exists_short_match
    (hStar : [42] <:+ pattern)
    (hText : Matches dialect pattern text) :
    ∃ short, Matches dialect pattern short ∧
      short.length < pattern.length := by
  rcases exists_matchesPieces hText with
    ⟨short, hShort, hLength⟩
  refine ⟨short, hShort, ?_⟩
  rw [hLength]
  exact countSingle_pieces_lt hStar

------------------------------------------------------------
-- Starts
------------------------------------------------------------

/- A star behind a start without signs stands for what has it. -/
theorem matches_start_iff
    (hPlain : ∀ sign ∈ dialect.signs, sign ∉ start) :
    Matches dialect (start ++ [42]) text ↔ start <+: text := by
  induction start generalizing text with
  | nil =>
      have hStar : Matches dialect [42] text :=
        (rules_matches dialect).star_nil
      simp [hStar]
  | cons byte others ih =>
      have hByte : byte ∉ dialect.signs := by
        intro hSign
        exact hPlain byte hSign List.mem_cons_self
      have hOthers : ∀ sign ∈ dialect.signs, sign ∉ others := by
        intro sign hSign hOther
        exact hPlain sign hSign (List.mem_cons_of_mem _ hOther)
      rw [Matches, List.cons_append, pieces_cons hByte,
        matchesPieces_literal_iff]
      constructor
      · rintro ⟨behind, rfl, hBehind⟩
        exact List.cons_prefix_cons.mpr
          ⟨rfl, (ih hOthers).mp hBehind⟩
      · intro hStart
        rcases List.cons_prefix_iff.mp hStart with
          ⟨behind, rfl, hBehind⟩
        exact ⟨behind, rfl, (ih hOthers).mpr hBehind⟩

/- A star also stands for what has something else before it. -/
theorem exists_other_of_star
    (hSelf : Matches dialect (42 :: rest) (42 :: start)) :
    ∃ text, Matches dialect (42 :: rest) text ∧
      ¬ 42 :: start <+: text := by
  rw [Matches, pieces, matchesPieces_anyRun_iff] at hSelf
  rcases hSelf with ⟨run, behind, hText, hBehind⟩
  refine ⟨0 :: 42 :: start, ?_, by simp⟩
  rw [Matches, pieces, matchesPieces_anyRun_iff]
  exact ⟨0 :: run, behind, by rw [hText]; rfl, hBehind⟩

/- A question mark also stands for another byte. -/
theorem exists_other_of_mark
    (hSelf : Matches .full (63 :: rest) (63 :: start)) :
    ∃ text, Matches .full (63 :: rest) text ∧
      ¬ 63 :: start <+: text := by
  have hPieces :
      pieces .full (63 :: rest) = .anyByte :: pieces .full rest := by
    simp [pieces]
  rw [Matches, hPieces, matchesPieces_single_iff (by simp)]
    at hSelf
  refine ⟨0 :: start, ?_, by simp⟩
  rw [Matches, hPieces, matchesPieces_single_iff (by simp)]
  exact ⟨rfl, hSelf.2⟩

/-
  A backslash and the sign behind it stand for one byte, so
  that what is stood for may be shorter than the start.
-/
theorem exists_other_of_backslash
    (hSelf :
      Matches dialect (92 :: (start ++ [42])) (92 :: start)) :
    ∃ text, Matches dialect (92 :: (start ++ [42])) text ∧
      ¬ 92 :: start <+: text := by
  cases start with
  | nil => simp [Matches, pieces, matchesPieces, Piece.admits] at hSelf
  | cons sign others =>
      have hPieces :
          pieces dialect (92 :: (sign :: others ++ [42])) =
            .literal sign :: pieces dialect (others ++ [42]) := by
        simp [pieces]
      rw [Matches, hPieces, matchesPieces_single_iff (by simp)]
        at hSelf
      rcases exists_short_match (List.suffix_append _ _) hSelf.2
        with ⟨short, hShort, hLength⟩
      refine ⟨92 :: short, ?_, fun hStart => ?_⟩
      · rw [Matches, hPieces, matchesPieces_single_iff (by simp)]
        exact ⟨hSelf.1, hShort⟩
      · have hLonger := hStart.length_le
        simp at hLength hLonger
        omega

/- The same holds of a class. Without an end it takes the star. -/
theorem exists_other_of_bracket
    (hSelf : Matches .full (91 :: (start ++ [42])) (91 :: start)) :
    ∃ text, Matches .full (91 :: (start ++ [42])) text ∧
      ¬ 91 :: start <+: text := by
  have hPieces :
      pieces .full (91 :: (start ++ [42])) =
        .oneOf (classStart (start ++ [42])).1
            (classRanges (classStart (start ++ [42])).2).1 ::
          pieces .full (behindClass (start ++ [42])) := by
    simp [pieces, behindClass]
  rw [Matches, hPieces, matchesPieces_single_iff (by simp)]
    at hSelf
  by_cases hNone : behindClass (start ++ [42]) = []
  · -- then the class is all, and the start is its bracket
    have hStart : start = [] := by
      simpa [hNone, pieces, matchesPieces] using hSelf.2
    subst hStart
    simp [classStart, classRanges, Piece.admits] at hSelf
  · rcases exists_short_match
      (star_suffix_of_suffix (List.suffix_append _ _)
        (behindClass_suffix _) hNone) hSelf.2 with
      ⟨short, hShort, hLength⟩
    have hBehind : (behindClass (start ++ [42])).length <
        (start ++ [42]).length :=
      behindClass_shorter (by simp)
    refine ⟨91 :: short, ?_, fun hStart => ?_⟩
    · rw [Matches, hPieces, matchesPieces_single_iff (by simp)]
      exact ⟨hSelf.1, hShort⟩
    · have hLonger := hStart.length_le
      simp at hBehind hLonger
      omega

/-
  What starts with a sign that means something stands for
  another text, if it stands for itself.
-/
theorem exists_other_match
    {sign : UInt8}
    (hSign : sign ∈ dialect.signs)
    (hSelf :
      Matches dialect (sign :: (start ++ [42])) (sign :: start)) :
    ∃ text, Matches dialect (sign :: (start ++ [42])) text ∧
      ¬ sign :: start <+: text := by
  cases dialect with
  | simple =>
      rcases List.mem_pair.mp hSign with rfl | rfl
      · exact exists_other_of_star hSelf
      · exact exists_other_of_backslash hSelf
  | full =>
      simp only [Dialect.signs, List.mem_cons, List.not_mem_nil,
        or_false] at hSign
      rcases hSign with rfl | rfl | rfl | rfl
      · exact exists_other_of_star hSelf
      · exact exists_other_of_mark hSelf
      · exact exists_other_of_bracket hSelf
      · exact exists_other_of_backslash hSelf

/-
  A start with a star behind it stands for exactly the texts
  that have this start, if and only if no sign in it means
  something.
-/
theorem stands_for_start_iff :
    (∀ text,
        Matches dialect (start ++ [42]) text ↔ start <+: text) ↔
      ∀ sign ∈ dialect.signs, sign ∉ start := by
  constructor
  · intro hStands
    induction start with
    | nil => exact fun _ _ => List.not_mem_nil
    | cons byte others ih =>
        have hByte : byte ∉ dialect.signs := by
          intro hSign
          rcases exists_other_match hSign
            ((hStands _).mpr List.prefix_rfl) with
            ⟨text, hText, hOther⟩
          exact hOther ((hStands text).mp hText)
        have hOthers : ∀ text,
            Matches dialect (others ++ [42]) text ↔
              others <+: text := by
          intro text
          have hText := hStands (byte :: text)
          rw [Matches, List.cons_append, pieces_cons hByte,
            matchesPieces_single_iff (by simp)] at hText
          rw [Matches]
          simpa [Piece.admits] using hText
        intro sign hSign
        rw [List.mem_cons, not_or]
        refine ⟨?_, ih hOthers sign hSign⟩
        rintro rfl
        exact hByte hSign
  · exact fun hPlain text => matches_start_iff hPlain

end Glob

namespace PermissionCache

------------------------------------------------------------
-- Emptying
------------------------------------------------------------

/-
  Whether exactly the keys that something holds of leave every
  shared cache of a dialect, whatever it contains, when the
  caches before it with a certain start of their keys forget
  all decisions, in either way.
-/
def Empties
    (dialect : Glob.Dialect)
    (keyStart : Bytes)
    (Leaves : Bytes → Prop) : Prop :=
  ∀ (Shared : Type) [SharedCache Shared]
    (Holds : Shared → (key value : Bytes) → Prop)
    (cache : PermissionCache Shared) (shared : Shared),
    cache.settings.keyStart = keyStart →
      cache.shared = some shared →
        SharedCache.Deletes Holds (Glob.Matches dialect) shared →
          ∃ after,
            cache.invalidateAll.shared = some after ∧
              cache.clear.shared = some after ∧
                ∀ key value,
                  Holds after key value ↔
                    Holds shared key value ∧ ¬ Leaves key

variable {dialect : Glob.Dialect}
variable {keyStart : Bytes}

/- The keys that leave are those that the pattern stands for. -/
theorem empties_matches :
    Empties dialect keyStart
      (Glob.Matches dialect (keyStart ++ [42])) := by
  intro Shared _ Holds cache shared hStart hShared hDeletes
  refine ⟨(SharedCache.deleteMatching (keyStart ++ [42]) shared).2,
    ?_, ?_, fun key value => hDeletes.holds_iff⟩
  · have hAfter := drop_shared (.all false) cache
    rw [hShared, hStart] at hAfter
    exact hAfter
  · have hAfter := drop_shared (.all true) cache
    rw [hShared, hStart] at hAfter
    exact hAfter

/- A keyspace that holds a single key, and a cache before it. -/
def lone (dialect : Glob.Dialect) (key : Bytes) : Keyspace :=
  { dialect := dialect
    entries := [(key, [])] }

def beforeLone
    (dialect : Glob.Dialect)
    (keyStart key : Bytes) : PermissionCache Keyspace :=
  empty
    { nearItems := 0
      nearLifetime := 0
      sharedLifetime := 0
      filterItems := 0
      filterRate := 0
      keyStart := keyStart }
    (some (lone dialect key))

/- It is seen from such a keyspace whether its key leaves. -/
theorem Empties.iff
    {First Second : Bytes → Prop}
    (hFirst : Empties dialect keyStart First)
    (hSecond : Empties dialect keyStart Second)
    (key : Bytes) :
    First key ↔ Second key := by
  have hAvailable : (lone dialect key).available = true := rfl
  have hDeletes : SharedCache.Deletes Keyspace.laws.Holds
      (Glob.Matches dialect) (lone dialect key) :=
    Keyspace.deletes hAvailable
  rcases hFirst Keyspace _ (beforeLone dialect keyStart key) _
    rfl rfl hDeletes with ⟨after, hAfter, _, hLeft⟩
  rcases hSecond Keyspace _ (beforeLone dialect keyStart key) _
    rfl rfl hDeletes with ⟨other, hOther, _, hKept⟩
  have hSame : after = other :=
    Option.some.inj (hAfter.symm.trans hOther)
  subst hSame
  have hHeld : Keyspace.laws.Holds (lone dialect key) key [] :=
    List.mem_cons_self
  have hBoth := (hLeft key []).symm.trans (hKept key [])
  simpa [hHeld, not_iff_not] using hBoth

/-
  When all decisions are forgotten, the keys that leave the
  shared cache are those that the start of the keys stands for
  as a pattern, with a star behind it. These are exactly the
  keys with this start, for all that the shared cache may
  contain, if and only if no sign in the start means something
  to it.
-/
theorem emptied_exactly_iff
    (dialect : Glob.Dialect)
    (keyStart : Bytes) :
    Empties dialect keyStart
        (Glob.Matches dialect (keyStart ++ [42])) ∧
      (Empties dialect keyStart (keyStart <+: ·) ↔
        ∀ sign ∈ dialect.signs, sign ∉ keyStart) := by
  refine ⟨empties_matches, ?_⟩
  rw [← Glob.stands_for_start_iff]
  constructor
  · exact fun hExact => empties_matches.iff hExact
  · intro hStands
    have hLeaves :
        Glob.Matches dialect (keyStart ++ [42]) =
          (keyStart <+: ·) :=
      funext fun text => propext (hStands text)
    rw [← hLeaves]
    exact empties_matches

end PermissionCache

------------------------------------------------------------
-- An Example
------------------------------------------------------------

namespace Readers

open PermissionCache

/- The usual start of the keys contains no sign. -/
theorem usual_emptied :
    Empties .full (utf8 "authz:perm:")
      (utf8 "authz:perm:" <+: ·) :=
  (emptied_exactly_iff .full (utf8 "authz:perm:")).2.mpr
    (List.all_iff_forall_prop.mp (by decide))

/- The keys start with a domain's name and a backslash. -/
def domainStart : Bytes :=
  utf8 "corp\\authz:"

/- A key of someone else. -/
def theme : Bytes :=
  utf8 "corpauthz:theme"

def domain : PermissionCache Keyspace :=
  { cache with
    settings := { cache.settings with keyStart := domainStart }
    shared :=
      some
        { dialect := .full
          entries := [(theme, utf8 "dark")] } }

/- The reader's decision is kept beside it. -/
def besideTheme : PermissionCache Keyspace :=
  domain.set 0 key true

/- The keys of a keyspace, and those of the shared cache. -/
def keys (keyspace : Keyspace) : List Bytes :=
  keyspace.entries.map Prod.fst

def sharedKeys
    (cache : PermissionCache Keyspace) : Option (List Bytes) :=
  cache.shared.map keys

/- The keys that a pattern does not stand for are left. -/
theorem keys_deleteMatching
    {pattern : Bytes}
    {keyspace : Keyspace}
    (hAvailable : keyspace.available = true) :
    keys (SharedCache.deleteMatching pattern keyspace).2 =
      (keys keyspace).filter fun key =>
        !decide (Glob.Matches keyspace.dialect pattern key) := by
  change keys (Keyspace.call _ _ keyspace).2 = _
  rw [Keyspace.call_eq, if_pos hAvailable, keys, keys,
    List.filter_map]
  rfl

theorem sharedKeys_besideTheme :
    sharedKeys besideTheme =
      some [domainStart ++ keyText key, theme] := by
  decide +kernel

/-
  In either way the other key is removed, and the reader's
  decision stays.
-/
theorem theme_removed :
    sharedKeys besideTheme =
        some [domainStart ++ keyText key, theme] ∧
      ¬ domainStart <+: theme ∧
        sharedKeys besideTheme.invalidateAll =
            some [domainStart ++ keyText key] ∧
          sharedKeys besideTheme.clear =
            some [domainStart ++ keyText key] := by
  have hTheme :
      Glob.Matches .full (domainStart ++ [42]) theme := by
    decide_cbv
  have hKey :
      ¬ Glob.Matches .full (domainStart ++ [42])
        (domainStart ++ keyText key) := by
    decide_cbv
  have hStart : besideTheme.settings.keyStart = domainStart := rfl
  have hServes : besideTheme.shared.all fun keyspace =>
      keyspace.available ∧ keyspace.dialect = .full := by
    decide +kernel
  have hDropped (tallies : Bool) :
      sharedKeys (besideTheme.drop (.all tallies)) =
        some [domainStart ++ keyText key] := by
    have hKeys := sharedKeys_besideTheme
    rw [sharedKeys] at hKeys ⊢
    rw [drop_shared, hStart]
    cases hShared : besideTheme.shared with
    | none =>
        rw [hShared] at hKeys
        cases hKeys
    | some keyspace =>
        rw [hShared] at hKeys hServes
        rcases of_decide_eq_true hServes with
          ⟨hAvailable, hDialect⟩
        change some (keys
          (SharedCache.deleteMatching _ keyspace).2) = _
        rw [keys_deleteMatching hAvailable, hDialect,
          Option.some.inj hKeys]
        simp [hTheme, hKey]
  exact ⟨sharedKeys_besideTheme, by decide +kernel,
    hDropped false, hDropped true⟩

end Readers

end Rebac
