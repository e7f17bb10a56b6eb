import Mathlib.Data.List.Basic
import Rebac.Proofs.Bytes
import Rebac.Proofs.Cache.Permission

/-
  This file proves which keys share the text that their
  decisions are kept under.

  The parts of a key are joined by bars, and ids may contain
  bars as well. Two keys share their text where the id of a
  user and the id of an object overlap: the object of one
  key ends with the relation and the object of the other,
  whose user starts with the user and the relation of the
  first.

  Key definitions include:
    * `TupleKey.WellFormed`
    * `TupleKey.Overlaps`
    * `TupleKey.NoBar`

  Key theorems include:
    * `PermissionCache.eq_of_keyText_eq`
    * `PermissionCache.keyText_eq_iff`
    * `PermissionCache.keyText_separates_iff`
-/

namespace Rebac

open PermissionCache

------------------------------------------------------------
-- Keys
------------------------------------------------------------

namespace TupleKey

/- A key whose parts can be read, each for itself. -/
structure WellFormed (key : TupleKey) : Prop where
  user : ∃ user, UserRef.parse? key.user = some user
  relation : Bytes.IsName key.relation
  object : ∃ object, ObjectRef.parse? key.object = some object

/-
  The first object ends with the second relation and object,
  and the second user starts with the first one and its
  relation; the same text lies in between.
-/
def Overlaps (first second : TupleKey) : Prop :=
  ∃ middle,
    second.user =
        first.user ++ bar :: first.relation ++ bar :: middle ∧
      first.object =
        middle ++ bar :: second.relation ++ bar :: second.object

/- A key that contains no bar. -/
structure NoBar (key : TupleKey) : Prop where
  user : bar ∉ key.user
  relation : bar ∉ key.relation
  object : bar ∉ key.object

/- The user of the second key is the longer one. -/
theorem Overlaps.user_ne
    {first second : TupleKey}
    (hOverlaps : first.Overlaps second) :
    first.user ≠ second.user := by
  rcases hOverlaps with ⟨middle, hUser, _⟩
  intro hSame
  have hLength := congrArg List.length hUser
  simp only [hSame, List.length_append, List.length_cons]
    at hLength
  omega

end TupleKey

------------------------------------------------------------
-- Objects
------------------------------------------------------------

/- The type of an object is a name, so it ends with no bar. -/
theorem ObjectRef.parse?_bar_ne_some
    {name rest : Bytes}
    (hName : Bytes.IsName name)
    (object : ObjectRef) :
    ObjectRef.parse? (name ++ bar :: rest) ≠ some object := by
  intro hParse
  rw [parse?] at hParse
  split at hParse
  · cases hParse
  · next type id hSplit =>
      split at hParse
      · next hValid =>
          have hText :=
            (Bytes.splitFirst_eq_some_iff.mp hSplit).1
          rcases hName.append_cons_inj hValid.1 rfl rfl hText with
            ⟨_, hSign, _⟩
          cases hSign
      · cases hParse

------------------------------------------------------------
-- Texts
------------------------------------------------------------

namespace PermissionCache

/- Keys that overlap share their text. -/
theorem keyText_eq_of_overlaps
    {first second : TupleKey}
    (hOverlaps : first.Overlaps second) :
    keyText first = keyText second := by
  rcases hOverlaps with ⟨middle, hUser, hObject⟩
  rw [keyText, keyText, hUser, hObject]
  simp only [List.append_assoc, List.cons_append]

/-
  A key without bars shares its text with no other key, well
  formed or not.
-/
theorem eq_of_keyText_eq
    {first second : TupleKey}
    (hNoBar : second.NoBar)
    (hText : keyText first = keyText second) :
    first = second := by
  rcases hNoBar with ⟨hUser, hRelation, hObject⟩
  simp only [keyText, List.append_assoc, List.cons_append]
    at hText
  rcases Bytes.append_cons_eq_iff.mp hText with
    ⟨hUsers, hRest⟩ | ⟨extra, hLonger, hRest⟩ |
      ⟨extra, hLonger, hRest⟩
  · have hParts :=
      (List.append_cons_inj_of_notMem hRelation hObject).mp
        hRest.symm
    cases first
    cases second
    exact TupleKey.mk.injEq .. |>.mpr
      ⟨hUsers, hParts.1.symm, hParts.2.2.symm⟩
  · rw [hLonger] at hUser
    exact absurd List.mem_append_cons_self hUser
  · have hParts :=
      (List.append_cons_inj_of_notMem hRelation hObject).mp
        hRest
    rw [hParts.2.2] at hObject
    exact absurd List.mem_append_cons_self hObject

/-
  Where the longer user reaches into the object of the other
  key, the keys overlap. It cannot end with the relation:
  the object would start with the relation of its own key.
-/
theorem overlaps_of_append
    {first second : TupleKey}
    {extra : Bytes}
    (hFirst : first.WellFormed)
    (hSecond : second.WellFormed)
    (hUser : second.user = first.user ++ bar :: extra)
    (hRest :
      first.relation ++ bar :: first.object =
        extra ++ bar :: (second.relation ++ bar :: second.object)) :
    first.Overlaps second := by
  rcases Bytes.append_cons_eq_iff.mp hRest with
    ⟨_, hObject⟩ | ⟨middle, hExtra, hObject⟩ |
      ⟨middle, hRelation, _⟩
  · rcases hFirst.object with ⟨object, hParse⟩
    rw [hObject] at hParse
    exact absurd hParse
      (ObjectRef.parse?_bar_ne_some hSecond.relation object)
  · refine ⟨middle, ?_, ?_⟩
    · rw [hUser, hExtra, List.append_assoc, List.cons_append]
    · rw [hObject, List.append_assoc, List.cons_append]
  · have hBar : bar ∉ first.relation :=
      hFirst.relation.not_mem rfl
    rw [hRelation] at hBar
    exact absurd List.mem_append_cons_self hBar

/-
  Two keys share their text only if they are the same or one
  overlaps the other.
-/
theorem keyText_eq_iff
    {first second : TupleKey}
    (hFirst : first.WellFormed)
    (hSecond : second.WellFormed) :
    keyText first = keyText second ↔
      first = second ∨ first.Overlaps second ∨
        second.Overlaps first := by
  constructor
  · intro hText
    simp only [keyText, List.append_assoc, List.cons_append]
      at hText
    rcases Bytes.append_cons_eq_iff.mp hText with
      ⟨hUser, hRest⟩ | ⟨extra, hUser, hRest⟩ |
        ⟨extra, hUser, hRest⟩
    · rcases hFirst.relation.append_cons_inj hSecond.relation
        rfl rfl hRest with ⟨hRelation, _, hObject⟩
      exact .inl (by
        cases first
        cases second
        exact TupleKey.mk.injEq .. |>.mpr
          ⟨hUser, hRelation, hObject⟩)
    · exact .inr (.inl
        (overlaps_of_append hFirst hSecond hUser hRest))
    · exact .inr (.inr
        (overlaps_of_append hSecond hFirst hUser hRest))
  · rintro (rfl | hOverlaps | hOverlaps)
    · rfl
    · exact keyText_eq_of_overlaps hOverlaps
    · exact (keyText_eq_of_overlaps hOverlaps).symm

/-
  The text of a key tells it apart from another key exactly
  if neither of them overlaps the other.
-/
theorem keyText_separates_iff
    {first second : TupleKey}
    (hFirst : first.WellFormed)
    (hSecond : second.WellFormed) :
    (keyText first = keyText second → first = second) ↔
      ¬ first.Overlaps second ∧ ¬ second.Overlaps first := by
  rw [keyText_eq_iff hFirst hSecond]
  constructor
  · intro hSeparates
    constructor
    · intro hOverlaps
      have hSame := hSeparates (.inr (.inl hOverlaps))
      exact hOverlaps.user_ne (by rw [hSame])
    · intro hOverlaps
      have hSame := hSeparates (.inr (.inr hOverlaps))
      exact hOverlaps.user_ne (by rw [hSame])
  · rintro ⟨hForward, hBackward⟩
      (rfl | hOverlaps | hOverlaps)
    · rfl
    · exact absurd hOverlaps hForward
    · exact absurd hOverlaps hBackward

------------------------------------------------------------
-- An Example
------------------------------------------------------------

namespace Overlap

/- A key whose object has bars in its id. -/
def inner : TupleKey :=
  { user := utf8 "user:x"
    relation := utf8 "viewer"
    object := utf8 "doc:y|viewer|doc:z" }

/- A key whose user has bars in its id. -/
def outer : TupleKey :=
  { user := utf8 "user:x|viewer|doc:y"
    relation := utf8 "viewer"
    object := utf8 "doc:z" }

/- A cache with room for one decision. -/
def cache : PermissionCache Keyspace :=
  empty
    { nearItems := 1
      nearLifetime := 1000
      sharedLifetime := 60
      filterItems := 1
      filterRate := 0.01
      keyStart := [] }
    none

theorem inner_wellFormed : inner.WellFormed where
  user :=
    ⟨{ object := ⟨utf8 "user", utf8 "x"⟩ },
      by decide +kernel⟩
  relation := by decide
  object :=
    ⟨⟨utf8 "doc", utf8 "y|viewer|doc:z"⟩,
      by decide +kernel⟩

theorem outer_wellFormed : outer.WellFormed where
  user :=
    ⟨{ object := ⟨utf8 "user", utf8 "x|viewer|doc:y"⟩ },
      by decide +kernel⟩
  relation := by decide
  object := ⟨⟨utf8 "doc", utf8 "z"⟩, by decide +kernel⟩

/- Another key of the user of the first one. -/
def other : TupleKey :=
  { inner with object := utf8 "doc:z" }

theorem other_wellFormed : other.WellFormed where
  user := inner_wellFormed.user
  relation := inner_wellFormed.relation
  object := outer_wellFormed.object

/- Keys of one user do not overlap, so their texts differ. -/
theorem keyText_inner_ne_other :
    keyText inner ≠ keyText other := by
  have hSeparates : keyText inner = keyText other →
      inner = other := by
    refine (keyText_separates_iff inner_wellFormed
      other_wellFormed).mpr ⟨?_, ?_⟩
    · exact fun hOverlaps => hOverlaps.user_ne rfl
    · exact fun hOverlaps => hOverlaps.user_ne rfl
  exact fun hText => absurd (hSeparates hText) (by decide)

/-
  The decision about the first key is the answer to the
  second one.
-/
theorem outer_answered :
    inner.WellFormed ∧ outer.WellFormed ∧ inner ≠ outer ∧
      keyText inner = keyText outer ∧
      ((cache.set 0 inner true).get 0 outer).1 =
        some (true, .near) := by
  have hText : keyText inner = keyText outer := by decide +kernel
  refine ⟨inner_wellFormed, outer_wellFormed, by decide,
    hText, ?_⟩
  exact get_set_of_keyText_eq hText Nat.one_pos (by decide)

end Overlap

end PermissionCache

end Rebac
