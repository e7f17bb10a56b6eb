import Rebac.Proofs.Bytes
import Rebac.Tuple.Key

/-
  This file proves that keys can be written again: the parts
  that a key was read into have that key and no other, so
  that rows are told apart by their keys.

  Key definitions include:
    * `TupleKey.Parts.Valid`

  Key theorems include:
    * `ObjectRef.text_of_parse?`
    * `ObjectRef.eq_of_parse?_text`
    * `UserRef.text_of_parse?`
    * `UserRef.parse?_object`
    * `ObjectRef.text_inj`
    * `UserRef.text_inj`
    * `TupleKey.references_of_check`
    * `TupleKey.key_of_check`
    * `TupleKey.Parts.Valid.key_inj`
-/

namespace Rebac

------------------------------------------------------------
-- References
------------------------------------------------------------

/- An object is written as the text that it was read from. -/
theorem ObjectRef.text_of_parse?
    {text : Bytes}
    {object : ObjectRef}
    (hParse : ObjectRef.parse? text = some object) :
    object.text = text := by
  unfold parse? at hParse
  split at hParse
  · cases hParse
  · next type id hSplit =>
      split at hParse
      · cases hParse
        have hText := (Bytes.splitFirst_eq_some_iff.mp hSplit).1
        exact hText.symm
      · cases hParse

/- What is written about an object is read as that object. -/
theorem ObjectRef.eq_of_parse?_text
    {object found : ObjectRef}
    (hType : Bytes.IsName object.type)
    (hParse : ObjectRef.parse? object.text = some found) :
    found = object := by
  have hSplit :
      Bytes.splitFirst 58 object.text =
        some (object.type, object.id) :=
    Bytes.splitFirst_eq_some_iff.mpr
      ⟨rfl, hType.not_mem (by decide)⟩
  rw [parse?, hSplit] at hParse
  dsimp only at hParse
  split at hParse
  · cases hParse
    rfl
  · cases hParse

/- A user is written as the text that it was read from. -/
theorem UserRef.text_of_parse?
    {text : Bytes}
    {user : UserRef}
    (hParse : UserRef.parse? text = some user) :
    user.text = text := by
  unfold parse? at hParse
  split at hParse
  · rcases Option.map_eq_some_iff.mp hParse with
      ⟨object, hObject, rfl⟩
    exact ObjectRef.text_of_parse? hObject
  · next before relation hSplit =>
      have hText := (Bytes.splitFirst_eq_some_iff.mp hSplit).1
      split at hParse
      · cases hParse
      · next object hObject =>
          split at hParse
          · cases hParse
            have hBefore := ObjectRef.text_of_parse? hObject
            simp [UserRef.text, hBefore, hText]
          · cases hParse

/- The object that a user names is read again as it is. -/
theorem UserRef.parse?_object
    {text : Bytes}
    {user : UserRef}
    (hParse : UserRef.parse? text = some user) :
    ObjectRef.parse? user.object.text = some user.object := by
  unfold parse? at hParse
  split at hParse
  · rcases Option.map_eq_some_iff.mp hParse with
      ⟨object, hObject, rfl⟩
    rw [ObjectRef.text_of_parse? hObject]
    exact hObject
  · split at hParse
    · cases hParse
    · next object hObject =>
        split at hParse
        · cases hParse
          rw [ObjectRef.text_of_parse? hObject]
          exact hObject
        · cases hParse

attribute [ext] ObjectRef UserRef

/- An object is known by its text, if it is read from it. -/
theorem ObjectRef.text_inj
    {first second : ObjectRef}
    (hFirst : ObjectRef.parse? first.text = some first)
    (hSecond : ObjectRef.parse? second.text = some second) :
    first.text = second.text ↔ first = second := by
  constructor
  · intro hText
    rw [hText, hSecond] at hFirst
    exact (Option.some.inj hFirst).symm
  · exact congrArg ObjectRef.text

/- And so is a user. -/
theorem UserRef.text_inj
    {first second : UserRef}
    (hFirst : UserRef.parse? first.text = some first)
    (hSecond : UserRef.parse? second.text = some second) :
    first.text = second.text ↔ first = second := by
  constructor
  · intro hText
    rw [hText, hSecond] at hFirst
    exact (Option.some.inj hFirst).symm
  · exact congrArg UserRef.text

/- No sign of a group stands in the text of an object. -/
theorem ObjectRef.hash_not_mem_of_parse?
    {text : Bytes}
    {object : ObjectRef}
    (hParse : ObjectRef.parse? text = some object) :
    35 ∉ text := by
  unfold parse? at hParse
  split at hParse
  · cases hParse
  · next type id hSplit =>
      split at hParse
      · next hParts =>
          rcases hParts with ⟨hType, _, hId⟩
          rw [(Bytes.splitFirst_eq_some_iff.mp hSplit).1,
            List.mem_append, List.mem_cons, not_or, not_or]
          exact ⟨hType.not_mem (by decide), by decide, hId⟩
      · cases hParse

/- The relation that a user names is not empty. -/
theorem UserRef.relation_ne_nil_of_parse?
    {text : Bytes}
    {user : UserRef}
    (hParse : UserRef.parse? text = some user) :
    user.relation ≠ some [] := by
  unfold parse? at hParse
  split at hParse
  · rcases Option.map_eq_some_iff.mp hParse with ⟨_, _, rfl⟩
    exact nofun
  · split at hParse
    · cases hParse
    · split at hParse
      · next hParts =>
          cases hParse
          exact fun hEmpty => hParts.1.1 (Option.some.inj hEmpty)
      · cases hParse

------------------------------------------------------------
-- Keys
------------------------------------------------------------

namespace TupleKey

/- A key is checked by reading its user and its object. -/
theorem references_of_check
    {key : TupleKey}
    {parts : Parts}
    (hCheck : key.check = .ok parts) :
    UserRef.parse? key.user = some parts.user ∧
      parts.relation = key.relation ∧
      ObjectRef.parse? key.object = some parts.object := by
  unfold check at hCheck
  split at hCheck
  · cases hCheck
  · next user hUser =>
      split at hCheck
      · cases hCheck
      · split at hCheck
        · cases hCheck
        · next object hObject =>
            split at hCheck
            · cases hCheck
            · cases hCheck
              exact ⟨hUser, rfl, hObject⟩

/- The parts of a key have that key. -/
theorem key_of_check
    {key : TupleKey}
    {parts : Parts}
    (hCheck : key.check = .ok parts) :
    parts.key = key := by
  rcases references_of_check hCheck with
    ⟨hUser, hRelation, hObject⟩
  rw [Parts.key, UserRef.text_of_parse? hUser, hRelation,
    ObjectRef.text_of_parse? hObject]

namespace Parts

/- Parts that are read from their own key. -/
def Valid (parts : Parts) : Prop :=
  parts.key.check = .ok parts

theorem Valid.of_check
    {key : TupleKey}
    {parts : Parts}
    (hCheck : key.check = .ok parts) :
    parts.Valid := by
  unfold Valid
  rw [key_of_check hCheck]
  exact hCheck

/- The user and the object are read again as they are. -/
theorem Valid.references
    {parts : Parts}
    (hValid : parts.Valid) :
    UserRef.parse? parts.user.text = some parts.user ∧
      ObjectRef.parse? parts.object.text = some parts.object := by
  rcases references_of_check hValid with ⟨hUser, _, hObject⟩
  exact ⟨hUser, hObject⟩

/- Valid parts are told apart by their keys. -/
theorem Valid.key_inj
    {first second : Parts}
    (hFirst : first.Valid)
    (hSecond : second.Valid) :
    first.key = second.key ↔ first = second := by
  constructor
  · intro hSame
    have hChecked : first.key.check = .ok second := by
      rw [hSame]
      exact hSecond
    exact Except.ok.inj (hFirst.symm.trans hChecked)
  · intro hSame
    rw [hSame]

end Parts

end TupleKey

end Rebac
