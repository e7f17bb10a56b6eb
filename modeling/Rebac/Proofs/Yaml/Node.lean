import Rebac.Yaml.Node

/-
  This file proves what is found in a document in which the
  value at one place was replaced: the new value at that
  place, and what was there before at every other place.

  Key definitions include:
    * `Yaml.Node.at?`
    * `Yaml.Node.replace`
    * `Yaml.Node.Apart`
    * `Yaml.Node.NoMapAt`

  Key theorems include:
    * `Yaml.Node.at?_replace_self`
    * `Yaml.Node.at?_replace_apart`
    * `Yaml.Node.NoMapAt.at?_append`
-/

namespace Rebac

namespace Yaml

namespace Node

------------------------------------------------------------
-- Places
------------------------------------------------------------

/- The node at a place: a key in each map on the way there. -/
def at? : Node → List Bytes → Option Node
  | node, [] => some node
  | node, key :: rest =>
      (node.get? key).bind fun child => child.at? rest

/- The text of a node that is neither null nor has parts. -/
def text? : Node → Option Bytes
  | .scalar text => some text
  | _ => none

/-
  The document with another node at a place. If nothing is at
  the place, nothing is replaced.
-/
def replace : Node → List Bytes → Node → Node
  | _, [], new => new
  | .map entries, key :: rest, new =>
      .map (entries.map fun entry =>
        if entry.1 = key then (key, entry.2.replace rest new)
        else entry)
  | node, _ :: _, _ => node

/- Places of which neither lies on the way to the other. -/
def Apart (first second : List Bytes) : Prop :=
  ¬ first <+: second ∧ ¬ second <+: first

instance (first second : List Bytes) :
    Decidable (Apart first second) := by
  unfold Apart
  infer_instance

/- No map is at a place: another node, or nothing at all. -/
def NoMapAt (root : Node) (place : List Bytes) : Prop :=
  ∀ entries, root.at? place ≠ some (.map entries)

------------------------------------------------------------
-- Replacing
------------------------------------------------------------

/- A key is looked up among entries of which some changed. -/
theorem lookup_replaced
    (key other : Bytes)
    (change : Node → Node)
    (entries : List (Bytes × Node)) :
    (entries.map fun entry =>
        if entry.1 = key then (key, change entry.2)
        else entry).lookup other =
      if other = key then (entries.lookup key).map change
      else entries.lookup other := by
  induction entries with
  | nil => simp
  | cons entry rest ih =>
      rcases entry with ⟨name, child⟩
      by_cases hName : name = key
      · subst hName
        by_cases hOther : other = name
        · subst hOther
          simp
        · have hNot : (other == name) = false :=
            beq_false_of_ne hOther
          simp [List.lookup_cons, hOther, hNot, ih]
      · by_cases hOther : other = key
        · subst hOther
          have hNot : (other == name) = false :=
            beq_false_of_ne (Ne.symm hName)
          simp [List.lookup_cons, hName, hNot, ih]
        · simp [List.lookup_cons, hName, hOther, ih]

theorem get?_replace
    (key other : Bytes)
    (rest : List Bytes)
    (node new : Node) :
    (node.replace (key :: rest) new).get? other =
      if other = key then
        (node.get? key).map fun child => child.replace rest new
      else
        node.get? other := by
  cases node with
  | map entries =>
      exact lookup_replaced key other
        (fun child => child.replace rest new) entries
  | null => simp [replace, get?]
  | scalar text => simp [replace, get?]
  | list items => simp [replace, get?]

/- At the place itself the new node is found. -/
theorem at?_replace_self
    (place : List Bytes)
    (root new : Node) :
    (root.replace place new).at? place =
      (root.at? place).map fun _ => new := by
  induction place generalizing root with
  | nil => rfl
  | cons key rest ih =>
      rw [at?, get?_replace, if_pos rfl, at?]
      cases root.get? key with
      | none => rfl
      | some child => exact ih child

/- Elsewhere all is as it was. -/
theorem at?_replace_apart
    {place other : List Bytes}
    (hApart : Apart place other)
    (root new : Node) :
    (root.replace place new).at? other = root.at? other := by
  induction place generalizing root other with
  | nil => exact absurd List.nil_prefix hApart.1
  | cons key rest ih =>
      cases other with
      | nil => exact absurd List.nil_prefix hApart.2
      | cons otherKey others =>
          rw [at?, get?_replace, at?]
          by_cases hKey : otherKey = key
          · subst hKey
            have hRest : Apart rest others :=
              ⟨fun h => hApart.1 (List.cons_prefix_cons.mpr ⟨rfl, h⟩),
                fun h => hApart.2 (List.cons_prefix_cons.mpr ⟨rfl, h⟩)⟩
            rw [if_pos rfl]
            cases root.get? otherKey with
            | none => rfl
            | some child => exact ih hRest child
          · rw [if_neg hKey]

/- Nothing is found inside a node that is no map. -/
theorem NoMapAt.at?_append
    {root : Node}
    {place rest : List Bytes}
    (hNoMap : root.NoMapAt place)
    (hRest : rest ≠ []) :
    root.at? (place ++ rest) = none := by
  induction place generalizing root with
  | nil =>
      rcases List.exists_cons_of_ne_nil hRest with
        ⟨key, others, rfl⟩
      cases root with
      | map entries => exact absurd rfl (hNoMap entries)
      | null => rfl
      | scalar text => rfl
      | list items => rfl
  | cons key others ih =>
      rw [List.cons_append, at?]
      rw [NoMapAt, at?] at hNoMap
      cases hChild : root.get? key with
      | none => rfl
      | some child =>
          rw [hChild] at hNoMap
          exact ih hNoMap

end Node

end Yaml

end Rebac
