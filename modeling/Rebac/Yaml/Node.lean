import Rebac.Bytes

/-
  This file defines what a settings document consists of and
  what a reader of such documents has to do.

  Key definitions include:
    * `Yaml.Node`
    * `Yaml.Node.ofPlain`
    * `Yaml.Node.get?`
    * `Yaml.Node.same`
    * `Yaml.Reader`
-/

namespace Rebac

namespace Yaml

/-
  A node of a document: nothing, a text, a list, or a map
  from texts to nodes whose entries keep their order.
-/
inductive Node where
  | null
  | scalar (text : Bytes)
  | list (items : List Node)
  | map (entries : List (Bytes × Node))
  deriving Repr, Inhabited

namespace Node

/- Words that stand for nothing when they are not quoted. -/
def nullWords : List Bytes :=
  [[], utf8 "~", utf8 "null", utf8 "Null", utf8 "NULL"]

/- The node of a text without quotes. -/
def ofPlain (text : Bytes) : Node :=
  if text ∈ nullWords then .null else .scalar text

/- The node of a key; the first of repeated keys counts. -/
def get? (node : Node) (key : Bytes) : Option Node :=
  match node with
  | .map entries => entries.lookup key
  | _ => none

mutual

/- Whether two nodes are the same one. -/
def same : Node → Node → Bool
  | .null, .null => true
  | .scalar text, .scalar other => text = other
  | .list items, .list others => sameItems items others
  | .map entries, .map others => sameEntries entries others
  | _, _ => false

/- Whether several nodes are the same ones in the same order. -/
def sameItems : List Node → List Node → Bool
  | [], [] => true
  | item :: items, other :: others =>
      same item other && sameItems items others
  | _, _ => false

/- And whether they stand under the same keys. -/
def sameEntries :
    List (Bytes × Node) → List (Bytes × Node) → Bool
  | [], [] => true
  | (key, node) :: entries, (otherKey, other) :: others =>
      key = otherKey && same node other &&
        sameEntries entries others
  | _, _ => false

end

mutual

theorem same_iff :
    ∀ node other : Node, same node other = true ↔ node = other
  | .null, other => by cases other <;> simp [same]
  | .scalar text, other => by cases other <;> simp [same]
  | .list items, other => by
      cases other <;> simp [same, sameItems_iff items]
  | .map entries, other => by
      cases other <;> simp [same, sameEntries_iff entries]

theorem sameItems_iff :
    ∀ items others : List Node,
      sameItems items others = true ↔ items = others
  | [], others => by cases others <;> simp [sameItems]
  | item :: items, others => by
      cases others <;>
        simp [sameItems, same_iff item, sameItems_iff items]

theorem sameEntries_iff :
    ∀ entries others : List (Bytes × Node),
      sameEntries entries others = true ↔ entries = others
  | [], others => by cases others <;> simp [sameEntries]
  | (key, node) :: entries, others => by
      rcases others with _ | ⟨⟨otherKey, other⟩, others⟩ <;>
        simp [sameEntries, same_iff node, sameEntries_iff entries]

end

instance : DecidableEq Node :=
  fun node other => decidable_of_iff _ (same_iff node other)

end Node

/-
  What reads documents and the values in them. Which ones it
  supports is a matter of the reader; what it does not
  support has no node or no value.
-/
structure Reader where
  document? : Bytes → Option Node
  word? : Bytes → Option Nat
  switch? : Bytes → Option Bool
  rate? : Bytes → Option Float

end Yaml

end Rebac
