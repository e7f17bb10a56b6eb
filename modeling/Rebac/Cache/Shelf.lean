import Rebac.Bytes

/-
  This file defines the entries of a bounded cache: a row that
  is ordered by use, and an index that leads from each key to
  the place of its entry.

  An entry keeps its place wherever it stands in the row, so
  the index only changes where an entry comes or goes.

  Key definitions include:
    * `Recency.Entry`
    * `Recency.Shelf`
    * `Recency.Shelf.Linked`
    * `Recency.Shelf.locate?`
    * `Recency.Shelf.lookUp`
    * `Recency.Shelf.store`
    * `Recency.Shelf.remove`
    * `Recency.Shelf.keep`

  Key theorems include:
    * `Recency.Shelf.Linked.locate?_iff`
    * `Recency.Shelf.Linked.lookUp`
    * `Recency.Shelf.Linked.store`
    * `Recency.Shelf.Linked.remove`
    * `Recency.Shelf.Linked.keep`
-/

namespace Rebac

namespace Recency

------------------------------------------------------------
-- Entries
------------------------------------------------------------

/-
  A key, its value and the time when it expires, as a clock
  counts it.
-/
structure Entry (Value : Type) where
  key : Bytes
  value : Value
  expires : Int
  deriving Repr

/- An entry at its place. -/
structure Node (Value : Type) where
  place : Nat
  entry : Entry Value
  deriving Repr

variable {Value : Type}

/- The key of an entry. -/
def Node.key (node : Node Value) : Bytes :=
  node.entry.key

/- What the index has to say of a node. -/
def Node.link (node : Node Value) : Bytes × Nat :=
  (node.key, node.place)

/-
  The nodes, the most recently used first, with the index of
  their keys. Places are handed out in turn, so `next` is a
  place that was never used.
-/
structure Shelf (Value : Type) where
  nodes : List (Node Value) := []
  index : List (Bytes × Nat) := []
  next : Nat := 0
  deriving Repr

namespace Shelf

/- The entries, in the order of the row. -/
def entries (shelf : Shelf Value) : List (Entry Value) :=
  shelf.nodes.map Node.entry

------------------------------------------------------------
-- Operations
------------------------------------------------------------

/- The node that the index leads to. -/
def locate?
    (shelf : Shelf Value)
    (key : Bytes) : Option (Node Value) :=
  (shelf.index.find? fun link => link.1 = key).bind fun link =>
    shelf.nodes.find? fun node => node.place = link.2

/- Takes a node out of the row, and its key out of the index. -/
def drop
    (node : Node Value)
    (shelf : Shelf Value) : Shelf Value :=
  { shelf with
    nodes := shelf.nodes.filter fun other =>
      other.place ≠ node.place
    index := shelf.index.filter fun link => link.1 ≠ node.key }

/- Puts an entry in place of another one and to the front. -/
def raise
    (place : Nat)
    (entry : Entry Value)
    (shelf : Shelf Value) : Shelf Value :=
  { shelf with
    nodes := ⟨place, entry⟩ ::
      shelf.nodes.filter fun other => other.place ≠ place }

/- Puts a new entry to the front. -/
def push
    (entry : Entry Value)
    (shelf : Shelf Value) : Shelf Value :=
  { nodes := ⟨shelf.next, entry⟩ :: shelf.nodes
    index := (entry.key, shelf.next) :: shelf.index
    next := shelf.next + 1 }

/- Gives up the nodes used longest ago, if there is no room. -/
def evict
    (room : Nat)
    (shelf : Shelf Value) : Shelf Value :=
  let lost := (shelf.nodes.drop room).map Node.key
  { shelf with
    nodes := shelf.nodes.take room
    index := shelf.index.filter fun link => link.1 ∉ lost }

/-
  Looks up a key. An entry that is found is moved to the
  front; an expired one is dropped instead.
-/
def lookUp
    (now : Int)
    (key : Bytes)
    (shelf : Shelf Value) : Option Value × Shelf Value :=
  match shelf.locate? key with
  | none => (none, shelf)
  | some node =>
      if node.entry.expires ≤ now then
        (none, shelf.drop node)
      else
        (some node.entry.value,
          shelf.raise node.place node.entry)

/-
  Puts an entry to the front, in place of the one with its
  key if there is one; otherwise another entry may have to go.
-/
def store
    (room : Nat)
    (entry : Entry Value)
    (shelf : Shelf Value) : Shelf Value :=
  match shelf.locate? entry.key with
  | none => (shelf.push entry).evict room
  | some node => shelf.raise node.place entry

/- Removes a key, and says whether it was there. -/
def remove
    (key : Bytes)
    (shelf : Shelf Value) : Bool × Shelf Value :=
  match shelf.locate? key with
  | none => (false, shelf)
  | some node => (true, shelf.drop node)

/- Keeps the entries whose keys pass a test. -/
def keep
    (test : Bytes → Bool)
    (shelf : Shelf Value) : Shelf Value :=
  { shelf with
    nodes := shelf.nodes.filter fun node => test node.key
    index := shelf.index.filter fun link => test link.1 }

------------------------------------------------------------
-- Links
------------------------------------------------------------

/-
  The index has exactly the keys of the nodes, each once and
  with the place of its node, and no place is used twice.
-/
structure Linked (shelf : Shelf Value) : Prop where
  links : shelf.index.Perm (shelf.nodes.map Node.link)
  keys : (shelf.index.map Prod.fst).Nodup
  places : (shelf.index.map Prod.snd).Nodup
  fresh : ∀ link ∈ shelf.index, link.2 < shelf.next

variable {shelf : Shelf Value}
variable {node other : Node Value}
variable {key : Bytes}

theorem linked_empty : Linked ({} : Shelf Value) :=
  ⟨.nil, .nil, .nil, nofun⟩

namespace Linked

/- The index has the key and the place of every node. -/
theorem mem_index_iff
    (hLinked : shelf.Linked)
    {link : Bytes × Nat} :
    link ∈ shelf.index ↔ ∃ node ∈ shelf.nodes, node.link = link := by
  rw [hLinked.links.mem_iff, List.mem_map]

/- The keys of the nodes are those of the index. -/
theorem keys_perm (hLinked : shelf.Linked) :
    (shelf.index.map Prod.fst).Perm (shelf.nodes.map Node.key) := by
  have hKeys := hLinked.links.map Prod.fst
  rwa [List.map_map] at hKeys

/- And so are their places. -/
theorem places_perm (hLinked : shelf.Linked) :
    (shelf.index.map Prod.snd).Perm (shelf.nodes.map Node.place) := by
  have hPlaces := hLinked.links.map Prod.snd
  rwa [List.map_map] at hPlaces

/- No two nodes have the same key. -/
theorem nodup_keys (hLinked : shelf.Linked) :
    (shelf.nodes.map Node.key).Nodup :=
  hLinked.keys_perm.nodup_iff.mp hLinked.keys

/- No two nodes have the same place. -/
theorem nodup_places (hLinked : shelf.Linked) :
    (shelf.nodes.map Node.place).Nodup :=
  hLinked.places_perm.nodup_iff.mp hLinked.places

end Linked

/- Where images are distinct, they tell elements apart. -/
theorem eq_of_nodup_map
    {Part Image : Type}
    {image : Part → Image}
    {parts : List Part}
    {first second : Part}
    (hDistinct : (parts.map image).Nodup)
    (hFirst : first ∈ parts)
    (hSecond : second ∈ parts)
    (hSame : image first = image second) :
    first = second := by
  induction parts with
  | nil => cases hFirst
  | cons part others hOthers =>
      rcases List.nodup_cons.mp hDistinct with ⟨hNew, hRest⟩
      cases hFirst with
      | head =>
          cases hSecond with
          | head => rfl
          | tail _ hSecond =>
              exact absurd
                (hSame ▸ List.mem_map_of_mem hSecond) hNew
      | tail _ hFirst =>
          cases hSecond with
          | head =>
              exact absurd
                (hSame ▸ List.mem_map_of_mem hFirst) hNew
          | tail _ hSecond =>
              exact hOthers hRest hFirst hSecond

/- And a search by image finds the element that has it. -/
theorem find?_of_nodup_map
    {Part Image : Type}
    [DecidableEq Image]
    {image : Part → Image}
    {parts : List Part}
    {part : Part}
    (hDistinct : (parts.map image).Nodup)
    (hPart : part ∈ parts) :
    parts.find? (fun other => image other = image part) =
      some part := by
  cases hFind : parts.find? fun other => image other = image part with
  | none =>
      have hNone := List.find?_eq_none.mp hFind part hPart
      exact absurd (decide_eq_true rfl) hNone
  | some found =>
      have hSame : image found = image part := by
        simpa using List.find?_some hFind
      rw [eq_of_nodup_map hDistinct
        (List.mem_of_find?_eq_some hFind) hPart hSame]

/- A node may be taken to the front of the others. -/
theorem perm_filter_ne
    {nodes : List (Node Value)}
    (hPlaces : (nodes.map Node.place).Nodup)
    (hNode : node ∈ nodes) :
    nodes.Perm
      (node ::
        nodes.filter fun other => other.place ≠ node.place) := by
  induction nodes with
  | nil => cases hNode
  | cons first others hOthers =>
      rcases List.nodup_cons.mp hPlaces with ⟨hNew, hRest⟩
      cases hNode with
      | head =>
          rw [List.filter_cons_of_neg (by simp),
            List.filter_eq_self.mpr]
          intro other hOther
          apply decide_eq_true
          intro hSame
          exact hNew (hSame ▸ List.mem_map_of_mem hOther)
      | tail _ hNode =>
          have hOther : first.place ≠ node.place := by
            intro hSame
            exact hNew (hSame ▸ List.mem_map_of_mem hNode)
          rw [List.filter_cons_of_pos (by simpa using hOther)]
          exact ((hOthers hRest hNode).cons first).trans
            (.swap node first _)

/- The nodes in front are those whose keys none behind has. -/
theorem filter_not_mem_behind
    {front behind : List (Node Value)}
    (hKeys : ((front ++ behind).map Node.key).Nodup) :
    (front ++ behind).filter
        (fun node => node.key ∉ behind.map Node.key) =
      front := by
  rw [List.map_append] at hKeys
  have hApart := (List.nodup_append.mp hKeys).2.2
  rw [List.filter_append, List.filter_eq_self.mpr,
    List.filter_eq_nil_iff.mpr, List.append_nil]
  · intro node hBehind
    simpa using List.mem_map_of_mem hBehind
  · intro node hFront
    apply decide_eq_true
    intro hBehind
    exact hApart _ (List.mem_map_of_mem hFront) _ hBehind rfl

namespace Linked

/- A node is known by its key, and by its place. -/
theorem key_eq_iff_place_eq
    (hLinked : shelf.Linked)
    (hNode : node ∈ shelf.nodes)
    (hOther : other ∈ shelf.nodes) :
    other.key = node.key ↔ other.place = node.place := by
  constructor
  · intro hKey
    rw [eq_of_nodup_map hLinked.nodup_keys hOther hNode hKey]
  · intro hPlace
    rw [eq_of_nodup_map hLinked.nodup_places hOther hNode hPlace]

/- The index leads to the node of a key. -/
theorem locate?_iff (hLinked : shelf.Linked) :
    shelf.locate? key = some node ↔
      node ∈ shelf.nodes ∧ node.key = key := by
  constructor
  · intro hLocate
    rw [locate?, Option.bind_eq_some_iff] at hLocate
    rcases hLocate with ⟨link, hLink, hNode⟩
    have hKey : link.1 = key := by
      simpa using List.find?_some hLink
    have hPlace : node.place = link.2 := by
      simpa using List.find?_some hNode
    have hMember := List.mem_of_find?_eq_some hNode
    rcases hLinked.mem_index_iff.mp
      (List.mem_of_find?_eq_some hLink) with ⟨linked, hMem, rfl⟩
    refine ⟨hMember, Eq.trans ?_ hKey⟩
    exact (hLinked.key_eq_iff_place_eq hMem hMember).mpr hPlace
  · rintro ⟨hNode, rfl⟩
    have hLink : shelf.index.find? (fun link => link.1 = node.key) =
        some node.link :=
      find?_of_nodup_map hLinked.keys
        (hLinked.mem_index_iff.mpr ⟨node, hNode, rfl⟩)
    rw [locate?, hLink]
    exact find?_of_nodup_map hLinked.nodup_places hNode

theorem locate?_eq_none_iff (hLinked : shelf.Linked) :
    shelf.locate? key = none ↔ key ∉ shelf.nodes.map Node.key := by
  rw [Option.eq_none_iff_forall_ne_some]
  simp only [ne_eq, hLinked.locate?_iff, List.mem_map]
  exact ⟨fun hNone ⟨node, hNode⟩ => hNone node hNode,
    fun hNone node hNode => hNone ⟨node, hNode⟩⟩

/- Links are kept where nodes and keys go together. -/
theorem filter
    {keepNode : Node Value → Bool}
    {keepLink : Bytes × Nat → Bool}
    (hLinked : shelf.Linked)
    (hAgree : ∀ node ∈ shelf.nodes,
      keepLink node.link = keepNode node) :
    Linked
      { shelf with
        nodes := shelf.nodes.filter keepNode
        index := shelf.index.filter keepLink } where
  links := by
    have hKept := hLinked.links.filter keepLink
    rw [List.filter_map] at hKept
    exact (List.filter_congr hAgree) ▸ hKept
  keys := (List.filter_sublist.map _).nodup hLinked.keys
  places := (List.filter_sublist.map _).nodup hLinked.places
  fresh link hLink :=
    hLinked.fresh link (List.mem_filter.mp hLink).1

/- They are kept where a node gives way to one of its key. -/
theorem raise
    {entry : Entry Value}
    (hLinked : shelf.Linked)
    (hNode : node ∈ shelf.nodes)
    (hKey : entry.key = node.key) :
    (shelf.raise node.place entry).Linked where
  links := by
    have hLink : Node.link ⟨node.place, entry⟩ = node.link :=
      congrArg (·, node.place) hKey
    rw [Shelf.raise, List.map_cons, hLink]
    exact hLinked.links.trans
      ((perm_filter_ne hLinked.nodup_places hNode).map _)
  keys := hLinked.keys
  places := hLinked.places
  fresh := hLinked.fresh

theorem drop
    (hLinked : shelf.Linked)
    (hNode : node ∈ shelf.nodes) :
    (shelf.drop node).Linked := by
  apply hLinked.filter
  intro other hOther
  exact decide_eq_decide.mpr
    (not_congr (hLinked.key_eq_iff_place_eq hNode hOther))

/- A key that is new gets a place that is. -/
theorem push
    {entry : Entry Value}
    (hLinked : shelf.Linked)
    (hNew : entry.key ∉ shelf.nodes.map Node.key) :
    (shelf.push entry).Linked where
  links := hLinked.links.cons _
  keys := List.nodup_cons.mpr
    ⟨mt hLinked.keys_perm.mem_iff.mp hNew, hLinked.keys⟩
  places := by
    refine List.nodup_cons.mpr ⟨?_, hLinked.places⟩
    intro hUsed
    rcases List.mem_map.mp hUsed with ⟨link, hLink, hPlace⟩
    exact Nat.ne_of_lt (hLinked.fresh link hLink) hPlace
  fresh link hLink := by
    rcases List.mem_cons.mp hLink with rfl | hOld
    · exact Nat.lt_succ_self _
    · exact Nat.lt_succ_of_lt (hLinked.fresh link hOld)

theorem evict
    (hLinked : shelf.Linked)
    (room : Nat) :
    (shelf.evict room).Linked := by
  have hSplit := List.take_append_drop room shelf.nodes
  have hTake := filter_not_mem_behind
    (hSplit.symm ▸ hLinked.nodup_keys)
  rw [hSplit] at hTake
  rw [Shelf.evict, ← hTake]
  exact hLinked.filter fun _ _ => rfl

theorem lookUp
    (hLinked : shelf.Linked)
    (now : Int)
    (key : Bytes) :
    (shelf.lookUp now key).2.Linked := by
  rw [Shelf.lookUp]
  split
  · exact hLinked
  · next node hLocate =>
      have hNode := (hLinked.locate?_iff.mp hLocate).1
      split
      · exact hLinked.drop hNode
      · exact hLinked.raise hNode rfl

theorem store
    (hLinked : shelf.Linked)
    (room : Nat)
    (entry : Entry Value) :
    (shelf.store room entry).Linked := by
  rw [Shelf.store]
  split
  · next hLocate =>
      exact (hLinked.push
        (hLinked.locate?_eq_none_iff.mp hLocate)).evict room
  · next node hLocate =>
      rcases hLinked.locate?_iff.mp hLocate with ⟨hNode, hKey⟩
      exact hLinked.raise hNode hKey.symm

theorem remove
    (hLinked : shelf.Linked)
    (key : Bytes) :
    (shelf.remove key).2.Linked := by
  rw [Shelf.remove]
  split
  · exact hLinked
  · next node hLocate =>
      exact hLinked.drop (hLinked.locate?_iff.mp hLocate).1

theorem keep
    (hLinked : shelf.Linked)
    (test : Bytes → Bool) :
    (shelf.keep test).Linked :=
  hLinked.filter fun _ _ => rfl

end Linked

end Shelf

end Recency

end Rebac
