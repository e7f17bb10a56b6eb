import Rebac.Language.Declaration

/-
  This file defines which relations of a type are part of a
  cycle of computed relations.

  There is an edge from a relation to every relation that is
  computed anywhere in its expression. Both stay on the same
  object, so a cycle of edges is a cycle of the evaluation.

  Key definitions include:
    * `Declaration.Expression.computedNames`
    * `Declaration.Edges`
    * `Declaration.Edges.leadsTo`
    * `Declaration.Edges.isCyclic`
    * `Declaration.TypeBlock.cyclicRelations`
-/

namespace Rebac

namespace Declaration

------------------------------------------------------------
-- Edges
------------------------------------------------------------

mutual

/- The relations that are computed anywhere in an expression. -/
def Expression.computedNames : Expression → List Bytes
  | .direct _ _ => []
  | .computed relation _ => [relation]
  | .tupleToUserset _ _ _ => []
  | .union operands _ => computedNamesOfAll operands
  | .intersection operands _ => computedNamesOfAll operands
  | .exclusion base subtract _ =>
      base.computedNames ++ subtract.computedNames

/- The relations that are computed in any of the expressions. -/
def computedNamesOfAll : List Expression → List Bytes
  | [] => []
  | operand :: others =>
      operand.computedNames ++ computedNamesOfAll others

end

/- Relations with the relations that they lead to. -/
abbrev Edges :=
  List (Bytes × List Bytes)

/- The edges of a type, one entry for each `define`. -/
def TypeBlock.edges (block : TypeBlock) : Edges :=
  block.relations.map fun relation =>
    (relation.name, relation.expression.computedNames)

------------------------------------------------------------
-- Reachability
------------------------------------------------------------

namespace Edges

/- The relations that one edge leads to. -/
def successors
    (edges : Edges)
    (relation : Bytes) : List Bytes :=
  edges.flatMap fun (source, targets) =>
    if source = relation then targets else []

/-
  The number of edges that lead from relations which have not
  been visited.
-/
def remaining
    (edges : Edges)
    (visited : List Bytes) : Nat :=
  match edges with
  | [] => 0
  | (source, targets) :: others =>
      (if source ∈ visited then 0 else targets.length) +
        remaining others visited

/- A visit follows the edges of a relation, and none of them again. -/
theorem remaining_visit
    {visited : List Bytes}
    {relation : Bytes}
    (hFresh : relation ∉ visited)
    (edges : Edges) :
    edges.remaining (relation :: visited) +
        (edges.successors relation).length =
      edges.remaining visited := by
  induction edges with
  | nil => rfl
  | cons entry others hOthers =>
      rw [successors] at hOthers ⊢
      simp only [remaining, List.flatMap_cons,
        List.length_append, List.mem_cons] at hOthers ⊢
      by_cases hSource : entry.1 = relation
      · simp only [hSource, hFresh, true_or, if_true, if_false]
        omega
      · simp only [hSource, false_or, if_false,
          List.length_nil]
        omega

/-
  Searches for a relation in depth first. The relations that
  are pending are looked at in turn: one that was visited is
  passed over, and what a new one leads to comes before the
  others. The search is over once the goal comes up.
-/
def leadsTo
    (edges : Edges)
    (goal : Bytes)
    (visited : List Bytes) : (pending : List Bytes) → Bool
  | [] => false
  | relation :: pending =>
      if relation = goal then
        true
      else if relation ∈ visited then
        edges.leadsTo goal visited pending
      else
        edges.leadsTo goal (relation :: visited)
          (edges.successors relation ++ pending)
termination_by pending =>
  edges.remaining visited + pending.length
decreasing_by
  · rw [List.length_cons]
    omega
  · next hFresh =>
      have hVisit := remaining_visit hFresh edges
      rw [List.length_append, List.length_cons]
      omega

/- The other relations that one edge leads to. -/
def others
    (edges : Edges)
    (relation : Bytes) : List Bytes :=
  (edges.successors relation).filter
    fun target => target ≠ relation

/-
  Whether edges lead from a relation back to it through some
  other relation.
-/
def isCyclic
    (edges : Edges)
    (relation : Bytes) : Bool :=
  edges.leadsTo relation [] (edges.others relation)

end Edges

/-
  The relations of a type that are part of a cycle through
  another relation, each once and in bytewise order.
-/
def TypeBlock.cyclicRelations
    (block : TypeBlock) : List Bytes :=
  let edges := block.edges
  (Bytes.sortUnique (edges.map Prod.fst)).filter
    edges.isCyclic

end Declaration

end Rebac
