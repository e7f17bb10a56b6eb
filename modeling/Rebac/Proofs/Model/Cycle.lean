import Mathlib.Data.List.Chain
import Mathlib.Data.List.Nodup
import Rebac.Model.Compile
import Rebac.Proofs.Bytes
import Rebac.Proofs.Language.Expression

/-
  This file proves that a compilation warns of exactly those
  relations that are part of a cycle of computed relations.

  Whatever the edges are, the search for a way back follows
  each of them at most once. It has then either found the way
  or visited all relations that the start leads to.

  Key definitions include:
    * `Declaration.Expression.Computes`
    * `Declaration.TypeBlock.Edge`
    * `Declaration.TypeBlock.OnCycle`
    * `Declaration.Edges.Searches`

  Key theorems include:
    * `Declaration.Edges.exists_searches`
    * `Declaration.Edges.leadsTo_iff`
    * `Declaration.TypeBlock.onCycle_iff`
    * `Declaration.TypeBlock.mem_cyclicRelations_iff`
    * `Declaration.TypeBlock.warns_of_cycles`
-/

namespace Rebac

namespace Declaration

------------------------------------------------------------
-- Computed Relations
------------------------------------------------------------

/- A relation is computed somewhere in an expression. -/
def Expression.Computes
    (relation : Bytes)
    (expression : Expression) : Prop :=
  ∃ location, (Expression.computed relation location).Within expression

theorem computedNamesOfAll_eq_flatMap
    (operands : List Expression) :
    computedNamesOfAll operands =
      operands.flatMap Expression.computedNames := by
  induction operands with
  | nil => rfl
  | cons operand others ih =>
      rw [computedNamesOfAll, ih, List.flatMap_cons]

/- An expression computes a relation itself, or an operand does. -/
theorem Expression.mem_computedNames
    {relation : Bytes}
    {whole : Expression} :
    relation ∈ whole.computedNames ↔
      (∃ location, whole = .computed relation location) ∨
        ∃ operand ∈ whole.operands,
          relation ∈ operand.computedNames := by
  cases whole <;>
    simp [computedNames, operands, computedNamesOfAll_eq_flatMap,
      eq_comm]

theorem Expression.computes_iff
    {relation : Bytes}
    {whole : Expression} :
    whole.Computes relation ↔
      (∃ location, whole = .computed relation location) ∨
        ∃ operand ∈ whole.operands, operand.Computes relation := by
  constructor
  · rintro ⟨location, hWithin⟩
    cases hWithin with
    | self => exact .inl ⟨location, rfl⟩
    | operand hOperand hInner =>
        exact .inr ⟨_, hOperand, location, hInner⟩
  · rintro (⟨location, rfl⟩ | ⟨operand, hOperand, location, hInner⟩)
    · exact ⟨location, .self⟩
    · exact ⟨location, .operand hOperand hInner⟩

theorem Expression.mem_computedNames_iff
    {relation : Bytes}
    (expression : Expression) :
    relation ∈ expression.computedNames ↔
      expression.Computes relation := by
  induction expression using Expression.induct with
  | combine whole ih =>
      rw [mem_computedNames, computes_iff]
      exact or_congr_right (exists_congr fun operand =>
        and_congr_right (ih operand))

------------------------------------------------------------
-- Searches
------------------------------------------------------------

namespace Edges

variable {edges : Edges}
variable {goal : Bytes}
variable {visited pending : List Bytes}

/- One edge leads from a relation to another. -/
def Leads (edges : Edges) (source target : Bytes) : Prop :=
  target ∈ edges.successors source

/-
  The course of a search: how it goes on from some relations
  that are visited and some that are pending, its answer, and
  how many relations are looked at until then.
-/
inductive Searches (edges : Edges) (goal : Bytes) :
    (visited pending : List Bytes) →
      (answer : Bool) → (steps : Nat) → Prop where
  | exhausted {visited : List Bytes} :
      Searches edges goal visited [] false 0
  | found {visited pending : List Bytes} :
      Searches edges goal visited (goal :: pending) true 0
  | passed {visited pending : List Bytes} {relation : Bytes}
      {answer : Bool} {steps : Nat} :
      relation ≠ goal → relation ∈ visited →
        Searches edges goal visited pending answer steps →
          Searches edges goal visited (relation :: pending)
            answer (steps + 1)
  | entered {visited pending : List Bytes} {relation : Bytes}
      {answer : Bool} {steps : Nat} :
      relation ≠ goal → relation ∉ visited →
        Searches edges goal (relation :: visited)
            (edges.successors relation ++ pending)
            answer steps →
          Searches edges goal visited (relation :: pending)
            answer (steps + 1)

/-
  A search ends, on all edges whatsoever. A step looks at what
  was pending, or at the end of an edge that no step before
  has followed.
-/
theorem exists_searches
    (edges : Edges)
    (goal : Bytes)
    (visited pending : List Bytes) :
    ∃ steps ≤ edges.remaining visited + pending.length,
      edges.Searches goal visited pending
        (edges.leadsTo goal visited pending) steps := by
  induction visited, pending using leadsTo.induct edges goal with
  | case1 visited =>
      rw [leadsTo]
      exact ⟨0, Nat.zero_le _, .exhausted⟩
  | case2 visited pending =>
      rw [leadsTo, if_pos rfl]
      exact ⟨0, Nat.zero_le _, .found⟩
  | case3 visited relation pending hOther hVisited ih =>
      rcases ih with ⟨steps, hSteps, hSearch⟩
      rw [leadsTo, if_neg hOther, if_pos hVisited,
        List.length_cons]
      exact ⟨steps + 1, by omega, .passed hOther hVisited hSearch⟩
  | case4 visited relation pending hOther hFresh ih =>
      rcases ih with ⟨steps, hSteps, hSearch⟩
      have hVisit := remaining_visit hFresh edges
      rw [List.length_append] at hSteps
      rw [leadsTo, if_neg hOther, if_neg hFresh,
        List.length_cons]
      exact ⟨steps + 1, by omega, .entered hOther hFresh hSearch⟩

/- What a search finds is led to by some pending relation. -/
theorem Searches.exists_way
    {answer : Bool}
    {steps : Nat}
    (hSearch :
      edges.Searches goal visited pending answer steps)
    (hAnswer : answer = true) :
    ∃ relation ∈ pending,
      Relation.ReflTransGen edges.Leads relation goal := by
  induction hSearch with
  | exhausted => cases hAnswer
  | found => exact ⟨goal, List.mem_cons_self, .refl⟩
  | passed _ _ _ ih =>
      rcases ih hAnswer with ⟨source, hSource, hWay⟩
      exact ⟨source, List.mem_cons_of_mem _ hSource, hWay⟩
  | @entered _ pending relation _ _ _ _ _ ih =>
      rcases ih hAnswer with ⟨source, hSource, hWay⟩
      rcases List.mem_append.mp hSource with hNext | hLater
      · exact ⟨relation, List.mem_cons_self, .head hNext hWay⟩
      · exact ⟨source, List.mem_cons_of_mem _ hLater, hWay⟩

/- Edges do not lead out of relations that are closed under them. -/
theorem mem_of_way
    {closed : List Bytes}
    {source target : Bytes}
    (hClosed : ∀ source ∈ closed, ∀ target,
      edges.Leads source target → target ∈ closed)
    (hSource : source ∈ closed)
    (hWay : Relation.ReflTransGen edges.Leads source target) :
    target ∈ closed := by
  induction hWay with
  | refl => exact hSource
  | tail _ hLeads ih => exact hClosed _ ih _ hLeads

/-
  What is visited or pending does not lead to the goal of a
  search that fails. The edges of visited relations end in
  relations that are visited or pending, so at the end they
  do not leave the visited ones.
-/
theorem Searches.no_way
    {answer : Bool}
    {steps : Nat}
    (hSearch :
      edges.Searches goal visited pending answer steps)
    (hAnswer : answer = false)
    (hGoal : goal ∉ visited)
    (hEdges : ∀ source ∈ visited, ∀ target,
      edges.Leads source target →
        target ∈ visited ∨ target ∈ pending)
    {relation : Bytes}
    (hRelation : relation ∈ visited ∨ relation ∈ pending) :
    ¬ Relation.ReflTransGen edges.Leads relation goal := by
  induction hSearch with
  | exhausted =>
      intro hWay
      refine hGoal (mem_of_way ?_
        (hRelation.resolve_right List.not_mem_nil) hWay)
      intro source hSource target hLeads
      exact (hEdges source hSource target hLeads).resolve_right
        List.not_mem_nil
  | found => cases hAnswer
  | @passed visited pending looked _ _ _ hVisited _ ih =>
      -- the relation that is passed over is among the visited ones
      have hMerge :
          ∀ name, name ∈ visited ∨ name ∈ looked :: pending →
            name ∈ visited ∨ name ∈ pending := by
        rintro name (hMember | hMember)
        · exact .inl hMember
        · rcases List.mem_cons.mp hMember with rfl | hLater
          · exact .inl hVisited
          · exact .inr hLater
      refine ih hAnswer hGoal ?_ (hMerge _ hRelation)
      intro source hSource target hLeads
      exact hMerge target (hEdges source hSource target hLeads)
  | @entered visited pending looked _ _ hOther _ _ ih =>
      have hMerge :
          ∀ name, name ∈ visited ∨ name ∈ looked :: pending →
            name ∈ looked :: visited ∨
              name ∈ edges.successors looked ++ pending := by
        rintro name (hMember | hMember)
        · exact .inl (List.mem_cons_of_mem _ hMember)
        · rcases List.mem_cons.mp hMember with rfl | hLater
          · exact .inl List.mem_cons_self
          · exact .inr (List.mem_append_right _ hLater)
      refine ih hAnswer ?_ ?_ (hMerge _ hRelation)
      · rw [List.mem_cons, not_or]
        exact ⟨hOther.symm, hGoal⟩
      · intro source hSource target hLeads
        rcases List.mem_cons.mp hSource with rfl | hEarlier
        · exact .inr (List.mem_append_left _ hLeads)
        · exact hMerge target
            (hEdges source hEarlier target hLeads)

/- The search from some relations finds all that they lead to. -/
theorem leadsTo_iff :
    edges.leadsTo goal [] pending = true ↔
      ∃ relation ∈ pending,
        Relation.ReflTransGen edges.Leads relation goal := by
  rcases exists_searches edges goal [] pending with
    ⟨steps, _, hSearch⟩
  refine ⟨hSearch.exists_way, ?_⟩
  rintro ⟨relation, hRelation, hWay⟩
  by_contra hAnswer
  exact hSearch.no_way (Bool.not_eq_true _ ▸ hAnswer)
    List.not_mem_nil nofun (.inr hRelation) hWay

end Edges

------------------------------------------------------------
-- Cycles
------------------------------------------------------------

namespace TypeBlock

variable {block : TypeBlock}
variable {relation : Bytes}

/-
  There is an edge from a relation to every relation that its
  expression computes. A relation may be defined repeatedly.
-/
def Edge (block : TypeBlock) (source target : Bytes) : Prop :=
  ∃ relation ∈ block.relations,
    relation.name = source ∧ relation.expression.Computes target

/-
  A path of edges leads from a relation back to it, and visits
  some other relation on the way.
-/
def OnCycle (block : TypeBlock) (relation : Bytes) : Prop :=
  ∃ path : List Bytes,
    List.IsChain block.Edge (relation :: path ++ [relation]) ∧
      ∃ other ∈ path, other ≠ relation

theorem leads_iff
    {source target : Bytes} :
    block.edges.Leads source target ↔ block.Edge source target := by
  rw [Edges.Leads, Edges.successors, edges, List.flatMap_map,
    List.mem_flatMap]
  refine exists_congr fun definition => and_congr_right fun _ => ?_
  dsimp only
  split
  · next hSource =>
      rw [Expression.mem_computedNames_iff, and_iff_right hSource]
  · next hSource =>
      exact iff_of_false List.not_mem_nil fun hEdge =>
        hSource hEdge.1

theorem leads_eq : block.edges.Leads = block.Edge := by
  funext source target
  exact propext leads_iff

/-
  Some other relation follows on a cycle, and leads back. The
  path may return to the start before it gets to another
  relation; then the rest of it is a cycle too.
-/
theorem exists_other_of_path
    {path : List Bytes}
    (hChain :
      List.IsChain block.Edge (relation :: path ++ [relation]))
    (hOther : ∃ other ∈ path, other ≠ relation) :
    ∃ other, other ≠ relation ∧ block.Edge relation other ∧
      Relation.ReflTransGen block.Edge other relation := by
  induction path with
  | nil =>
      rcases hOther with ⟨other, hNone, _⟩
      cases hNone
  | cons first rest ih =>
      rcases List.isChain_cons_cons.mp hChain with ⟨hEdge, hRest⟩
      by_cases hFirst : first = relation
      · subst hFirst
        refine ih hRest ?_
        rcases hOther with ⟨other, hMember, hOther⟩
        exact ⟨other, (List.mem_cons.mp hMember).resolve_left
          hOther, hOther⟩
      · refine ⟨first, hFirst, hEdge, ?_⟩
        refine List.relationReflTransGen_of_exists_isChain_cons
          (rest ++ [relation]) hRest ?_
        exact List.getLast_append_singleton (first :: rest)

theorem onCycle_iff :
    block.OnCycle relation ↔
      ∃ other, other ≠ relation ∧ block.Edge relation other ∧
        Relation.ReflTransGen block.Edge other relation := by
  constructor
  · rintro ⟨path, hChain, hOther⟩
    exact exists_other_of_path hChain hOther
  · rintro ⟨other, hOther, hEdge, hWay⟩
    rcases hWay.cases_tail with hSame | ⟨last, hWay, hBack⟩
    · exact absurd hSame.symm hOther
    · rcases List.exists_isChain_cons_of_relationReflTransGen hWay
        with ⟨way, hChain, hLast⟩
      refine ⟨other :: way, ?_, other, List.mem_cons_self, hOther⟩
      rw [List.cons_append, List.cons_append,
        List.isChain_cons_cons]
      refine ⟨hEdge, ?_⟩
      rw [← List.cons_append, List.isChain_append]
      refine ⟨hChain, .singleton _, ?_⟩
      intro end' hEnd back hBackward
      rw [List.getLast?_eq_some_getLast (List.cons_ne_nil _ _),
        hLast] at hEnd
      cases hEnd
      cases hBackward
      exact hBack

theorem isCyclic_iff :
    block.edges.isCyclic relation = true ↔
      block.OnCycle relation := by
  rw [Edges.isCyclic, Edges.leadsTo_iff, onCycle_iff, leads_eq]
  refine exists_congr fun other => ?_
  rw [Edges.others, List.mem_filter, decide_eq_true_iff,
    ← leads_iff, ← and_assoc]
  exact and_congr_left' and_comm

/- The relations on cycles are those that are listed. -/
theorem mem_cyclicRelations_iff :
    relation ∈ block.cyclicRelations ↔ block.OnCycle relation := by
  rw [cyclicRelations, List.mem_filter, isCyclic_iff,
    and_iff_right_iff_imp, Bytes.mem_sortUnique_iff]
  intro hCycle
  rcases onCycle_iff.mp hCycle with
    ⟨_, _, ⟨definition, hDefinition, rfl, _⟩, _⟩
  rw [edges, List.map_map]
  exact List.mem_map_of_mem hDefinition

theorem nodup_cyclicRelations (block : TypeBlock) :
    block.cyclicRelations.Nodup :=
  (Bytes.nodup_sortUnique _).filter _

instance (block : TypeBlock) (relation : Bytes) :
    Decidable (block.OnCycle relation) :=
  decidable_of_iff _ mem_cyclicRelations_iff

end TypeBlock

------------------------------------------------------------
-- Warnings
------------------------------------------------------------

theorem warningsOfAll_eq_flatMap
    (declaration : Declaration)
    (owner : Owner)
    (operands : List Expression) :
    warningsOfAll declaration owner operands =
      operands.flatMap
        (Expression.warnings declaration owner) := by
  induction operands with
  | nil => rfl
  | cons operand others ih =>
      rw [warningsOfAll, ih, List.flatMap_cons]

/- An expression warns of nothing but entries of direct lists. -/
theorem Expression.exists_entry_of_warning
    {declaration : Declaration}
    {owner : Owner}
    {diagnostic : Diagnostic}
    {expression : Expression}
    (hWarning :
      diagnostic ∈ expression.warnings declaration owner) :
    ∃ entry : TypeRef,
      diagnostic ∈ entry.warnings declaration owner := by
  induction expression using Expression.induct with
  | combine whole ih =>
      have hCases :
          (∃ entry : TypeRef,
              diagnostic ∈ entry.warnings declaration owner) ∨
            ∃ operand ∈ whole.operands,
              diagnostic ∈ operand.warnings declaration owner := by
        cases whole with
        | direct entries location =>
            rcases List.mem_flatMap.mp hWarning with
              ⟨entry, _, hEntry⟩
            exact .inl ⟨entry, hEntry⟩
        | computed relation location => cases hWarning
        | tupleToUserset tupleset relation location =>
            cases hWarning
        | union parts location =>
            rw [warnings, warningsOfAll_eq_flatMap] at hWarning
            exact .inr (List.mem_flatMap.mp hWarning)
        | intersection parts location =>
            rw [warnings, warningsOfAll_eq_flatMap] at hWarning
            exact .inr (List.mem_flatMap.mp hWarning)
        | exclusion base subtract location =>
            rw [warnings, List.mem_append] at hWarning
            right
            simpa [operands] using hWarning
      rcases hCases with hEntry | ⟨operand, hOperand, hInner⟩
      · exact hEntry
      · exact ih operand hOperand hInner

/- Entries are not warned of as cycles. -/
theorem TypeRef.not_cycle_of_warning
    {declaration : Declaration}
    {owner : Owner}
    {diagnostic : Diagnostic}
    {entry : TypeRef}
    (hWarning : diagnostic ∈ entry.warnings declaration owner)
    (relation : Bytes) :
    diagnostic.problem ≠ .computedCycle relation := by
  rw [warnings, List.mem_append] at hWarning
  rcases hWarning with hType | hMember
  · split at hType
    · cases hType
    · rw [List.mem_singleton] at hType
      rw [hType]
      exact nofun
  · split at hMember
    · split at hMember
      · rw [List.mem_singleton] at hMember
        rw [hMember]
        exact nofun
      · cases hMember
    · cases hMember

/-
  A type is warned of each relation on a cycle, once, and of no
  other relation. The search for the cycles ends, whatever the
  edges are.
-/
theorem TypeBlock.warns_of_cycles
    (declaration : Declaration)
    (block : TypeBlock) :
    (∀ relation,
      ((block.warnings declaration).filter fun diagnostic =>
          diagnostic.problem = .computedCycle relation) =
        if block.OnCycle relation then
          [Owner.warning ⟨block.name, relation⟩
            (.computedCycle relation)]
        else
          []) ∧
    ∀ (edges : Edges) (relation : Bytes),
      ∃ steps ≤
          edges.remaining [] + (edges.others relation).length,
        edges.Searches relation [] (edges.others relation)
          (edges.isCyclic relation) steps := by
  refine ⟨fun relation => ?_, fun edges relation =>
    Edges.exists_searches edges relation [] _⟩
  have hEntries :
      ((block.relations.flatMap fun definition =>
          definition.expression.warnings declaration
            ⟨block.name, definition.name⟩).filter fun diagnostic =>
          diagnostic.problem = .computedCycle relation) = [] := by
    rw [List.filter_eq_nil_iff]
    intro diagnostic hWarning
    rcases List.mem_flatMap.mp hWarning with ⟨_, _, hInner⟩
    rcases Expression.exists_entry_of_warning hInner with
      ⟨entry, hEntry⟩
    exact of_decide_eq_true.mt
      (TypeRef.not_cycle_of_warning hEntry relation)
  have hCycles :
      (block.cyclicRelations.filter fun name => name = relation) =
        if block.OnCycle relation then [relation] else [] := by
    rw [List.filter_eq]
    split
    · next hCycle =>
        rw [List.count_eq_one_of_mem block.nodup_cyclicRelations
          (mem_cyclicRelations_iff.mpr hCycle)]
        rfl
    · next hCycle =>
        rw [List.count_eq_zero_of_not_mem
          (mem_cyclicRelations_iff.not.mpr hCycle)]
        rfl
  rw [warnings, List.filter_append, hEntries, List.nil_append,
    List.filter_map]
  simp only [Function.comp_def, Owner.warning,
    Diagnostic.Problem.computedCycle.injEq, hCycles]
  split <;> rfl

end Declaration

end Rebac
