import Rebac.Model.Schema

/-
  This file proves the induction principle of rules, which
  rules occur in others, that schemas can be told apart, and
  what the lookup of a relation finds.

  A rule holds lists of rules, so the principle that comes
  with its definition speaks of lists as well. This one only
  speaks of rules: what holds of a union or an intersection
  follows from what holds of each of its children.

  Key definitions include:
    * `Rule.children`
    * `Rule.parts`
    * `Rule.Proper`
    * `Rule.same`

  Key theorems include:
    * `Rule.induct`
    * `Rule.mem_parts_of_mem_children`
    * `Rule.same_iff`
    * `Schema.mem_of_find?`
-/

namespace Rebac

/- What follows from all the parts of a rule holds of it. -/
@[elab_as_elim]
theorem Rule.induct
    {motive : Rule → Prop}
    (direct : ∀ allowed, motive (.direct allowed))
    (computed : ∀ relation, motive (.computed relation))
    (tupleToUserset : ∀ tupleset computed,
      motive (.tupleToUserset tupleset computed))
    (union : ∀ children,
      (∀ child ∈ children, motive child) →
        motive (.union children))
    (intersection : ∀ children,
      (∀ child ∈ children, motive child) →
        motive (.intersection children))
    (exclusion : ∀ base subtract,
      motive base → motive subtract →
        motive (.exclusion base subtract))
    (rule : Rule) : motive rule :=
  match rule with
  | .direct allowed => direct allowed
  | .computed relation => computed relation
  | .tupleToUserset tupleset relation =>
      tupleToUserset tupleset relation
  | .union children =>
      union children fun child _ =>
        Rule.induct direct computed tupleToUserset union
          intersection exclusion child
  | .intersection children =>
      intersection children fun child _ =>
        Rule.induct direct computed tupleToUserset union
          intersection exclusion child
  | .exclusion base subtract =>
      exclusion base subtract
        (Rule.induct direct computed tupleToUserset union
          intersection exclusion base)
        (Rule.induct direct computed tupleToUserset union
          intersection exclusion subtract)

------------------------------------------------------------
-- Parts
------------------------------------------------------------

namespace Rule

/- The rules that a rule combines. -/
def children : Rule → List Rule
  | .union children => children
  | .intersection children => children
  | .exclusion base subtract => [base, subtract]
  | _ => []

/- What follows from the rules that a rule combines holds of it. -/
theorem induct_children
    {motive : Rule → Prop}
    (combine : ∀ rule : Rule,
      (∀ child ∈ rule.children, motive child) → motive rule)
    (rule : Rule) : motive rule := by
  induction rule using Rule.induct with
  | direct allowed =>
      exact combine _ (List.forall_mem_nil _)
  | computed relation =>
      exact combine _ (List.forall_mem_nil _)
  | tupleToUserset tupleset relation =>
      exact combine _ (List.forall_mem_nil _)
  | union children ih => exact combine _ ih
  | intersection children ih => exact combine _ ih
  | exclusion base subtract ihBase ihSubtract =>
      refine combine _ ?_
      simpa [children] using And.intro ihBase ihSubtract

mutual

/- The rules that occur in a rule, itself included. -/
def parts : Rule → List Rule
  | .direct allowed => [.direct allowed]
  | .computed relation => [.computed relation]
  | .tupleToUserset tupleset relation =>
      [.tupleToUserset tupleset relation]
  | .union children => .union children :: partsOfAll children
  | .intersection children =>
      .intersection children :: partsOfAll children
  | .exclusion base subtract =>
      .exclusion base subtract :: (parts base ++ parts subtract)

/- The rules that occur in any of several rules. -/
def partsOfAll : List Rule → List Rule
  | [] => []
  | child :: others => parts child ++ partsOfAll others

end

theorem mem_partsOfAll_iff
    {children : List Rule}
    {part : Rule} :
    part ∈ partsOfAll children ↔
      ∃ child ∈ children, part ∈ child.parts := by
  induction children with
  | nil => simp [partsOfAll]
  | cons child others ih => simp [partsOfAll, ih]

/- A rule occurs in itself and wherever a child has it. -/
theorem mem_parts_iff
    {part rule : Rule} :
    part ∈ rule.parts ↔
      part = rule ∨ ∃ child ∈ rule.children, part ∈ child.parts := by
  cases rule <;>
    simp [parts, children, mem_partsOfAll_iff]

theorem self_mem_parts (rule : Rule) : rule ∈ rule.parts :=
  mem_parts_iff.mpr (.inl rfl)

/- What a part combines occurs in the whole. -/
theorem mem_parts_of_mem_children
    {whole rule child : Rule}
    (hRule : rule ∈ whole.parts)
    (hChild : child ∈ rule.children) :
    child ∈ whole.parts := by
  induction whole using induct_children with
  | combine whole ih =>
      rcases mem_parts_iff.mp hRule with
        rfl | ⟨other, hOther, hPart⟩
      · exact mem_parts_iff.mpr
          (.inr ⟨child, hChild, self_mem_parts child⟩)
      · exact mem_parts_iff.mpr
          (.inr ⟨other, hOther, ih other hOther hPart⟩)

/- No intersection of no rules, which always holds, occurs. -/
def Proper (rule : Rule) : Prop :=
  .intersection [] ∉ rule.parts

theorem Proper.child
    {rule child : Rule}
    (hProper : rule.Proper)
    (hChild : child ∈ rule.children) :
    child.Proper :=
  fun hPart =>
    hProper (mem_parts_iff.mpr (.inr ⟨child, hChild, hPart⟩))

theorem proper_of_children
    {rule : Rule}
    (hSome : rule ≠ .intersection [])
    (hChildren : ∀ child ∈ rule.children, child.Proper) :
    rule.Proper := by
  intro hPart
  rcases mem_parts_iff.mp hPart with
    hSame | ⟨child, hChild, hInner⟩
  · exact hSome hSame.symm
  · exact hChildren child hChild hInner

end Rule

------------------------------------------------------------
-- Equality
------------------------------------------------------------

namespace Rule

mutual

/- Whether two rules are the same one. -/
def same : Rule → Rule → Bool
  | .direct allowed, .direct others => allowed = others
  | .computed relation, .computed other => relation = other
  | .tupleToUserset tupleset relation,
      .tupleToUserset otherTupleset other =>
      tupleset = otherTupleset && relation = other
  | .union children, .union others => sameAll children others
  | .intersection children, .intersection others =>
      sameAll children others
  | .exclusion base subtract,
      .exclusion otherBase otherSubtract =>
      same base otherBase && same subtract otherSubtract
  | _, _ => false

/- Whether several rules are the same ones in the same order. -/
def sameAll : List Rule → List Rule → Bool
  | [], [] => true
  | child :: children, other :: others =>
      same child other && sameAll children others
  | _, _ => false

end

theorem sameAll_iff
    {children others : List Rule}
    (hChildren : ∀ child ∈ children, ∀ other,
      same child other = true ↔ child = other) :
    sameAll children others = true ↔ children = others := by
  induction children generalizing others with
  | nil => cases others <;> simp [sameAll]
  | cons child children ih =>
      cases others with
      | nil => simp [sameAll]
      | cons other others =>
          rcases List.forall_mem_cons.mp hChildren with
            ⟨hChild, hOthers⟩
          rw [sameAll, Bool.and_eq_true, hChild other,
            ih hOthers, List.cons.injEq]

theorem same_iff
    (rule other : Rule) :
    same rule other = true ↔ rule = other := by
  induction rule using Rule.induct generalizing other with
  | direct allowed => cases other <;> simp [same]
  | computed relation => cases other <;> simp [same]
  | tupleToUserset tupleset relation =>
      cases other <;> simp [same]
  | union children ih =>
      cases other <;> simp [same, sameAll_iff ih]
  | intersection children ih =>
      cases other <;> simp [same, sameAll_iff ih]
  | exclusion base subtract ihBase ihSubtract =>
      cases other <;> simp [same, ihBase, ihSubtract]

instance : DecidableEq Rule :=
  fun rule other => decidable_of_iff _ (same_iff rule other)

end Rule

deriving instance DecidableEq for RelationDefinition
deriving instance DecidableEq for TypeDefinition
deriving instance DecidableEq for Schema

------------------------------------------------------------
-- Lookups
------------------------------------------------------------

/- A relation that is found is one of the schema. -/
theorem Schema.mem_of_find?
    {schema : Schema}
    {type relation : Bytes}
    {definition : RelationDefinition}
    (hFind : schema.find? type relation = some definition) :
    definition.name = relation ∧
      ∃ found ∈ schema.types,
        definition ∈ found.relations := by
  rcases Option.bind_eq_some_iff.mp hFind with
    ⟨found, hType, hRelation⟩
  refine ⟨by simpa using List.find?_some hRelation, found, ?_⟩
  exact ⟨List.mem_of_find?_eq_some hType,
    List.mem_of_find?_eq_some hRelation⟩

end Rebac
