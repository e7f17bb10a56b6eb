import Rebac.Language.Declaration

/-
  This file proves the induction principle of expressions and
  defines which expressions occur in others.

  An expression holds lists of expressions. As for rules, the
  principle only speaks of expressions: what holds of one
  follows from what holds of each of its operands.

  Key definitions include:
    * `Declaration.Expression.operands`
    * `Declaration.Expression.Within`

  Key theorems include:
    * `Declaration.Expression.induct`
    * `Declaration.Expression.forall_within_iff`
-/

namespace Rebac

namespace Declaration

namespace Expression

/- The expressions that an expression combines. -/
def operands : Expression → List Expression
  | .union operands _ => operands
  | .intersection operands _ => operands
  | .exclusion base subtract _ => [base, subtract]
  | _ => []

/- What follows from all its operands holds of an expression. -/
@[elab_as_elim]
theorem induct
    {motive : Expression → Prop}
    (combine : ∀ whole : Expression,
      (∀ operand ∈ whole.operands, motive operand) →
        motive whole)
    (expression : Expression) : motive expression :=
  match expression with
  | .direct entries location =>
      combine (.direct entries location) nofun
  | .computed relation location =>
      combine (.computed relation location) nofun
  | .tupleToUserset tupleset relation location =>
      combine (.tupleToUserset tupleset relation location) nofun
  | .union operands location =>
      combine (.union operands location)
        fun operand (_ : operand ∈ operands) =>
          induct combine operand
  | .intersection operands location =>
      combine (.intersection operands location)
        fun operand (_ : operand ∈ operands) =>
          induct combine operand
  | .exclusion base subtract location =>
      combine (.exclusion base subtract location)
        (List.forall_mem_cons.mpr
          ⟨induct combine base,
            List.forall_mem_singleton.mpr
              (induct combine subtract)⟩)

/-
  An expression occurs in itself and wherever one of the
  operands has it.
-/
inductive Within (part : Expression) : Expression → Prop where
  | self : Within part part
  | operand {whole operand : Expression} :
      operand ∈ whole.operands → Within part operand →
        Within part whole

/- What holds of all that occurs holds of the whole and its operands. -/
theorem forall_within_iff
    {whole : Expression}
    {property : Expression → Prop} :
    (∀ part, part.Within whole → property part) ↔
      property whole ∧
        ∀ operand ∈ whole.operands,
          ∀ part, part.Within operand → property part := by
  constructor
  · intro hAll
    refine ⟨hAll whole .self, ?_⟩
    intro operand hOperand part hPart
    exact hAll part (.operand hOperand hPart)
  · rintro ⟨hWhole, hOperands⟩ part hPart
    cases hPart with
    | self => exact hWhole
    | operand hOperand hInner =>
        exact hOperands _ hOperand part hInner

end Expression

end Declaration

end Rebac
