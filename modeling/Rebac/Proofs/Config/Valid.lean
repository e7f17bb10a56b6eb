import Mathlib.Logic.Basic
import Rebac.Config.Load

/-
  This file proves that settings are loaded exactly where
  they keep all rules, the defaults among them.

  Key definitions include:
    * `Config.Settles`

  Key theorems include:
    * `Config.problem?_eq_none_iff`
    * `Config.valid_default`
    * `Config.loadBy_ok_iff`
-/

namespace Rebac

namespace Config

------------------------------------------------------------
-- Rules
------------------------------------------------------------

/- A rule is kept, and so are those that are looked at later. -/
theorem ite_some_eq_none_iff
    {Found : Type}
    {broken : Prop}
    [Decidable broken]
    {found : Found}
    {later : Option Found} :
    (if broken then some found else later) = none ↔
      ¬ broken ∧ later = none := by
  by_cases hBroken : broken <;> simp [hBroken]

/- Settings without a problem keep all rules. -/
theorem problem?_eq_none_iff {config : Config} :
    config.problem? = none ↔ config.Valid := by
  simp only [problem?, ite_some_eq_none_iff, not_not, and_true]
  constructor
  · rintro ⟨hLevel, hPath, hDepth, hExpansions, hNear, hRate,
      hItems, hHost⟩
    exact ⟨hLevel, hPath, hDepth, hExpansions, hNear, hRate,
      hItems, fun hEnabled hEmpty => hHost ⟨hEnabled, hEmpty⟩⟩
  · rintro ⟨hLevel, hPath, hDepth, hExpansions, hNear, hRate,
      hItems, hHost⟩
    exact ⟨hLevel, hPath, hDepth, hExpansions, hNear, hRate,
      hItems, fun hBoth => hHost hBoth.1 hBoth.2⟩

/- Whether all rules are kept is found by looking for a problem. -/
instance (config : Config) : Decidable config.Valid :=
  decidable_of_iff (config.problem? = none) problem?_eq_none_iff

/- The defaults keep all rules. -/
theorem valid_default : Valid {} := by
  decide +kernel

theorem accept_eq_ok_iff {config accepted : Config} :
    accept config = .ok accepted ↔
      config = accepted ∧ accepted.Valid := by
  rw [← problem?_eq_none_iff, accept]
  cases hProblem : config.problem? with
  | none =>
      constructor
      · rintro ⟨⟩
        exact ⟨rfl, hProblem⟩
      · rintro ⟨rfl, _⟩
        rfl
  | some broken =>
      constructor
      · rintro ⟨⟩
      · rintro ⟨rfl, hNone⟩
        rw [hProblem] at hNone
        cases hNone

------------------------------------------------------------
-- Documents
------------------------------------------------------------

/-
  The settings that a document asks for, before any rule is
  looked at: an empty one asks for the defaults.
-/
def Settles
    (reader : Yaml.Reader)
    (root : Yaml.Node)
    (config : Config) : Prop :=
  match root with
  | .null => config = {}
  | .map entries =>
      config = (ofNode reader (.map entries)).value
  | _ => False

variable {reader : Yaml.Reader}

theorem ofDocument_ok_iff
    {origin : Bytes}
    {root : Yaml.Node}
    {config : Config} :
    (ofDocument reader origin root).value = .ok config ↔
      Settles reader root config ∧ config.Valid := by
  cases root with
  | null =>
      constructor
      · rintro ⟨⟩
        exact ⟨rfl, valid_default⟩
      · rintro ⟨rfl, _⟩
        rfl
  | map entries =>
      refine accept_eq_ok_iff.trans ?_
      rw [Settles, eq_comm]
  | scalar text => exact ⟨nofun, fun hBoth => hBoth.1.elim⟩
  | list items => exact ⟨nofun, fun hBoth => hBoth.1.elim⟩

/-
  A text is loaded exactly if it is a document that asks for
  settings, and these keep all rules.
-/
theorem loadBy_ok_iff
    {origin text : Bytes}
    {config : Config} :
    (loadBy reader origin text).value = .ok config ↔
      ∃ root,
        reader.document? text = some root ∧
          Settles reader root config ∧ config.Valid := by
  unfold loadBy
  cases hRead : reader.document? text with
  | none => simp
  | some root =>
      dsimp only
      rw [ofDocument_ok_iff]
      simp

end Config

end Rebac
