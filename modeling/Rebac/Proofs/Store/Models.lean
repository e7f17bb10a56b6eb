import Rebac.Proofs.Store.Action
import Rebac.Store.Models

/-
  This file proves that storing and activating models changes
  no table but that of the models.

  Key theorems include:
    * `Store.createModel_preserves`
    * `Store.activateModel_preserves`
-/

namespace Rebac

namespace Store

variable {saved : Option Tables}
variable {Keeps : Tables → Prop}

section

variable
  (hModels : ∀ tables models,
    Keeps tables → Keeps { tables with models := models })

include hModels

/- What is kept when the models change is kept by an update. -/
theorem updateModels_preserves
    (test : StoredModel → Bool)
    (update : StoredModel → StoredModel) :
    (updateModels test update).Preserves (Within saved Keeps) := by
  refine (Action.Preserves.query _).bind fun _ => ?_
  refine (Action.Preserves.query _).bind fun _ => ?_
  exact fun store hWithin =>
    ⟨hWithin.1, hModels store.tables _ hWithin.2⟩

theorem insertModel_preserves
    (model : Model) :
    (insertModel model).Preserves (Within saved Keeps) := by
  refine (Action.Preserves.query _).bind fun _ => ?_
  refine (Action.Preserves.query _).bind fun _ => ?_
  refine (Action.Preserves.query _).bind fun _ => ?_
  refine (Action.Preserves.query _).bind fun _ => ?_
  exact fun store hWithin =>
    ⟨hWithin.1, hModels store.tables _ hWithin.2⟩

theorem createModel_preserves
    (now : Int)
    (source : Bytes)
    (activate : Bool) :
    (createModel now source activate).Preserves
      (Within none Keeps) := by
  rw [createModel]
  split
  · exact Action.Preserves.pure _
  · refine Action.Preserves.bind (fun _ hWithin => hWithin)
      fun issued => ?_
    refine Action.Preserves.bind ?_ fun _ =>
      Action.Preserves.pure _
    refine transaction_preserves fun saved => ?_
    refine (insertModel_preserves hModels _).bind fun _ => ?_
    split
    · exact updateModels_preserves hModels _ _
    · exact Action.Preserves.pure _

theorem activateModel_preserves
    (id : Bytes) :
    (activateModel id).Preserves (Within none Keeps) := by
  refine Action.Preserves.bind ?_ fun _ =>
    Action.Preserves.query _
  refine transaction_preserves fun saved => ?_
  refine (Action.Preserves.query _).bind fun _ => ?_
  refine (Action.Preserves.query _).bind fun _ => ?_
  refine (updateModels_preserves hModels _ _).bind fun _ => ?_
  exact updateModels_preserves hModels _ _

end

end Store

end Rebac
