import Rebac.Config.Reader
import Rebac.Proofs.Config.Setting

/-
  This file proves that the settings of a document do not
  depend on each other, whatever reader it is read with.

  Where the value of one setting is replaced by one that it
  does not accept, this setting gets its default and all
  others stay as they are. A section that is no map leaves
  all of its settings at their defaults.

  Key definitions include:
    * `Config.KeepsSections`

  Key theorems include:
    * `Config.keepsSections_of_settles`
    * `Config.settles_replace`
    * `Config.loaded_settings_apart`
-/

namespace Rebac

namespace Config

------------------------------------------------------------
-- Sections
------------------------------------------------------------

variable {reader : Yaml.Reader}

/- Sections that are no maps are left at their defaults. -/
structure KeepsSections
    (root : Yaml.Node)
    (config : Config) : Prop where
  global :
    root.NoMapAt [utf8 "global"] → config.global = {}
  storage :
    root.NoMapAt [utf8 "database"] → config.storage = {}
  engine :
    root.NoMapAt [utf8 "engine"] → config.engine = {}
  cache :
    root.NoMapAt [utf8 "cache"] → config.cache = {}
  server :
    root.NoMapAt [utf8 "cache", utf8 "valkey"] →
      config.cache.server = {}

/- A setting in a section that is no map has no text. -/
theorem texts_eq_none
    {root : Yaml.Node}
    {place : List Bytes}
    (hNoMap : root.NoMapAt place)
    (setting : Setting)
    {rest : List Bytes}
    (hPlace : setting.place = place ++ rest)
    (hRest : rest ≠ []) :
    texts root setting = none := by
  rw [texts, hPlace, hNoMap.at?_append hRest]
  rfl

theorem keepsSections_of_settles
    {root : Yaml.Node}
    {config : Config}
    (hSettles : Settles reader root config) :
    KeepsSections root config where
  global hNoMap := by
    have hNone := texts_eq_none hNoMap
    simp [(settles_iff.mp hSettles).2, ofTexts,
      hNone .logLevel rfl, hNone .logPath rfl]
  storage hNoMap := by
    have hNone := texts_eq_none hNoMap
    simp [(settles_iff.mp hSettles).2, ofTexts,
      hNone .storagePath rfl, hNone .busyTimeout rfl]
  engine hNoMap := by
    have hNone := texts_eq_none hNoMap
    simp [(settles_iff.mp hSettles).2, ofTexts,
      hNone .maxDepth rfl, hNone .maxExpansions rfl,
      hNone .deadline rfl]
  cache hNoMap := by
    have hNone := texts_eq_none hNoMap
    simp [(settles_iff.mp hSettles).2, ofTexts, portOr,
      hNone .cacheEnabled rfl, hNone .nearItems rfl,
      hNone .nearLifetime rfl, hNone .sharedLifetime rfl,
      hNone .filterItems rfl, hNone .filterRate rfl,
      hNone .serverEnabled rfl, hNone .host rfl,
      hNone .port rfl, hNone .timeout rfl, hNone .keyStart rfl]
  server hNoMap := by
    have hNone := texts_eq_none hNoMap
    simp [(settles_iff.mp hSettles).2, ofTexts, portOr,
      hNone .serverEnabled rfl, hNone .host rfl,
      hNone .port rfl, hNone .timeout rfl, hNone .keyStart rfl]

------------------------------------------------------------
-- Single Settings
------------------------------------------------------------

/-
  A document with one value replaced by one that is refused
  asks for the same settings, but for this one.
-/
theorem settles_replace
    {root new : Yaml.Node}
    {config other : Config}
    {setting : Setting}
    (hSettles : Settles reader root config)
    (hRefuses : setting.Refuses reader new)
    (hOther :
      Settles reader (root.replace setting.place new) other) :
    other = setting.reset config := by
  rw [(settles_iff.mp hOther).2, texts_replace,
    (settles_iff.mp hSettles).2]
  refine ofTexts_update (texts root) setting fun bytes hBytes => ?_
  rcases Option.bind_eq_some_iff.mp hBytes with ⟨_, _, hText⟩
  exact hRefuses bytes hText

/-
  Settings that are loaded keep all rules, have the defaults
  of sections that are no maps, and do not depend on each
  other.
-/
theorem loaded_settings_apart
    {origin text : Bytes}
    {config : Config}
    (hLoad : (loadBy reader origin text).value = .ok config) :
    config.Valid ∧
      ∃ root,
        reader.document? text = some root ∧
          KeepsSections root config ∧
          ∀ setting new changed other,
            Setting.Refuses reader setting new →
            reader.document? changed =
              some (root.replace setting.place new) →
            (loadBy reader origin changed).value = .ok other →
              other = setting.reset config := by
  rcases loadBy_ok_iff.mp hLoad with ⟨root, hRead, hSettles, hValid⟩
  refine ⟨hValid, root, hRead,
    keepsSections_of_settles hSettles, ?_⟩
  intro setting new changed other hRefuses hChanged hOther
  rcases loadBy_ok_iff.mp hOther with
    ⟨changedRoot, hChangedRead, hChangedSettles, _⟩
  rw [hChanged] at hChangedRead
  cases hChangedRead
  exact settles_replace hSettles hRefuses hChangedSettles

/- A document with two limits, one of them of any wording. -/
def limitsText (depth : String) : Bytes :=
  utf8 "engine:\n  max_depth: " ++ utf8 depth ++
    utf8 "\n  max_expansions: 7\n"

/- What the document says. -/
def limits (depth : String) : List (Bytes × Yaml.Node) :=
  [(utf8 "engine",
    .map [(utf8 "max_depth", .scalar (utf8 depth)),
      (utf8 "max_expansions", .scalar (utf8 "7"))])]

/- A depth that is no number leaves the other limit as it is. -/
theorem wordy_depth_at_default :
    ∃ config other,
      (loadBy simpleReader [] (limitsText "10")).value =
          .ok config ∧
        (loadBy simpleReader [] (limitsText "deep")).value =
            .ok other ∧
          config.engine.maxDepth = 10 ∧
            config.engine.maxExpansions = 7 ∧
              other = Setting.maxDepth.reset config := by
  have hRead :
      simpleReader.document? (limitsText "10") =
        some (.map (limits "10")) := by
    decide +kernel
  have hWordy :
      simpleReader.document? (limitsText "deep") =
        some (.map (limits "deep")) := by
    decide +kernel
  have hLoad := loadBy_map [] hRead (by decide +kernel)
  have hOther := loadBy_map [] hWordy (by decide +kernel)
  refine ⟨_, _, hLoad, hOther, by decide +kernel,
    by decide +kernel, ?_⟩
  rcases loaded_settings_apart hLoad with
    ⟨_, root, hRoot, _, hApart⟩
  cases hRead.symm.trans hRoot
  refine hApart .maxDepth (.scalar (utf8 "deep")) _ _ ?_
    hWordy hOther
  rintro text ⟨⟩
  change ¬ (readWord? (utf8 "deep")).isSome
  decide +kernel

end Config

end Rebac
