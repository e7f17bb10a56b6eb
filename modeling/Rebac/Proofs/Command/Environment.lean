import Rebac.Command.Run
import Rebac.Proofs.Config.Setting

/-
  This file proves which rules are kept by settings that the
  environment has changed.

  Settings keep all rules when they are loaded, and are not
  looked at again after that. All rules but two are kept in
  any case: a level of the environment may be unknown, and an
  empty name of a server may enable one that has no name.

  Key definitions include:
    * `Environment.Starts`
    * `Environment.KnowsLevel`
    * `Environment.NamesServer`

  Key theorems include:
    * `Environment.valid_apply_iff`
    * `Config.run_fromHost`
    * `Config.effective_valid_iff`
-/

namespace Rebac

namespace Environment

variable {environment : Environment} {config : Config}

------------------------------------------------------------
-- Rules
------------------------------------------------------------

/- A level that the environment gives is known. -/
def KnowsLevel (environment : Environment) : Prop :=
  ∀ level,
    given environment.logLevel = some level →
      level ∈ Config.logLevels

/-
  Settings whose server is enabled by an empty name have a
  name for it.
-/
def NamesServer
    (environment : Environment)
    (config : Config) : Prop :=
  environment.serverHost = some [] →
    config.cache.server.host ≠ []

instance (environment : Environment) :
    Decidable environment.KnowsLevel :=
  inferInstanceAs
    (Decidable
      (∀ level ∈ given environment.logLevel,
        level ∈ Config.logLevels))

instance (environment : Environment) (config : Config) :
    Decidable (environment.NamesServer config) :=
  inferInstanceAs
    (Decidable
      (environment.serverHost = some [] →
        config.cache.server.host ≠ []))

@[simp]
theorem given_nil : given (some []) = none := rfl

@[simp]
theorem given_cons (byte : UInt8) (rest : Bytes) :
    given (some (byte :: rest)) = some (byte :: rest) := rfl

/- A value that is given is not empty. -/
theorem getD_given_ne_nil
    {setting : Option Bytes}
    {default : Bytes}
    (hDefault : default ≠ []) :
    (given setting).getD default ≠ [] := by
  cases hGiven : given setting with
  | none => exact hDefault
  | some value =>
      rw [given, Option.filter_eq_some_iff] at hGiven
      exact of_decide_eq_true hGiven.2

theorem logLevel_apply_mem_iff
    (hLevel : config.global.logLevel ∈ Config.logLevels) :
    (environment.apply config).global.logLevel ∈
        Config.logLevels ↔
      environment.KnowsLevel := by
  unfold apply KnowsLevel
  cases given environment.logLevel with
  | none => simp [hLevel]
  | some level => simp

/-
  An enabled server has a name, unless it is enabled by an
  empty one.
-/
theorem host_apply_iff
    (hHost :
      config.cache.server.enabled = true →
        config.cache.server.host ≠ []) :
    ((environment.apply config).cache.server.enabled = true →
        (environment.apply config).cache.server.host ≠ []) ↔
      environment.NamesServer config := by
  unfold apply applyServer NamesServer
  rcases environment.serverHost with _ | _ | ⟨byte, rest⟩
  · simpa [given] using hHost
  · simp
  · simp

/-
  Of settings that keep all rules, those that the environment
  asks for keep them as well exactly if the level is known
  and the server has a name.
-/
theorem valid_apply_iff (hValid : config.Valid) :
    (environment.apply config).Valid ↔
      environment.KnowsLevel ∧ environment.NamesServer config := by
  constructor
  · intro hApplied
    exact ⟨(logLevel_apply_mem_iff hValid.logLevel).mp
        hApplied.logLevel,
      (host_apply_iff hValid.host).mp hApplied.host⟩
  · rintro ⟨hKnown, hNamed⟩
    exact {
      logLevel :=
        (logLevel_apply_mem_iff hValid.logLevel).mpr hKnown
      path := getD_given_ne_nil hValid.path
      maxDepth := hValid.maxDepth
      maxExpansions := hValid.maxExpansions
      nearItems := hValid.nearItems
      filterRate := hValid.filterRate
      filterItems := hValid.filterItems
      host := (host_apply_iff hValid.host).mpr hNamed }

------------------------------------------------------------
-- Files
------------------------------------------------------------

/-
  The settings that a run starts with: those of the file that
  the environment names, which has to be there and to load,
  or else the defaults.
-/
def Starts
    (reader : Yaml.Reader)
    (environment : Environment)
    (directory : Directory)
    (loaded : Config) : Prop :=
  match environment.configPath with
  | none => loaded = {}
  | some path =>
      ∃ text,
        directory.contents? path = some text ∧
          (Config.loadBy reader
            (Directory.fullPath (directory.follow path))
            text).value = .ok loaded

variable {reader : Yaml.Reader}

theorem Starts.valid
    {directory : Directory}
    {loaded : Config}
    (hStarts : environment.Starts reader directory loaded) :
    loaded.Valid := by
  unfold Starts at hStarts
  cases hPath : environment.configPath with
  | none =>
      rw [hPath] at hStarts
      exact hStarts ▸ Config.valid_default
  | some path =>
      rw [hPath] at hStarts
      rcases hStarts with ⟨text, _, hLoad⟩
      exact (Config.loadBy_ok_iff.mp hLoad).choose_spec.2.2

end Environment

namespace Config

variable {reader : Yaml.Reader}

/- The environment is applied to the settings of a start. -/
theorem run_fromHost
    {environment : Environment}
    {directory : Directory}
    {loaded : Config}
    (hStarts : environment.Starts reader directory loaded) :
    ((fromHost reader Directory.host environment).run
        directory).1 =
      .ok (environment.apply loaded) := by
  unfold Environment.Starts at hStarts
  unfold fromHost
  cases hPath : environment.configPath with
  | none =>
      rw [hPath] at hStarts
      rw [show loaded = {} from hStarts]
      rfl
  | some path =>
      rw [hPath] at hStarts
      rcases hStarts with ⟨text, hText, hLoad⟩
      simp [Directory.host, hText, hLoad, Except.map]
      rfl

/-
  Settings always come out of a start, and they keep all
  rules exactly if the level that the environment gives is
  known and it enables no server without a name.
-/
theorem effective_valid_iff
    {environment : Environment}
    {directory : Directory}
    {loaded : Config}
    (hStarts : environment.Starts reader directory loaded) :
    ∃ effective,
      ((fromHost reader Directory.host environment).run
          directory).1 =
          .ok effective ∧
        (effective.Valid ↔
          environment.KnowsLevel ∧
            environment.NamesServer loaded) :=
  ⟨environment.apply loaded, run_fromHost hStarts,
    Environment.valid_apply_iff hStarts.valid⟩

/- A directory with a file that gives a server no name. -/
def nameless : Directory where
  place := []
  files :=
    [([utf8 "authz.yaml"],
      utf8 "cache:\n  valkey:\n    host: ''\n")]

/- What the file says. -/
def namelessEntries : List (Bytes × Yaml.Node) :=
  [(utf8 "cache", .map [(utf8 "valkey",
    .map [(utf8 "host", .scalar [])])])]

/- An environment that names the file, a level and a server. -/
def naming (level host : String) : Environment where
  config := some (utf8 "authz.yaml")
  logLevel := some (utf8 level)
  serverHost := some (utf8 host)

theorem starts_naming (level host : String) :
    (naming level host).Starts simpleReader nameless
      (ofTexts simpleReader
        (texts (.map namelessEntries))) := by
  have hPath :
      (naming level host).configPath =
        some (utf8 "authz.yaml") := by
    rfl
  have hRead :
      simpleReader.document?
          (utf8 "cache:\n  valkey:\n    host: ''\n") =
        some (.map namelessEntries) := by
    decide +kernel
  rw [Environment.Starts, hPath]
  exact ⟨utf8 "cache:\n  valkey:\n    host: ''\n",
    by decide +kernel, loadBy_map _ hRead (by decide +kernel)⟩

/- A server that the environment names makes up for the file. -/
theorem named_server_effective :
    ∃ effective,
      ((fromHost simpleReader Directory.host
            (naming "debug" "cache.local")).run nameless).1 =
          .ok effective ∧
        effective.Valid := by
  rcases effective_valid_iff
      (starts_naming "debug" "cache.local") with
    ⟨effective, hRun, hIff⟩
  exact ⟨effective, hRun,
    hIff.mpr ⟨by decide +kernel, by decide +kernel⟩⟩

/-
  An empty name enables the server of a file that gives it
  none, although the file itself could not do so, and a level
  that no file could set is set.
-/
theorem unchecked_effective :
    (∃ effective,
        ((fromHost simpleReader Directory.host
              (naming "debug" "")).run nameless).1 =
            .ok effective ∧
          effective.cache.server.enabled = true ∧
            effective.cache.server.host = [] ∧
              ¬ effective.Valid) ∧
      ∃ effective,
        ((fromHost simpleReader Directory.host
              (naming "loud" "cache.local")).run nameless).1 =
            .ok effective ∧
          effective.global.logLevel = utf8 "loud" ∧
            ¬ effective.Valid :=
  ⟨⟨_, run_fromHost (starts_naming "debug" ""),
      by decide +kernel, by decide +kernel, by decide +kernel⟩,
    ⟨_, run_fromHost (starts_naming "loud" "cache.local"),
      by decide +kernel, by decide +kernel⟩⟩

end Config

end Rebac
