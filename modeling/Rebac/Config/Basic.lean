import Rebac.Bytes

/-
  This file defines the settings of the program, their
  defaults and the rules that they have to keep.

  Key definitions include:
    * `Config`
    * `Config.Valid`
    * `Config.Problem`
    * `Config.Problem.message`
    * `Config.problem?`
-/

namespace Rebac

namespace Config

------------------------------------------------------------
-- Sections
------------------------------------------------------------

/- What is logged, and where to. -/
structure Global where
  logLevel : Bytes := utf8 "info"
  logPath : Bytes := utf8 "/tmp/authz.log"
  deriving DecidableEq, Repr

/- Where tuples and models are stored. -/
structure Storage where
  path : Bytes := utf8 "authz.db"
  busyTimeout : Nat := 5000
  deriving DecidableEq, Repr

/-
  The limits of an evaluation. A deadline of zero
  milliseconds stands for none.
-/
structure Engine where
  maxDepth : Nat := 25
  maxExpansions : Nat := 10000
  deadline : Nat := 0
  deriving DecidableEq, Repr

/- The server of the shared cache. -/
structure Server where
  enabled : Bool := false
  host : Bytes := utf8 "127.0.0.1"
  port : Nat := 6379
  timeout : Nat := 50
  keyStart : Bytes := utf8 "authz:perm:"
  deriving DecidableEq, Repr

/- The cache of decisions. -/
structure Cache where
  enabled : Bool := true
  nearItems : Nat := 10000
  nearLifetime : Nat := 30000
  sharedLifetime : Nat := 300
  filterItems : Nat := 100000
  filterRate : Float := 0.01
  server : Server := {}
  deriving Repr

end Config

/- All settings. -/
structure Config where
  global : Config.Global := {}
  storage : Config.Storage := {}
  engine : Config.Engine := {}
  cache : Config.Cache := {}
  deriving Repr

namespace Config

------------------------------------------------------------
-- Rules
------------------------------------------------------------

/- The names of log levels. -/
def logLevels : List Bytes :=
  [utf8 "trace", utf8 "debug", utf8 "info", utf8 "warn",
    utf8 "error", utf8 "critical", utf8 "off"]

/- Settings that the program can work with. -/
structure Valid (config : Config) : Prop where
  logLevel : config.global.logLevel ∈ logLevels
  path : config.storage.path ≠ []
  maxDepth : config.engine.maxDepth ≠ 0
  maxExpansions : config.engine.maxExpansions ≠ 0
  nearItems : config.cache.nearItems ≠ 0
  filterRate :
    0.0 < config.cache.filterRate ∧ config.cache.filterRate < 1.0
  filterItems : config.cache.filterItems ≠ 0
  host :
    config.cache.server.enabled = true →
      config.cache.server.host ≠ []

/- A rule that settings break. -/
inductive Problem where
  | unknownLevel (level : Bytes)
  | emptyPath
  | zeroDepth
  | zeroExpansions
  | zeroNearItems
  | rateOutside (rate : Float)
  | zeroFilterItems
  | emptyHost
  deriving Repr

/- The first rule that settings break. -/
def problem? (config : Config) : Option Problem :=
  let cache := config.cache
  if config.global.logLevel ∉ logLevels then
    some (.unknownLevel config.global.logLevel)
  else if config.storage.path = [] then
    some .emptyPath
  else if config.engine.maxDepth = 0 then
    some .zeroDepth
  else if config.engine.maxExpansions = 0 then
    some .zeroExpansions
  else if cache.nearItems = 0 then
    some .zeroNearItems
  else if ¬ (0.0 < cache.filterRate ∧ cache.filterRate < 1.0) then
    some (.rateOutside cache.filterRate)
  else if cache.filterItems = 0 then
    some .zeroFilterItems
  else if cache.server.enabled = true ∧ cache.server.host = [] then
    some .emptyHost
  else
    none

end Config

end Rebac
