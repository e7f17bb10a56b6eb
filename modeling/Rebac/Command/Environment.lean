import Rebac.Config.Load

/-
  This file defines the environment that the program is
  started in and how it changes the settings.

  A variable that is unset or empty changes nothing. Naming
  a server, even with an empty name, enables the shared
  cache.

  Key definitions include:
    * `Environment`
    * `Environment.configPath`
    * `Environment.apply`
-/

namespace Rebac

------------------------------------------------------------
-- Variables
------------------------------------------------------------

/- The variables that the program looks at. -/
structure Environment where
  config : Option Bytes := none
  databasePath : Option Bytes := none
  logLevel : Option Bytes := none
  serverHost : Option Bytes := none
  serverPort : Option Bytes := none
  deriving DecidableEq, Repr

namespace Environment

/- The value of a variable that is set and not empty. -/
def given (setting : Option Bytes) : Option Bytes :=
  setting.filter fun value => value ≠ []

/- The file that the settings are read from. -/
def configPath (environment : Environment) : Option Bytes :=
  given environment.config

/- Reads a port; a value that is no port gives none. -/
def readPort? (text : Bytes) : Option Nat :=
  ((Numeral.readInt32? text).filter fun port =>
    1 ≤ port && port ≤ 65535).map Int.toNat

/- The server that the environment asks for. -/
def applyServer
    (environment : Environment)
    (server : Config.Server) : Config.Server :=
  { server with
    host := (given environment.serverHost).getD server.host
    port := ((given environment.serverPort).bind readPort?).getD
      server.port
    enabled := environment.serverHost.isSome || server.enabled }

/- The settings that the environment asks for. -/
def apply
    (environment : Environment)
    (config : Config) : Config :=
  { config with
    storage :=
      { config.storage with
        path := (given environment.databasePath).getD
          config.storage.path }
    global :=
      { config.global with
        logLevel := (given environment.logLevel).getD
          config.global.logLevel }
    cache :=
      { config.cache with
        server := environment.applyServer config.cache.server } }

end Environment

end Rebac
