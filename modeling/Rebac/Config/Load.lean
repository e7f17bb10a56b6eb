import Rebac.Config.Basic
import Rebac.Decimal.Text
import Rebac.Yaml.Node

/-
  This file defines how settings are read from a document,
  whatever it is that reads the document and its values.

  A setting that is missing keeps its default. So does one
  whose value is not of its kind, with a warning. Settings
  that break a rule are refused as a whole.

  Key definitions include:
    * `Config.Warning`
    * `Config.Warning.message`
    * `Config.Fault`
    * `Config.Fault.message`
    * `Config.Reading`
    * `Config.readSetting`
    * `Config.ofNode`
    * `Config.ofDocument`
    * `Config.loadBy`
-/

namespace Rebac

namespace Config

------------------------------------------------------------
-- Reports
------------------------------------------------------------

/- A setting that keeps its default. -/
inductive Warning where
  | notScalar (key : Bytes)
  | unreadable (key value : Bytes)
  | invalidPort (key : Bytes) (value default : Nat)
  deriving DecidableEq, Repr

/- Why no settings were loaded. -/
inductive Fault where
  | notMap (origin : Bytes)
  | malformed (origin : Bytes)
  | unresolved (path : Bytes)
  | problem (broken : Problem)
  deriving Repr

/- What all reports on settings begin with. -/
def reportStart : Bytes :=
  utf8 "config_loader: "

/- A text in single quotes. -/
def quoted (text : Bytes) : Bytes :=
  utf8 "'" ++ text ++ utf8 "'"

/- The wording of a warning. -/
def Warning.message : Warning → Bytes
  | .notScalar key =>
      reportStart ++ quoted key ++
        utf8 " is not a scalar, using default"
  | .unreadable key value =>
      reportStart ++ utf8 "cannot parse " ++ quoted key ++
        utf8 " value " ++ quoted value ++ utf8 ", using default"
  | .invalidPort key value default =>
      reportStart ++ quoted key ++ utf8 " value " ++
        Numeral.ofNat value ++
        utf8 " is not a valid port, using " ++
        Numeral.ofNat default

/- The wording of a problem. -/
def Problem.message : Problem → Bytes
  | .unknownLevel level =>
      utf8 "global.log_level " ++ quoted level ++
        utf8 " is not a valid level"
  | .emptyPath => utf8 "database.path must not be empty"
  | .zeroDepth =>
      utf8 "engine.max_depth must be greater than 0"
  | .zeroExpansions =>
      utf8 "engine.max_expansions must be greater than 0"
  | .zeroNearItems =>
      utf8 "cache.l1_max_items must be greater than 0"
  | .rateOutside rate =>
      utf8 "cache.bloom_false_positive_rate " ++
        Decimal.ofFloat rate ++ utf8 " must be in (0, 1)"
  | .zeroFilterItems =>
      utf8 "cache.bloom_expected_items must be greater than 0"
  | .emptyHost =>
      utf8 "cache.valkey.host must not be empty " ++
        utf8 "when valkey is enabled"

/- The wording of a fault. -/
def Fault.message : Fault → Bytes
  | .notMap origin =>
      reportStart ++ quoted origin ++
        utf8 " is not a valid YAML map (top-level)"
  | .malformed origin =>
      reportStart ++ utf8 "YAML error in " ++ quoted origin
  | .unresolved path =>
      reportStart ++ utf8 "cannot resolve config path " ++
        quoted path ++ utf8 ": No such file or directory"
  | .problem broken => reportStart ++ broken.message

------------------------------------------------------------
-- Settings
------------------------------------------------------------

/- A value that was read, with the warnings on the way. -/
structure Reading (Value : Type) where
  value : Value
  warnings : List Warning := []

/- Reads the value of a setting, or keeps its default. -/
def readSetting
    {Value : Type}
    (read? : Bytes → Option Value)
    (key : Bytes)
    (default : Value)
    (node : Option Yaml.Node) : Reading Value :=
  match node with
  | none => { value := default }
  | some .null => { value := default }
  | some (.scalar text) =>
      match read? text with
      | some value => { value := value }
      | none =>
          { value := default
            warnings := [.unreadable key text] }
  | some _ =>
      { value := default
        warnings := [.notScalar key] }

/- Reads a port, which is a number from 1 to 65535. -/
def readPort
    (read? : Bytes → Option Nat)
    (key : Bytes)
    (default : Nat)
    (node : Option Yaml.Node) : Reading Nat :=
  let number := readSetting read? key default node
  if number.value = 0 ∨ 65535 < number.value then
    { value := default
      warnings :=
        number.warnings ++
          [.invalidPort key number.value default] }
  else
    number

------------------------------------------------------------
-- Sections
------------------------------------------------------------

/-
  A section of a document: the node of a setting by its name
  and the start of the keys that reports show.
-/
structure Section where
  start : Bytes
  node : Option Yaml.Node

namespace Section

/- The section of the given name inside a node. -/
def ofNode (root : Yaml.Node) (name : String) : Section :=
  { start := utf8 name
    node := root.get? (utf8 name) }

/- The node of a setting or of an inner section. -/
def get? (part : Section) (name : String) : Option Yaml.Node :=
  part.node.bind fun node => node.get? (utf8 name)

/- The key of a setting as reports show it. -/
def key (part : Section) (name : String) : Bytes :=
  part.start ++ utf8 "." ++ utf8 name

/- A section inside another one. -/
def inner (part : Section) (name : String) : Section :=
  { start := part.key name
    node := part.get? name }

/- Reads a setting of a section. -/
def read
    {Value : Type}
    (part : Section)
    (name : String)
    (read? : Bytes → Option Value)
    (default : Value) : Reading Value :=
  readSetting read? (part.key name) default (part.get? name)

end Section

/- Reads what is logged, and where to. -/
def Global.ofSection (part : Section) : Reading Global :=
  let default : Global := {}
  let level := part.read "log_level" some default.logLevel
  let path := part.read "log_path" some default.logPath
  { value := { logLevel := level.value, logPath := path.value }
    warnings := level.warnings ++ path.warnings }

variable (reader : Yaml.Reader)

/- Reads where tuples and models are stored. -/
def Storage.ofSection (part : Section) : Reading Storage :=
  let default : Storage := {}
  let path := part.read "path" some default.path
  let busy :=
    part.read "busy_timeout_ms" reader.word? default.busyTimeout
  { value := { path := path.value, busyTimeout := busy.value }
    warnings := path.warnings ++ busy.warnings }

/- Reads the limits of an evaluation. -/
def Engine.ofSection (part : Section) : Reading Engine :=
  let default : Engine := {}
  let depth := part.read "max_depth" reader.word? default.maxDepth
  let expansions :=
    part.read "max_expansions" reader.word? default.maxExpansions
  let deadline :=
    part.read "default_deadline_ms" reader.word? default.deadline
  { value :=
      { maxDepth := depth.value
        maxExpansions := expansions.value
        deadline := deadline.value }
    warnings :=
      depth.warnings ++ expansions.warnings ++
        deadline.warnings }

/- Reads the server of the shared cache. -/
def Server.ofSection (part : Section) : Reading Server :=
  let default : Server := {}
  let enabled := part.read "enabled" reader.switch? default.enabled
  let host := part.read "host" some default.host
  let port :=
    readPort reader.word? (part.key "port") default.port
      (part.get? "port")
  let timeout := part.read "timeout_ms" reader.word? default.timeout
  let start := part.read "key_prefix" some default.keyStart
  { value :=
      { enabled := enabled.value
        host := host.value
        port := port.value
        timeout := timeout.value
        keyStart := start.value }
    warnings :=
      enabled.warnings ++ host.warnings ++ port.warnings ++
        timeout.warnings ++ start.warnings }

/- Reads the cache of decisions. -/
def Cache.ofSection (part : Section) : Reading Cache :=
  let default : Cache := {}
  let enabled := part.read "enabled" reader.switch? default.enabled
  let items :=
    part.read "l1_max_items" reader.word? default.nearItems
  let near := part.read "l1_ttl_ms" reader.word? default.nearLifetime
  let shared :=
    part.read "l2_ttl_sec" reader.word? default.sharedLifetime
  let expected :=
    part.read "bloom_expected_items" reader.word? default.filterItems
  let rate :=
    part.read "bloom_false_positive_rate" reader.rate?
      default.filterRate
  let server := Server.ofSection reader (part.inner "valkey")
  { value :=
      { enabled := enabled.value
        nearItems := items.value
        nearLifetime := near.value
        sharedLifetime := shared.value
        filterItems := expected.value
        filterRate := rate.value
        server := server.value }
    warnings :=
      enabled.warnings ++ items.warnings ++ near.warnings ++
        shared.warnings ++ expected.warnings ++
        rate.warnings ++ server.warnings }

------------------------------------------------------------
-- Documents
------------------------------------------------------------

/- Reads the settings of a map. -/
def ofNode (root : Yaml.Node) : Reading Config :=
  let global := Global.ofSection (Section.ofNode root "global")
  let storage :=
    Storage.ofSection reader (Section.ofNode root "database")
  let engine :=
    Engine.ofSection reader (Section.ofNode root "engine")
  let cache :=
    Cache.ofSection reader (Section.ofNode root "cache")
  { value :=
      { global := global.value
        storage := storage.value
        engine := engine.value
        cache := cache.value }
    warnings :=
      global.warnings ++ storage.warnings ++ engine.warnings ++
        cache.warnings }

/- Refuses settings that break a rule. -/
def accept (config : Config) : Except Fault Config :=
  match config.problem? with
  | none => .ok config
  | some broken => .error (.problem broken)

/-
  Reads the settings of a document. An empty document leaves
  all settings at their defaults.
-/
def ofDocument
    (origin : Bytes)
    (root : Yaml.Node) : Reading (Except Fault Config) :=
  match root with
  | .null => { value := .ok {} }
  | .map entries =>
      let config := ofNode reader (.map entries)
      { value := accept config.value
        warnings := config.warnings }
  | _ => { value := .error (.notMap origin) }

/- Loads the settings that a text holds. -/
def loadBy
    (origin : Bytes)
    (text : Bytes) : Reading (Except Fault Config) :=
  match reader.document? text with
  | none => { value := .error (.malformed origin) }
  | some root => ofDocument reader origin root

end Config

end Rebac
