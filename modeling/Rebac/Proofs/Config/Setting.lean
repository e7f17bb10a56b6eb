import Mathlib.Logic.Function.Basic
import Rebac.Proofs.Config.Valid
import Rebac.Proofs.Yaml.Node

/-
  This file proves that each setting is read from the text at
  its own place, whatever else the document says, and keeps
  its default if there is no text or none of its kind.

  Key definitions include:
    * `Config.Setting`
    * `Config.Setting.place`
    * `Config.Setting.Accepts`
    * `Config.Setting.reset`
    * `Config.ofTexts`

  Key theorems include:
    * `Config.ofNode_value`
    * `Config.ofTexts_update`
    * `Config.texts_replace`
    * `Config.loadBy_map`
-/

namespace Rebac

namespace Config

------------------------------------------------------------
-- Settings
------------------------------------------------------------

/- The settings of a document. -/
inductive Setting where
  | logLevel
  | logPath
  | storagePath
  | busyTimeout
  | maxDepth
  | maxExpansions
  | deadline
  | cacheEnabled
  | nearItems
  | nearLifetime
  | sharedLifetime
  | filterItems
  | filterRate
  | serverEnabled
  | host
  | port
  | timeout
  | keyStart
  deriving DecidableEq, Repr

namespace Setting

/- The keys under which a setting stands. -/
def keys : Setting → List String
  | .logLevel => ["global", "log_level"]
  | .logPath => ["global", "log_path"]
  | .storagePath => ["database", "path"]
  | .busyTimeout => ["database", "busy_timeout_ms"]
  | .maxDepth => ["engine", "max_depth"]
  | .maxExpansions => ["engine", "max_expansions"]
  | .deadline => ["engine", "default_deadline_ms"]
  | .cacheEnabled => ["cache", "enabled"]
  | .nearItems => ["cache", "l1_max_items"]
  | .nearLifetime => ["cache", "l1_ttl_ms"]
  | .sharedLifetime => ["cache", "l2_ttl_sec"]
  | .filterItems => ["cache", "bloom_expected_items"]
  | .filterRate => ["cache", "bloom_false_positive_rate"]
  | .serverEnabled => ["cache", "valkey", "enabled"]
  | .host => ["cache", "valkey", "host"]
  | .port => ["cache", "valkey", "port"]
  | .timeout => ["cache", "valkey", "timeout_ms"]
  | .keyStart => ["cache", "valkey", "key_prefix"]

/- The place of a setting in a document. -/
def place (setting : Setting) : List Bytes :=
  setting.keys.map utf8

/-
  Whether a text is a value of a setting for a reader. A
  port has to be a number that a server can have.
-/
def Accepts (reader : Yaml.Reader) : Setting → Bytes → Prop
  | .logLevel, _ | .logPath, _ | .storagePath, _ | .host, _
  | .keyStart, _ => True
  | .cacheEnabled, text | .serverEnabled, text =>
      (reader.switch? text).isSome
  | .filterRate, text => (reader.rate? text).isSome
  | .port, text =>
      ∃ number, reader.word? text = some number ∧
        number ≠ 0 ∧ number ≤ 65535
  | _, text => (reader.word? text).isSome

/-
  A node that is no value of a setting: null, a list, a map,
  or a text that the setting does not accept.
-/
def Refuses
    (reader : Yaml.Reader)
    (setting : Setting)
    (node : Yaml.Node) : Prop :=
  ∀ text,
    node.text? = some text → ¬ setting.Accepts reader text

/- The settings with one of them at its default. -/
def reset (setting : Setting) (config : Config) : Config :=
  let default : Config := {}
  match setting with
  | .logLevel =>
      { config with global.logLevel := default.global.logLevel }
  | .logPath =>
      { config with global.logPath := default.global.logPath }
  | .storagePath =>
      { config with storage.path := default.storage.path }
  | .busyTimeout =>
      { config with
        storage.busyTimeout := default.storage.busyTimeout }
  | .maxDepth =>
      { config with engine.maxDepth := default.engine.maxDepth }
  | .maxExpansions =>
      { config with
        engine.maxExpansions := default.engine.maxExpansions }
  | .deadline =>
      { config with engine.deadline := default.engine.deadline }
  | .cacheEnabled =>
      { config with cache.enabled := default.cache.enabled }
  | .nearItems =>
      { config with cache.nearItems := default.cache.nearItems }
  | .nearLifetime =>
      { config with
        cache.nearLifetime := default.cache.nearLifetime }
  | .sharedLifetime =>
      { config with
        cache.sharedLifetime := default.cache.sharedLifetime }
  | .filterItems =>
      { config with cache.filterItems := default.cache.filterItems }
  | .filterRate =>
      { config with cache.filterRate := default.cache.filterRate }
  | .serverEnabled =>
      { config with
        cache.server.enabled := default.cache.server.enabled }
  | .host =>
      { config with cache.server.host := default.cache.server.host }
  | .port =>
      { config with cache.server.port := default.cache.server.port }
  | .timeout =>
      { config with
        cache.server.timeout := default.cache.server.timeout }
  | .keyStart =>
      { config with
        cache.server.keyStart := default.cache.server.keyStart }

end Setting

------------------------------------------------------------
-- Texts
------------------------------------------------------------

/- A port keeps its default unless the number is a port. -/
def portOr
    (read? : Bytes → Option Nat)
    (default : Nat)
    (text : Option Bytes) : Nat :=
  let number := (text.bind read?).getD default
  if number = 0 ∨ 65535 < number then default else number

/- The settings that are read from a text for each of them. -/
def ofTexts
    (reader : Yaml.Reader)
    (text? : Setting → Option Bytes) : Config :=
  let default : Config := {}
  let word (setting : Setting) (default : Nat) : Nat :=
    ((text? setting).bind reader.word?).getD default
  { global :=
      { logLevel := (text? .logLevel).getD default.global.logLevel
        logPath := (text? .logPath).getD default.global.logPath }
    storage :=
      { path := (text? .storagePath).getD default.storage.path
        busyTimeout :=
          word .busyTimeout default.storage.busyTimeout }
    engine :=
      { maxDepth := word .maxDepth default.engine.maxDepth
        maxExpansions :=
          word .maxExpansions default.engine.maxExpansions
        deadline := word .deadline default.engine.deadline }
    cache :=
      { enabled :=
          ((text? .cacheEnabled).bind reader.switch?).getD
            default.cache.enabled
        nearItems := word .nearItems default.cache.nearItems
        nearLifetime :=
          word .nearLifetime default.cache.nearLifetime
        sharedLifetime :=
          word .sharedLifetime default.cache.sharedLifetime
        filterItems := word .filterItems default.cache.filterItems
        filterRate :=
          ((text? .filterRate).bind reader.rate?).getD
            default.cache.filterRate
        server :=
          { enabled :=
              ((text? .serverEnabled).bind reader.switch?).getD
                default.cache.server.enabled
            host := (text? .host).getD default.cache.server.host
            port :=
              portOr reader.word? default.cache.server.port
                (text? .port)
            timeout := word .timeout default.cache.server.timeout
            keyStart :=
              (text? .keyStart).getD
                default.cache.server.keyStart } } }

/- The text of a document for each setting. -/
def texts (root : Yaml.Node) (setting : Setting) : Option Bytes :=
  (root.at? setting.place).bind Yaml.Node.text?

/- Only the text of a node counts for its value. -/
theorem readSetting_value
    {Value : Type}
    (read? : Bytes → Option Value)
    (key : Bytes)
    (default : Value)
    (node : Option Yaml.Node) :
    (readSetting read? key default node).value =
      ((node.bind Yaml.Node.text?).bind read?).getD default := by
  rcases node with _ | (_ | text | items | entries)
  · rfl
  · rfl
  · change (readSetting read? key default
      (some (.scalar text))).value = (read? text).getD default
    rw [readSetting]
    cases read? text <;> rfl
  · rfl
  · rfl

theorem readPort_value
    (read? : Bytes → Option Nat)
    (key : Bytes)
    (default : Nat)
    (node : Option Yaml.Node) :
    (readPort read? key default node).value =
      portOr read? default (node.bind Yaml.Node.text?) := by
  unfold readPort portOr
  dsimp only
  rw [readSetting_value]
  split <;> simp [readSetting_value]

variable {reader : Yaml.Reader}

/- The settings of a document are those of its texts. -/
theorem ofNode_value (root : Yaml.Node) :
    (ofNode reader root).value = ofTexts reader (texts root) := by
  simp only [ofNode, Global.ofSection, Storage.ofSection,
    Engine.ofSection, Cache.ofSection, Server.ofSection,
    Section.read, readSetting_value, readPort_value,
    Section.ofNode, Section.inner, Section.get?, ofTexts, texts,
    Setting.place, Setting.keys, List.map_cons, List.map_nil,
    Yaml.Node.at?, Option.bind_assoc,
    Option.bind_fun_some]

/- A text that is refused gives no value. -/
theorem bind_eq_none_of_refused
    {Value : Type}
    {read? : Bytes → Option Value}
    {text : Option Bytes}
    (hRefused :
      ∀ bytes, text = some bytes → ¬ (read? bytes).isSome) :
    text.bind read? = none := by
  cases text with
  | none => rfl
  | some bytes =>
      exact Option.not_isSome_iff_eq_none.mp (hRefused bytes rfl)

theorem portOr_of_refused
    {read? : Bytes → Option Nat}
    {default : Nat}
    {text : Option Bytes}
    (hRefused :
      ∀ bytes, text = some bytes →
        ¬ ∃ number, read? bytes = some number ∧
          number ≠ 0 ∧ number ≤ 65535) :
    portOr read? default text = default := by
  unfold portOr
  dsimp only
  split
  · rfl
  · next hPort =>
      cases hNumber : text.bind read? with
      | none => rfl
      | some number =>
          rcases Option.bind_eq_some_iff.mp hNumber with
            ⟨bytes, hBytes, hRead⟩
          rw [hNumber, Option.getD_some, not_or, Nat.not_lt] at hPort
          exact absurd ⟨number, hRead, hPort⟩
            (hRefused bytes hBytes)

/-
  Where a text that a setting refuses takes the place of
  another one, the setting is at its default, and all others
  are what they were.
-/
theorem ofTexts_update
    (text? : Setting → Option Bytes)
    (setting : Setting)
    {text : Option Bytes}
    (hRefused :
      ∀ bytes, text = some bytes →
        ¬ setting.Accepts reader bytes) :
    ofTexts reader (Function.update text? setting text) =
      setting.reset (ofTexts reader text?) := by
  cases setting with
  | logLevel | logPath | storagePath | host | keyStart =>
      -- Such a setting accepts every text, so there is none.
      have hText : text = none :=
        Option.eq_none_iff_forall_ne_some.mpr
          fun bytes hBytes => hRefused bytes hBytes trivial
      simp [ofTexts, Setting.reset, hText]
  | cacheEnabled | serverEnabled | filterRate =>
      have hValue := bind_eq_none_of_refused hRefused
      simp [ofTexts, Setting.reset, hValue]
  | port =>
      have hValue :
          portOr reader.word? ({} : Config).cache.server.port
              text =
            ({} : Config).cache.server.port :=
        portOr_of_refused hRefused
      simp [ofTexts, Setting.reset, hValue]
  | busyTimeout | maxDepth | maxExpansions | deadline
  | nearItems | nearLifetime | sharedLifetime | filterItems
  | timeout =>
      have hValue := bind_eq_none_of_refused hRefused
      simp [ofTexts, Setting.reset, hValue]

------------------------------------------------------------
-- Documents
------------------------------------------------------------

/- No setting stands on the way to another one. -/
theorem Setting.apart
    {first second : Setting}
    (hOther : first ≠ second) :
    Yaml.Node.Apart first.place second.place := by
  have hAll :
      ∀ first second : Setting,
        first = second ∨
          Yaml.Node.Apart first.place second.place := by
    intro first second
    cases first <;> cases second <;> decide
  exact (hAll first second).resolve_left hOther

/- The texts of a document in which one value was replaced. -/
theorem texts_replace
    (setting : Setting)
    (root new : Yaml.Node) :
    texts (root.replace setting.place new) =
      Function.update (texts root) setting
        ((root.at? setting.place).bind fun _ => new.text?) := by
  funext other
  by_cases hOther : other = setting
  · subst hOther
    rw [Function.update_self, texts, Yaml.Node.at?_replace_self]
    cases root.at? other.place <;> rfl
  · rw [Function.update_of_ne hOther, texts,
      Yaml.Node.at?_replace_apart (Setting.apart (Ne.symm hOther))]
    rfl

/- What a document asks for is a matter of its texts. -/
theorem settles_iff
    {root : Yaml.Node}
    {config : Config} :
    Settles reader root config ↔
      (root = .null ∨ ∃ entries, root = .map entries) ∧
        config = ofTexts reader (texts root) := by
  cases root with
  | null =>
      have hDefault : ofTexts reader (texts .null) = {} := by
        rw [← ofNode_value]
        rfl
      simp [Settles, hDefault]
  | map entries => simp [Settles, ofNode_value]
  | scalar text => simp [Settles]
  | list items => simp [Settles]

/- A document with settings that keep all rules is loaded. -/
theorem loadBy_map
    {text : Bytes}
    {entries : List (Bytes × Yaml.Node)}
    (origin : Bytes)
    (hRead : reader.document? text = some (.map entries))
    (hValid : (ofTexts reader (texts (.map entries))).Valid) :
    (loadBy reader origin text).value =
      .ok (ofTexts reader (texts (.map entries))) :=
  loadBy_ok_iff.mpr
    ⟨_, hRead, settles_iff.mpr ⟨.inr ⟨_, rfl⟩, rfl⟩, hValid⟩

end Config

end Rebac
