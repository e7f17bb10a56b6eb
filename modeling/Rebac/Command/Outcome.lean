import Rebac.Command.Basic
import Rebac.Decimal.Text

/-
  This file defines what the program prints and how it ends.

  Key definitions include:
    * `ExitStatus`
    * `ExitStatus.number`
    * `Outcome`
    * `Outcome.ofResponse`
    * `Outcome.ofValidation`
-/

namespace Rebac

------------------------------------------------------------
-- Outcomes
------------------------------------------------------------

/- How the program ends. -/
inductive ExitStatus where
  | success
  | failure
  | misuse
  | aborted
  deriving DecidableEq, Repr

/- The number that the program ends with. -/
def ExitStatus.number : ExitStatus → UInt32
  | .success => 0
  | .failure => 1
  | .misuse => 2
  | .aborted => 3

/- How the program ends, its output and its error output. -/
structure Outcome where
  status : ExitStatus
  output : Bytes := []
  errors : Bytes := []
  deriving DecidableEq, Repr

namespace Outcome

/- Texts with a newline behind each. -/
def lines (texts : List Bytes) : Bytes :=
  texts.flatMap fun text => text ++ [10]

/- A success with the given lines. -/
def success (texts : List Bytes) : Outcome :=
  { status := .success
    output := lines texts }

/- A reported error. -/
def error (status : ExitStatus) (message : Bytes) : Outcome :=
  { status := status
    errors := lines [utf8 "error: " ++ message] }

/- A failure of the store. -/
def ofError (failure : StoreError) : Outcome :=
  error .failure failure.message

/- A file that is not there. -/
def unopened (path : Bytes) : Outcome :=
  error .failure (utf8 "cannot open '" ++ path ++ utf8 "'")

/- The usage of the program. -/
def usage (status : ExitStatus) : Outcome :=
  { status := status
    output := Command.usage }

/- What arguments that are no command come to. -/
def ofMisuse : Command.Misuse → Outcome
  | .unknown => usage .misuse
  | .invalidTxid text =>
      error .misuse (utf8 "invalid txid '" ++ text ++ utf8 "'")

/- What a request comes to that may fail. -/
def ofResult
    {Result : Type}
    (report : Result → Outcome)
    (result : Except StoreError Result) : Outcome :=
  match result with
  | .error failure => ofError failure
  | .ok result => report result

------------------------------------------------------------
-- Models
------------------------------------------------------------

/- Words with a space between them. -/
def spaced : List Bytes → Bytes
  | [] => []
  | [word] => word
  | word :: others => word ++ 32 :: spaced others

/- The mark of an active model. -/
def activeMark (active : Bool) : Bytes :=
  if active then utf8 " (active)" else []

/- Where a problem was found. -/
def place (diagnostic : Diagnostic) : Bytes :=
  diagnostic.type ++
    (match diagnostic.relation with
      | none => []
      | some relation => 35 :: relation) ++
    match diagnostic.position with
    | none => []
    | some (line, column) =>
        utf8 " (line " ++ Numeral.ofNat line ++
          utf8 ", column " ++ Numeral.ofNat column ++ utf8 ")"

/- A line for each problem that was found in a source. -/
def problems (compilation : Compilation) : List Bytes :=
  let line (label : String) (diagnostic : Diagnostic) : Bytes :=
    utf8 label ++ utf8 ": " ++ place diagnostic ++ utf8 ": " ++
      diagnostic.message
  compilation.errors.map (line "error") ++
    compilation.warnings.map (line "warning")

/- The outcome of validating a source. -/
def ofValidation (compilation : Compilation) : Outcome :=
  let succeeded := compilation.succeeded
  { status := if succeeded then .success else .failure
    output := lines (problems compilation ++
      [utf8 (if succeeded then "valid" else "invalid")]) }

/- The outcome of storing a model. -/
def ofCreation (active : Bool) (creation : ModelCreation) : Outcome :=
  let texts := problems creation.compilation
  match creation.model with
  | none =>
      { status := .failure
        output := lines texts }
  | some model =>
      success (texts ++
        [spaced [utf8 "model", model.id, utf8 "version",
          model.version] ++ activeMark active])

/- The outcome of activating a model. -/
def ofActivation (model : Model) : Outcome :=
  success
    [spaced [utf8 "Model", model.version, utf8 "activated"]]

/- The outcome of reading a model. -/
def ofModel (model : Model) : Outcome :=
  { status := .success
    output :=
      lines [spaced [utf8 "# model", model.id, utf8 "version",
        model.version] ++ activeMark model.active] ++
        model.source }

/- The outcome of listing models. -/
def ofModels (models : List Model) : Outcome :=
  success (models.map fun model =>
    spaced [model.id, model.version, utf8 "schema",
      model.schema.version] ++ activeMark model.active)

------------------------------------------------------------
-- Tuples
------------------------------------------------------------

/- The outcome of a batch. -/
def ofReceipt (receipt : Receipt) : Outcome :=
  success
    [spaced [utf8 "txid", Numeral.ofInt receipt.txid,
      utf8 "written", Numeral.ofNat receipt.written,
      utf8 "deleted", Numeral.ofNat receipt.deleted]]

/- The outcome of a check. -/
def ofResponse (response : Response) : Outcome :=
  let decision := response.verdict.decision
  let line :=
    decision.name ++
      (match decision.abort? with
        | none => []
        | some abort =>
            utf8 " (" ++ abort.reason ++ utf8 ": " ++
              abort.detail ++ utf8 ")") ++
      utf8 " [cache " ++
      PermissionCache.sourceName response.source ++ utf8 "]"
  { status :=
      match decision with
      | .allowed => .success
      | .denied => .failure
      | .aborted _ => .aborted
    output := lines [line] }

/- The outcome of reading tuples. -/
def ofTuples (page : Page TupleKey) : Outcome :=
  success
    (page.items.map (fun key =>
      spaced [key.user, key.relation, key.object]) ++
      page.next.toList.map fun token =>
        utf8 "next page token: " ++ token)

/- The outcome of listing objects or users. -/
def ofNames (page : Page Bytes) : Outcome :=
  success page.items

/- The outcome of reading the log of changes. -/
def ofChanges (changes : List Change) : Outcome :=
  success (changes.map fun change =>
    spaced [Numeral.ofInt change.txid, change.operation.text,
      change.tuple])

------------------------------------------------------------
-- Statistics
------------------------------------------------------------

/- What is told about a cache. -/
def cacheLine : Option PermissionCache.Statistics → Bytes
  | none => utf8 "cache: disabled"
  | some statistics =>
      utf8 "cache: l1 " ++ Numeral.ofNat statistics.nearSize ++
        utf8 " entries, hit rate " ++
        Decimal.fixed 3 statistics.hitRate ++
        utf8 ", bloom fill " ++
        Decimal.fixed 4 statistics.filterFill ++
        utf8 " fpr " ++
        Decimal.fixed 6 statistics.filterRate ++
        utf8 ", l2 " ++
        utf8 (if statistics.hasShared then "enabled"
          else "disabled")

/- What is told about the requests so far. -/
def requestLine (statistics : Statistics) : Bytes :=
  spaced
    [utf8 "checks:", Numeral.ofNat statistics.checks,
      utf8 "allowed:", Numeral.ofNat statistics.allowed,
      utf8 "denied:", Numeral.ofNat statistics.denied,
      utf8 "aborted:", Numeral.ofNat statistics.aborted,
      utf8 "tuple writes:",
      Numeral.ofNat statistics.tupleChanges]

/- The outcome of asking for statistics. -/
def ofStatistics
    (statistics : Statistics)
    (cache : Option PermissionCache.Statistics)
    (txid : Int) : Outcome :=
  success
    [utf8 "current txid: " ++ Numeral.ofInt txid,
      requestLine statistics, cacheLine cache]

end Outcome

end Rebac
