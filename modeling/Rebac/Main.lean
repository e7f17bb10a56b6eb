import Rebac.Command.Run
import Std.Time.DateTime.Timestamp

/-
  This file defines the program: it looks at the arguments,
  the environment and the clock, works with the files of the
  machine, and prints what comes out.

  Key definitions include:
    * `Machine.host`
    * `Machine.start`
    * `Machine.run`
    * `main`
-/

namespace Rebac

namespace Machine

------------------------------------------------------------
-- Files
------------------------------------------------------------

/- The text of a path; bytes that are no UTF-8 are dropped. -/
def pathText (path : Bytes) : String :=
  (String.fromUTF8? ⟨path.toArray⟩).getD ""

/- The result of an action, or a default if it fails. -/
def orElse
    {Result : Type}
    (default : Result)
    (action : IO Result) : IO Result := do
  try action
  catch _ => return default

/- The files of the machine. -/
def host : Host IO where
  locate path := orElse none do
    let place ← IO.FS.realPath (pathText path)
    return some (utf8 (toString place))
  read path := orElse none do
    let contents ← IO.FS.readBinFile (pathText path)
    return some contents.toList
  create path := orElse false do
    let _ ← IO.FS.Handle.mk (pathText path) .append
    return true
  write path contents :=
    IO.FS.writeBinFile (pathText path) ⟨contents.toArray⟩

/- Adds lines to a file, if it can be written. -/
def appendLines
    (path : Bytes)
    (lines : List Bytes) : IO Unit :=
  orElse () do
    let file ← IO.FS.Handle.mk (pathText path) .append
    file.write ⟨(Outcome.lines lines).toArray⟩

------------------------------------------------------------
-- Starting
------------------------------------------------------------

/- The value of a variable of the environment. -/
def readVariable (name : String) : IO (Option Bytes) := do
  return (← IO.getEnv name).map utf8

/- The variables of the environment. -/
def environment : IO Environment := do
  return {
    config := ← readVariable "AUTHZ_CONFIG"
    databasePath := ← readVariable "AUTHZ_DB_PATH"
    logLevel := ← readVariable "AUTHZ_LOG_LEVEL"
    serverHost := ← readVariable "VALKEY_HOST"
    serverPort := ← readVariable "VALKEY_PORT" }

/- The word that some bytes stand for. -/
def word (bytes : Bytes) : UInt64 :=
  bytes.foldl (fun sum byte => 256 * sum + byte.toUInt64) 0

/- A supply of identifiers that differs from run to run. -/
def ids : IO IdSource := do
  let random ← IO.getRandomBytes 16
  let low := word (random.toList.take 8)
  let high := word (random.toList.drop 8)
  return {
    words := fun drawn => (low + UInt64.ofNat drawn, high) }

/- What a run on this machine begins with. -/
def start : IO Start := do
  let now ← Std.Time.Timestamp.now
  return {
    environment := ← environment
    now := now.toMillisecondsSinceUnixEpoch.val
    ids := ← ids }

/- Writes a text to a stream. -/
def put (stream : IO.FS.Stream) (text : Bytes) : IO Unit := do
  stream.write ⟨text.toArray⟩
  stream.flush

/- Runs the program. -/
def run (arguments : List String) : IO UInt32 := do
  let ending ← Command.run host (← start) (arguments.map utf8)
  appendLines ending.logPath (ending.log.map AuditRecord.line)
  put (← IO.getStdout) ending.outcome.output
  put (← IO.getStderr) ending.outcome.errors
  return ending.outcome.status.number

end Machine

end Rebac

/- The program. -/
def main (arguments : List String) : IO UInt32 :=
  Rebac.Machine.run arguments
