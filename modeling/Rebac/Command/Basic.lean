import Rebac.Service.Basic

/-
  This file defines the commands of the program and how they
  are read from its arguments.

  Arguments beyond those that a command needs are ignored.
  Where an argument is a filter, `-` and the empty text
  stand for no filter.

  Key definitions include:
    * `Command`
    * `Command.Misuse`
    * `Command.filter?`
    * `Command.pageToken`
    * `Command.readRequest`
    * `Command.parse`
    * `Command.usage`
-/

namespace Rebac

------------------------------------------------------------
-- Commands
------------------------------------------------------------

/- What the program can be asked to do. -/
inductive Command where
  | validate (path : Bytes)
  | applyModel (path : Bytes) (activate : Bool)
  | activate (id : Bytes)
  | readModel (version : Option Bytes)
  | listModels
  | write (key : TupleKey)
  | delete (key : TupleKey)
  | check (key : TupleKey) (txid : Option Int)
  | read (request : Service.ReadRequest)
  | listObjects (user relation type : Bytes)
  | listUsers (object relation : Bytes) (types : List Bytes)
  | changes (since : Int)
  | statistics
  deriving DecidableEq, Repr

namespace Command

/- Why arguments are no command. -/
inductive Misuse where
  | unknown
  | invalidTxid (text : Bytes)
  deriving DecidableEq, Repr

/- The file that a command reads. -/
def path? : Command → Option Bytes
  | .validate path => some path
  | .applyModel path _ => some path
  | _ => none

------------------------------------------------------------
-- Arguments
------------------------------------------------------------

/- The filter at a position, if one is given there. -/
def filter?
    (arguments : List Bytes)
    (position : Nat) : Option Bytes :=
  arguments[position]?.filter fun text =>
    text ≠ utf8 "-" && text ≠ []

/- The option that gives the token of a page. -/
def pageOption : Bytes :=
  utf8 "--page-token"

/-
  The argument behind the last option that gives the token
  of a page, or the given token if there is none.
-/
def pageToken (token : Bytes) : List Bytes → Bytes
  | first :: second :: rest =>
      pageToken
        (if first = pageOption then second else token)
        (second :: rest)
  | _ => token

/- The tuples that the arguments of a read ask for. -/
def readRequest (arguments : List Bytes) : Service.ReadRequest :=
  { user := filter? arguments 0
    relation := filter? arguments 1
    object := filter? arguments 2
    token := pageToken [] arguments }

/- Reads the number of a transaction. -/
def readTxid (text : Bytes) : Except Misuse Int :=
  match Numeral.readInt64? text with
  | none => .error (.invalidTxid text)
  | some txid => .ok txid

/- The transaction that the options of a check name. -/
def checkTxid : List Bytes → Except Misuse (Option Int)
  | option :: text :: _ =>
      if option = utf8 "--txid" then
        (readTxid text).map some
      else
        .ok none
  | _ => .ok none

------------------------------------------------------------
-- Reading
------------------------------------------------------------

/- Reads the arguments of a command that needs one or more. -/
def withOne
    (command : Bytes → List Bytes → Command) :
    List Bytes → Except Misuse Command
  | first :: rest => .ok (command first rest)
  | _ => .error .unknown

/- Reads the arguments of a command about a tuple. -/
def withKey
    (command : TupleKey → List Bytes → Except Misuse Command) :
    List Bytes → Except Misuse Command
  | user :: relation :: object :: rest =>
      command ⟨user, relation, object⟩ rest
  | _ => .error .unknown

/- The names of the commands and how they are read on. -/
def table :
    List (String × (List Bytes → Except Misuse Command)) :=
  [("validate", withOne fun path _ => .validate path),
    ("apply-model", withOne fun path rest =>
      .applyModel path (rest.head? = some (utf8 "--activate"))),
    ("activate", withOne fun id _ => .activate id),
    ("read-model", fun rest => .ok (.readModel (filter? rest 0))),
    ("list-models", fun _ => .ok .listModels),
    ("write", withKey fun key _ => .ok (.write key)),
    ("delete", withKey fun key _ => .ok (.delete key)),
    ("check", withKey fun key rest =>
      (checkTxid rest).map (.check key)),
    ("read", fun rest => .ok (.read (readRequest rest))),
    ("list-objects", withKey fun key _ =>
      .ok (.listObjects key.user key.relation key.object)),
    ("list-users", fun
      | object :: relation :: types =>
          .ok (.listUsers object relation types)
      | _ => .error .unknown),
    ("changes", fun
      | [] => .ok (.changes 0)
      | since :: _ => (readTxid since).map .changes),
    ("stats", fun _ => .ok .statistics)]

/- Reads the arguments of the program. -/
def parse : List Bytes → Except Misuse Command
  | [] => .error .unknown
  | name :: rest =>
      match table.find? fun entry => utf8 entry.1 = name with
      | none => .error .unknown
      | some entry => entry.2 rest

------------------------------------------------------------
-- Help
------------------------------------------------------------

/- Arguments that ask for help. -/
def helpWords : List Bytes :=
  [utf8 "help", utf8 "--help"]

/- How the program is used. -/
def usage : Bytes :=
  utf8 <| "usage: authzd <command> [args]\n" ++
    "  validate <file.dsl>\n" ++
    "  apply-model <file.dsl> [--activate]\n" ++
    "  activate <model-id>\n" ++
    "  read-model [version-id]\n" ++
    "  list-models\n" ++
    "  write <user> <relation> <object>\n" ++
    "  delete <user> <relation> <object>\n" ++
    "  check <user> <relation> <object> [--txid N]\n" ++
    "  read [user|-] [relation|-] [object|-] " ++
    "[--page-token T]\n" ++
    "  list-objects <user> <relation> <type>\n" ++
    "  list-users <object> <relation> [user-type...]\n" ++
    "  changes [since-txid]\n" ++
    "  stats\n" ++
    "environment: AUTHZ_CONFIG, AUTHZ_DB_PATH, " ++
    "AUTHZ_LOG_LEVEL, VALKEY_HOST, VALKEY_PORT\n"

end Command

end Rebac
