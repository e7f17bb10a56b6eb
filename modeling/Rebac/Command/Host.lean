import Rebac.Store.File

/-
  This file defines the files that the program works with.

  A host is the part of a file system that the program
  needs. A directory in memory is a host whose files are the
  result of what was done so far. A database is opened from
  a file and saved to it as a whole; without a path it has
  no file.

  Key definitions include:
    * `Host`
    * `Host.openTables`
    * `Host.saveTables`
    * `Directory`
    * `Directory.host`
-/

namespace Rebac

------------------------------------------------------------
-- Hosts
------------------------------------------------------------

/-
  What the program does with files: it locates one by its
  full path, reads one, makes sure that one can be written,
  and writes one.
-/
structure Host (Effect : Type → Type) where
  locate : (path : Bytes) → Effect (Option Bytes)
  read : (path : Bytes) → Effect (Option Bytes)
  create : (path : Bytes) → Effect Bool
  write : (path contents : Bytes) → Effect Unit

namespace Host

variable {Effect : Type → Type} [Monad Effect]

/- Why a database cannot be opened. -/
inductive OpenFault where
  | unopened (path : Bytes)
  | database (fault : Database.Fault)
  deriving DecidableEq, Repr

/- The wording of a fault. -/
def OpenFault.message : OpenFault → Bytes
  | .unopened path =>
      utf8 "Failed to open database '" ++ path ++
        utf8 "': unable to open database file"
  | .database fault => fault.message

/- Paths of databases that are not kept in a file. -/
def transientPaths : List Bytes :=
  [[], utf8 ":memory:"]

/- Opens the database at a path, or creates it there. -/
def openTables
    (host : Host Effect)
    (path : Bytes) : Effect (Except OpenFault Tables) := do
  if path ∈ transientPaths then
    return .ok Tables.empty
  else if ← host.create path then
    match Tables.ofFile? ((← host.read path).getD []) with
    | none => return .error (.database .notDatabase)
    | some tables => return .ok tables
  else
    return .error (.unopened path)

/- Saves the database at a path. -/
def saveTables
    (host : Host Effect)
    (path : Bytes)
    (tables : Tables) : Effect Unit := do
  if path ∉ transientPaths then
    host.write path tables.toFile

end Host

------------------------------------------------------------
-- Directories
------------------------------------------------------------

/-
  A directory in memory: its place, other folders that are
  there, and its files. Places are full paths, part by part.
-/
structure Directory where
  place : List Bytes
  folders : List (List Bytes) := []
  files : List (List Bytes × Bytes) := []
  deriving Repr

namespace Directory

/- Follows one part of a path. -/
def step (place : List Bytes) (part : Bytes) : List Bytes :=
  if part = [] ∨ part = utf8 "." then
    place
  else if part = utf8 ".." then
    place.dropLast
  else
    place ++ [part]

/- The place of a path. -/
def follow (directory : Directory) (path : Bytes) : List Bytes :=
  (Bytes.split 47 path).foldl step
    (if path.head? = some 47 then [] else directory.place)

/- The full path of a place. -/
def fullPath (place : List Bytes) : Bytes :=
  if place = [] then
    [47]
  else
    place.flatMap fun part => 47 :: part

/- Whether a place is a folder. -/
def hasFolder (directory : Directory) (place : List Bytes) : Bool :=
  (directory.place :: directory.folders).any place.isPrefixOf

/-
  The contents of a place. A folder has none, and neither
  has a path that is empty or names a file as a folder.
-/
def contents?
    (directory : Directory)
    (path : Bytes) : Option Bytes :=
  let place := directory.follow path
  if path = [] then
    none
  else if directory.hasFolder place then
    some []
  else if path.getLast? = some 47 then
    none
  else
    directory.files.lookup place

/- Puts contents at a place. -/
def insert
    (directory : Directory)
    (place : List Bytes)
    (contents : Bytes) : Directory :=
  { directory with
    files := (place, contents) ::
      directory.files.filter fun file => file.1 ≠ place }

/- Whether a file can be written at a path. -/
def canWrite (directory : Directory) (path : Bytes) : Bool :=
  let place := directory.follow path
  path.getLast? ≠ some 47 && !directory.hasFolder place &&
    directory.hasFolder place.dropLast

/- A directory in memory as a host. -/
def host : Host (StateM Directory) where
  locate path := do
    let directory ← get
    return (directory.contents? path).map fun _ =>
      fullPath (directory.follow path)
  read path := do
    return (← get).contents? path
  create path := do
    let directory ← get
    if directory.canWrite path then
      if (directory.contents? path).isNone then
        set (directory.insert (directory.follow path) [])
      return true
    else
      return false
  write path contents := do
    let directory ← get
    set (directory.insert (directory.follow path) contents)

end Directory

end Rebac
