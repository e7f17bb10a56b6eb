import Rebac.Command.Run
import Rebac.Proofs.Bytes

/-
  This file proves which tuples the program reads for the
  arguments of a read that ends with the token of a page.

  The token is found wherever its option stands. The filters
  are the first three arguments, whatever these are. So the
  option and the token count as filters too, unless three
  filters stand before them. An option is no user and no
  object, and the token of a page is no object, so a read
  with fewer filters fails.

  Key definitions include:
    * `Command.named`
    * `Command.asked`
    * `Command.pageArguments`
    * `Command.carryOut`

  Key theorems include:
    * `Service.parts_of_read`
    * `Command.readRequest_append`
    * `Command.asked_append_iff`
    * `Command.read_error_of_few`
    * `Command.run_read`
    * `Command.reads_asked_iff`
-/

namespace Rebac

------------------------------------------------------------
-- Failing Reads
------------------------------------------------------------

/- A text without a colon is no object. -/
theorem ObjectRef.parse?_of_not_mem
    {text : Bytes}
    (hColon : 58 ∉ text) :
    parse? text = none := by
  rw [parse?, Bytes.splitFirst_eq_none_iff.mpr hColon]

/- A token that is read is made of digits. -/
theorem Page.isDigit_of_readToken
    {token : Bytes}
    {offset : UInt64}
    (hRead : readToken token = .ok offset) :
    ∀ byte ∈ token, Bytes.isDigit byte = true := by
  unfold readToken Numeral.readSize? Numeral.readNat? at hRead
  split at hRead
  · next hEmpty =>
      rw [hEmpty]
      exact List.forall_mem_nil _
  · by_cases hDigits : token ≠ [] ∧ token.all Bytes.isDigit
    · exact List.all_eq_true.mp hDigits.2
    · rw [if_neg hDigits] at hRead
      cases hRead

namespace Service

variable {Shared : Type}
variable {service : Service Shared}
variable {request : ReadRequest}

/- What has to be read of a request whose tuples are read. -/
theorem parts_of_read
    {page : Page TupleKey}
    (hRead : service.read request = .ok page) :
    (∃ offset, Page.readToken request.token = .ok offset) ∧
      (∃ user, readUser request.user = .ok user) ∧
        ∃ object, readObject request.object = .ok object := by
  unfold read at hRead
  cases hToken : Page.readToken request.token with
  | error failure =>
      rw [hToken] at hRead
      cases hRead
  | ok offset =>
      cases hUser : readUser request.user with
      | error failure =>
          rw [hToken, hUser] at hRead
          cases hRead
      | ok user =>
          cases hObject : readObject request.object with
          | error failure =>
              rw [hToken, hUser, hObject] at hRead
              cases hRead
          | ok object =>
              exact ⟨⟨offset, rfl⟩, ⟨user, rfl⟩, object, rfl⟩

end Service

namespace Command

------------------------------------------------------------
-- Requests
------------------------------------------------------------

/-
  What an argument stands for as a filter: `-` and the empty
  text stand for none.
-/
def named (argument : Bytes) : Option Bytes :=
  if argument = utf8 "-" ∨ argument = [] then
    none
  else
    some argument

/- The tuples that some filters and a token ask for. -/
def asked
    (filters : List Bytes)
    (token : Bytes) : Service.ReadRequest where
  user := filters[0]?.bind named
  relation := filters[1]?.bind named
  object := filters[2]?.bind named
  token := token

/- The arguments of a read with the token of a page. -/
def pageArguments
    (filters : List Bytes)
    (token : Bytes) : List Bytes :=
  utf8 "read" :: (filters ++ [pageOption, token])

theorem filter?_eq
    (arguments : List Bytes)
    (position : Nat) :
    filter? arguments position =
      arguments[position]?.bind named := by
  rw [filter?]
  cases arguments[position]? with
  | none => rfl
  | some argument =>
      by_cases hNone : argument = utf8 "-" ∨ argument = []
      · rcases hNone with rfl | rfl <;> rfl
      · rw [not_or] at hNone
        simp [named, hNone]

/- The last option gives the token, whatever stands before. -/
theorem pageToken_append
    (filters : List Bytes)
    (default token : Bytes) :
    pageToken default (filters ++ [pageOption, token]) =
      token := by
  induction filters generalizing default with
  | nil => rfl
  | cons first others ih =>
      cases others with
      | nil => rfl
      | cons second more => exact ih _

/- The option and the token count as filters. -/
theorem readRequest_append
    (filters : List Bytes)
    (token : Bytes) :
    readRequest (filters ++ [pageOption, token]) =
      asked (filters ++ [pageOption, token]) token := by
  rw [readRequest, pageToken_append, filter?_eq, filter?_eq,
    filter?_eq, asked]

theorem named_pageOption :
    named pageOption = some pageOption := by
  decide

/- Requests differ where one of the first three filters does. -/
theorem asked_eq_iff
    {first second : List Bytes}
    {token : Bytes} :
    asked first token = asked second token ↔
      ∀ position < 3,
        first[position]?.bind named =
          second[position]?.bind named := by
  constructor
  · intro hSame position hPosition
    match position, hPosition with
    | 0, _ => exact congrArg Service.ReadRequest.user hSame
    | 1, _ => exact congrArg Service.ReadRequest.relation hSame
    | 2, _ => exact congrArg Service.ReadRequest.object hSame
  · intro hFilters
    rw [asked, asked, hFilters 0 (by decide),
      hFilters 1 (by decide), hFilters 2 (by decide)]

/- Behind three filters nothing more counts as one. -/
theorem asked_append_iff
    (filters behind : List Bytes)
    (token : Bytes) :
    asked (filters ++ pageOption :: behind) token =
        asked filters token ↔
      3 ≤ filters.length := by
  rw [asked_eq_iff]
  constructor
  · intro hSame
    refine Nat.le_of_not_lt fun hFew => ?_
    -- The option stands where the first filter is missing.
    have hOption := hSame filters.length hFew
    rw [List.getElem?_append_right (Nat.le_refl _), Nat.sub_self,
      List.getElem?_eq_none (Nat.le_refl _),
      List.getElem?_cons_zero, Option.bind_some,
      named_pageOption] at hOption
    cases hOption
  · intro hEnough position hPosition
    rw [List.getElem?_append_left (by omega)]

------------------------------------------------------------
-- Too Few Filters
------------------------------------------------------------

theorem readUser_pageOption :
    Service.readUser (named pageOption) =
      .error (.invalidKey (.user pageOption)) := by
  rfl

theorem readObject_pageOption :
    Service.readObject (named pageOption) =
      .error (.invalidKey (.object pageOption)) := by
  rfl

/- No text is both the token of a page and an object. -/
theorem not_isDigit_of_readObject
    {token : Bytes}
    {object : Option ObjectRef}
    (hToken : token ≠ [])
    (hObject : Service.readObject (named token) = .ok object) :
    ∃ byte ∈ token, Bytes.isDigit byte = false := by
  by_cases hDash : token = utf8 "-"
  · exact ⟨45, by rw [hDash]; decide, by decide⟩
  · refine
      ⟨58, Decidable.byContradiction fun hColon => ?_, by decide⟩
    rw [named, if_neg (not_or.mpr ⟨hDash, hToken⟩)] at hObject
    rw [Service.readObject,
      ObjectRef.parse?_of_not_mem hColon] at hObject
    cases hObject

/-
  With fewer than three filters the option is taken for a user
  or an object, or for a relation and the token for an object.
-/
theorem read_error_of_few
    {Shared : Type}
    {filters : List Bytes}
    {token : Bytes}
    (hFew : filters.length < 3)
    (hToken : token ≠ [])
    (service : Service Shared) :
    ∃ failure,
      service.read (asked (filters ++ [pageOption, token]) token) =
        .error failure := by
  cases hRead :
      service.read
        (asked (filters ++ [pageOption, token]) token) with
  | error failure => exact ⟨failure, rfl⟩
  | ok page =>
      rcases Service.parts_of_read hRead with
        ⟨⟨offset, hOffset⟩, ⟨user, hUser⟩, object, hObject⟩
      match filters, hFew with
      | [], _ => cases readUser_pageOption.symm.trans hUser
      | [_], _ =>
          rcases not_isDigit_of_readObject hToken hObject with
            ⟨byte, hByte, hOther⟩
          have hDigit :=
            Page.isDigit_of_readToken hOffset byte hByte
          rw [hOther] at hDigit
          cases hDigit
      | [_, _], _ => cases readObject_pageOption.symm.trans hObject

------------------------------------------------------------
-- Runs
------------------------------------------------------------

variable {Effect : Type → Type} [Monad Effect]

/- A run that carries out one command, if it can start. -/
def carryOut
    (host : Host Effect)
    (start : Start)
    (command : Command) : Effect Ending := do
  match ← Config.fromHost Config.simpleReader host
      start.environment with
  | .error fault =>
      return {
        outcome := .error .failure fault.message
        ids := start.ids }
  | .ok config => serve host start config (.ok command)

theorem parse_read (arguments : List Bytes) :
    parse (utf8 "read" :: arguments) =
      .ok (.read (readRequest arguments)) := by
  rfl

theorem run_read
    (host : Host Effect)
    (start : Start)
    (arguments : List Bytes) :
    run host start (utf8 "read" :: arguments) =
      carryOut host start (.read (readRequest arguments)) := by
  have hHelp : utf8 "read" ∉ helpWords := by decide
  have hOther : utf8 "read" ≠ utf8 "validate" := by decide
  rw [run]
  simp only [if_neg hHelp, if_neg hOther, parse_read]
  rfl

/- A step of a run is followed by what its result leads to. -/
theorem run_bind_of_run
    {State First Second : Type}
    {step : StateM State First}
    {state after : State}
    {result : First}
    (hStep : step.run state = (result, after))
    (next : First → StateM State Second) :
    (step >>= next).run state = (next result).run after := by
  rw [StateT.run_bind, hStep]
  rfl

/- A read is answered by what the service reads. -/
theorem withFile_read
    (host : Host Effect)
    (start : Start)
    (request : Service.ReadRequest)
    (service : Service Valkey.Client) :
    withFile host start (.read request) service =
      pure (Outcome.ofResult Outcome.ofTuples
        (service.read request), service) :=
  rfl

/-
  A run for a read that no service can answer fails, whether
  the service can be started or not.
-/
theorem status_of_carryOut
    {request : Service.ReadRequest}
    (hFails :
      ∀ service : Service Valkey.Client,
        ∃ failure, service.read request = .error failure)
    (start : Start)
    (directory : Directory) :
    ((carryOut Directory.host start (.read request)).run
        directory).1.outcome.status =
      .failure := by
  rcases hConfig :
      (Config.fromHost Config.simpleReader Directory.host
        start.environment).run directory with
    ⟨_ | config, configured⟩
  · rw [carryOut, run_bind_of_run hConfig]
    rfl
  rw [carryOut, run_bind_of_run hConfig]
  dsimp only
  rcases hOpen :
      (Directory.host.openTables config.storage.path).run
        configured with
    ⟨_ | tables, opened⟩
  · rw [serve, run_bind_of_run hOpen]
    rfl
  rw [serve, run_bind_of_run hOpen]
  dsimp only
  rcases prepare (config.service start tables) with
    ⟨_ | _, service⟩
  · rfl
  · rcases hFails service with ⟨failure, hRead⟩
    dsimp only
    rw [withFile_read, hRead]
    rfl

/-
  A read with some filters and the token of a page is a
  request for that page, but with the option and the token
  among the filters. It is the request that was asked for
  exactly if there are three filters, `-` or empty ones
  included; with fewer the run fails, whatever is stored.
-/
theorem reads_asked_iff
    {filters : List Bytes}
    {token : Bytes}
    (hToken : token ≠ []) :
    ∃ request,
      parse (pageArguments filters token) =
          .ok (.read request) ∧
        (∀ {Effect : Type → Type} [Monad Effect]
          (host : Host Effect) (start : Start),
          run host start (pageArguments filters token) =
            carryOut host start (.read request)) ∧
        request = asked (filters ++ [pageOption, token]) token ∧
        (request = asked filters token ↔ 3 ≤ filters.length) ∧
        (filters.length < 3 →
          ∀ (start : Start) (directory : Directory),
            ((run Directory.host start
                  (pageArguments filters token)).run
                directory).1.outcome.status =
              .failure) := by
  have hRequest := readRequest_append filters token
  refine ⟨readRequest (filters ++ [pageOption, token]),
    parse_read _, fun host start => run_read host start _,
    hRequest, ?_, ?_⟩
  · rw [hRequest]
    exact asked_append_iff filters [token] token
  · intro hFew start directory
    rw [pageArguments, run_read, hRequest]
    exact status_of_carryOut (read_error_of_few hFew hToken)
      start directory

/- Three filters, of which two stand for none, keep apart. -/
theorem third_filter_apart :
    utf8 "1" ≠ [] ∧
      ∃ request,
        parse
            (pageArguments [utf8 "user:alice", utf8 "-", []]
              (utf8 "1")) =
          .ok (.read request) ∧
        request =
          { user := some (utf8 "user:alice")
            token := utf8 "1" } := by
  have hToken : utf8 "1" ≠ [] := by decide
  have hFilters :
      3 ≤ [utf8 "user:alice", utf8 "-", []].length := by
    decide
  rcases reads_asked_iff hToken with
    ⟨request, hParse, -, -, hIff, -⟩
  exact ⟨hToken, request, hParse,
    (hIff.mpr hFilters).trans (by decide)⟩

/- A start with the database in memory. -/
def transientStart : Start where
  environment := { databasePath := some (utf8 ":memory:") }
  now := 0
  ids := { words := fun drawn => (UInt64.ofNat drawn, 0) }

/- The outcome of a run in an empty directory. -/
def outcomeOf (effect : StateM Directory Ending) : Outcome :=
  (effect.run { place := [] }).1.outcome

/-
  Without filters the option is taken for a user and the token
  for a relation, and the read fails, although the page that
  was asked for can be read.
-/
theorem option_taken_for_user :
    parse (pageArguments [] (utf8 "1")) =
        .ok (.read
          { user := some pageOption
            relation := some (utf8 "1")
            token := utf8 "1" }) ∧
      parse (pageArguments [] (utf8 "1")) ≠
        .ok (.read (asked [] (utf8 "1"))) ∧
      outcomeOf
          (run Directory.host transientStart
            (pageArguments [] (utf8 "1"))) =
        .error .failure (utf8 "invalid user '--page-token'") ∧
      outcomeOf
          (carryOut Directory.host transientStart
            (.read (asked [] (utf8 "1")))) =
        .success [] := by
  have hParse :
      parse (pageArguments [] (utf8 "1")) =
        .ok (.read
          { user := some pageOption
            relation := some (utf8 "1")
            token := utf8 "1" }) := by
    rfl
  refine ⟨hParse, fun hAsked => ?_, by decide +kernel,
    by decide +kernel⟩
  rw [hParse] at hAsked
  cases hAsked

end Command

end Rebac
