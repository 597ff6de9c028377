import CleanArchitecture.AccountHistory
import CleanArchitecture.Interleaving
import CleanArchitecture.QueryProtocol
import CleanArchitecture.ValidUsernames

/-!
# Registrations at the same time

Any number of threads register, log in and log out at once.  A row enters the users table by
an execution with two parameters, and the phase of a thread is the last one that it made.
The new rows stand in the order in which these executions succeeded, and every registration
is answered by its own.
-/

namespace CleanArchitecture

open Program Backend WrapperRequest WrapperResponse

/-! ## The protocol of insertions -/

/-- The last execution with two parameters of a request: the values as the database reads
them, and the result. -/
inductive RowPhase
  | idle
  | executed (params : List Bytes) (result : Option PgResult)
  deriving DecidableEq

/-- The last execution added a row. -/
def RowPhase.Settled : RowPhase → Prop
  | .executed _ (some result) => result.Succeeded
  | _ => False

/-- The row that the last execution added, with the id that it returned. -/
def RowPhase.row? : RowPhase → Option UserRow
  | .executed [username, password] (some result) =>
      if result.Succeeded then
        (pqGetvalue (some result) 0 0).map fun id =>
          { id := id, username := username, password := password }
      else none
  | _ => none

/-- After an execution that added a row no other row is added. -/
def insertions : Protocol Command Command.Response RowPhase where
  allows phase command := command.PreparesOwn ∧ (phase.Settled → command.AddsNoRow)
  next phase
    | .pqExecPrepared _ _ nParams values lengths formats => fun result =>
        if nParams = 2 then .executed (paramValues values lengths formats) result else phase
    | _ => fun _ => phase

theorem insertions_next_of_addsNoRow {phase : RowPhase} {command : Command}
    (none : command.AddsNoRow) (response : command.Response) :
    insertions.next phase command response = phase := by
  cases command with
  | pqExecPrepared => exact if_neg none.2
  | _ => rfl

theorem RowPhase.row?_of_not_settled {phase : RowPhase} (unsettled : ¬ phase.Settled) :
    phase.row? = none := by
  unfold RowPhase.row?
  split
  · exact if_neg unsettled
  · rfl

section Programs

variable {α : Type} {post : α → Prop} {program : Backend α} {phase : RowPhase}

/-- A program that adds no row stays in its phase. -/
theorem follows_insertions (within : Within Command.AddsNoRow post program) :
    Follows insertions (fun value reached => post value ∧ reached = phase) phase program :=
  Within.follows within (fun _ call => ⟨call.1, fun _ => call⟩)
    fun _ response call => insertions_next_of_addsNoRow call response

theorem Harmless.addsNoRow (harmless : Harmless post program) :
    Within Command.AddsNoRow post program :=
  harmless.mono (fun _ call => call.addsNoRow) fun _ holds => holds

theorem ignores_insertions {statement : PostgresStatement}
    (own : cStr statement.query = UserPostgres.addUserQuery) :
    Postgres.Ignores insertions statement := by
  intro phase command upkeep
  have addsNoRow : command.AddsNoRow := by
    cases command with
    | pqPrepare => exact ⟨.inr (upkeep.trans own), trivial⟩
    | pqExecPrepared => exact upkeep.elim
    | _ => exact ⟨trivial, trivial⟩
  exact ⟨⟨addsNoRow.1, fun _ => addsNoRow⟩, insertions_next_of_addsNoRow addsNoRow⟩

end Programs

/-! ## Registrations -/

namespace UserPostgres

variable {userDb : UserPostgres} {name : Bytes} {phase : RowPhase}

/-- The result is the one of the last execution. -/
abbrev Executed (user : User) (result : Option PgResult) (reached : RowPhase) : Prop :=
  reached = .executed [cStr user.username, cStr user.hashed] result

theorem follows_insertion (client : Nat) (user : User) (unsettled : ¬ phase.Settled) :
    Follows insertions (Executed user) phase
      (Postgres.execPrepared client userDb.addUserStatement [user.username, user.hashed]
        addUserTypes) := by
  have two : toInt32 ([user.username, user.hashed].length : Int) = 2 :=
    toInt32_of_bounds (by simp) (by simp)
  refine follows_perform ⟨trivial, fun settled => absurd settled unsettled⟩ fun result => ?_
  simp only [Executed, insertions, if_pos two, paramValues_addUserTypes]

/-- A fatal error adds no row, so that the statement may be executed again. -/
theorem not_settled_of_fatal {params : List Bytes} {result : Option PgResult}
    (fatal : pqResultStatus result = .fatalError) : ¬ (RowPhase.executed params result).Settled := by
  cases result with
  | none => exact id
  | some result => exact fun succeeded => succeeded.2 fatal

/-- What an insertion answers after its last execution. -/
def Reports (result : Option PgResult) : Except Log Bytes → Prop
  | .error log => Blames result log
  | .ok id => cStr (pqResultErrorMessage result) = [] ∧
      ∃ cell, pqGetvalue result 0 0 = some cell ∧ id = cStr cell

theorem Built.follows_insertUser (built : userDb.Built name) (user : User) :
    Follows insertions (fun answer reached => ∃ result, Executed user result reached ∧
        Reports result answer) .idle (userDb.addUserImpl user) := by
  have queried := Postgres.follows_query (ignores_insertions built.addUserText)
    (fun client _ unsettled => follows_insertion client user unsettled)
    (fun _ _ executed fatal => executed ▸ not_settled_of_fatal fatal)
    (show ¬ RowPhase.idle.Settled from id)
  apply queried.bind
  rintro (log | result) reached ⟨other, executed, told⟩
  · exact follows_pure ⟨other, executed, told⟩
  · obtain ⟨rfl, clear⟩ := told
    simp only
    cases cell : pqGetvalue result 0 0 with
    | none => exact ⟨⟨trivial, fun _ => ⟨trivial, trivial⟩⟩, fun response => response.elim⟩
    | some id =>
        apply (follows_insertions (within_perform (by exact ⟨trivial, trivial⟩))).bind
        intro _ _ kept
        obtain rfl := kept.2
        exact follows_pure ⟨result, executed, clear, id, cell, rfl⟩

end UserPostgres

/-- The answer to a username that is in the table. -/
def usernameTaken : Bytes :=
  ascii "Username already taken"

def usernameConstraint : Bytes :=
  ascii "users_username_key"

/-- How a registration ends: without an execution, or with an answer that its last execution
decides. -/
inductive RegistrationEnds (libraries : Libraries) (req : Request) (res : Response) :
    RowPhase → Prop
  | unexecuted (status : res.status ≠ statusCreated)
      (content : res.status = statusBadRequest → res.content ≠ usernameTaken) :
      RegistrationEnds libraries req res .idle
  | refused {body : AuthBody} {hashed : Bytes} {result : PgResult}
      (parsed : RegisterAuthUseCase.parseBody libraries req = .ok body) (failed : result.Failed)
      (status : res.status = statusBadRequest)
      (content : res.content =
        if cStr (result.constraintName.getD []) = usernameConstraint then usernameTaken
        else cStr result.errorMessage) :
      RegistrationEnds libraries req res
        (.executed [cStr (trim body.username), cStr hashed] (some result))
  | added {body : AuthBody} {hashed id : Bytes} {result : Option PgResult}
      (parsed : RegisterAuthUseCase.parseBody libraries req = .ok body)
      (clear : cStr (pqResultErrorMessage result) = []) (cell : pqGetvalue result 0 0 = some id)
      (status : res.status = statusCreated) (content : res.content = cStr id) :
      RegistrationEnds libraries req res
        (.executed [cStr (trim body.username), cStr hashed] result)

/-- A body that lists the errors of a username is not the one of a username that is taken. -/
theorem setBodyRows_ne_usernameTaken (rows : List Bytes) (ex : Exchange) :
    (setBodyRows rows ex).res.content ≠ usernameTaken := by
  intro same
  have bracket := congrArg List.getLast? same
  rw [setBodyRows, setBody, show ascii "]" = [93] from rfl] at bracket
  simp only [List.getLast?_append_cons, List.getLast?_singleton] at bracket
  exact absurd bracket (by decide)

theorem RegisterAuthUseCase.msg_ne_usernameTaken {libraries : Libraries} {req : Request} {log : Log}
    (refused : RegisterAuthUseCase.parseBody libraries req = .error log) :
    log.msg ≠ usernameTaken := by
  unfold RegisterAuthUseCase.parseBody parseJsonBody at refused
  split at refused
  · cases refused
    decide
  · split at refused
    · cases refused
      decide
    · split at refused
      · cases refused
      · cases refused
        decide

section Endpoints

variable {app : Application} {name : Bytes} (built : app.userDb.Built name)

include built

theorem RegisterAuthUseCase.follows_insertions_addUser {req : Request} {body : AuthBody}
    (ex : Exchange) (parsed : RegisterAuthUseCase.parseBody app.libraries req = .ok body) :
    Follows insertions (fun ex' => RegistrationEnds app.libraries req ex'.res) .idle
      (RegisterAuthUseCase.addUser app body ex) := by
  have other : statusBadRequest ≠ statusCreated := by decide
  unfold RegisterAuthUseCase.addUser
  split
  · exact follows_pure (.unexecuted other fun _ => setBodyRows_ne_usernameTaken _ ex)
  · rename_i user made
    obtain ⟨-, rfl, -⟩ := makeUserWith_ok.mp (Prod.ext made rfl)
    split
    · exact follows_pure (.unexecuted other fun _ => by simp only [setBody, setStatus]; decide)
    · rename_i set accepted
      rw [User.setPassword_accepted accepted]
      have hashing : Within Command.AddsNoRow (fun hashed => hashed.2.username = trim body.username)
          (User.hashPassword app.libraries app.crypto
            { username := trim body.username, password := body.password }) := by
        refine (User.within_hashPassword _ _ _).mono ?_ fun _ named => named
        rintro command rfl
        exact ⟨trivial, trivial⟩
      apply (follows_insertions hashing).bind
      rintro ⟨log, hashed⟩ _ ⟨named, rfl⟩
      cases log with
      | some log =>
          exact follows_pure (.unexecuted other fun _ => by simp only [setBody, setStatus]; decide)
      | none =>
          apply (built.follows_insertUser hashed).bind
          rintro added reached ⟨result, rfl, reports⟩
          rw [show hashed.username = trim body.username from named]
          cases added with
          | error log =>
              obtain ⟨failed, rfl, message, constraint, msg⟩ := reports
              have decided : ∀ content, content =
                  (if log.dbContraint = usernameConstraint then usernameTaken else log.msg) →
                  RegistrationEnds app.libraries req
                    (setStatus statusBadRequest (setBody content ex)).res
                    (.executed [cStr (trim body.username), cStr hashed.hashed] (some failed)) := by
                intro content known
                rw [constraint, msg] at known
                exact .refused parsed message rfl known
              simp only
              split
              · rename_i taken
                exact follows_pure (decided _ (if_pos taken).symm)
              · rename_i free
                exact follows_pure (decided _ (if_neg free).symm)
          | ok id =>
              obtain ⟨clear, cell, found, rfl⟩ := reports
              exact follows_pure (.added parsed clear found rfl rfl)

theorem RegisterAuthUseCase.follows_insertions (ex : Exchange) :
    Follows insertions (fun ex' => RegistrationEnds app.libraries ex.req ex'.res) .idle
      (RegisterAuthUseCase.execute app ex) := by
  have other : statusBadRequest ≠ statusCreated := by decide
  apply (CleanArchitecture.follows_insertions (harmless_isAuthImpl ex).addsNoRow).bind
  rintro ⟨auth, keyed⟩ _ ⟨renews, rfl⟩
  cases auth with
  | true =>
      refine follows_pure (.unexecuted (by rw [setStatus_status]; decide) ?_)
      rw [setStatus_status]
      intro bad
      exact absurd bad (by decide)
  | false =>
      obtain ⟨sid, -, rfl⟩ := renews
      have same : RegisterAuthUseCase.parseBody app.libraries (ex.withSession sid).req =
        RegisterAuthUseCase.parseBody app.libraries ex.req := rfl
      simp only [Bool.false_eq_true, if_false]
      split
      · rename_i log refused
        exact follows_pure (.unexecuted other fun _ => msg_ne_usernameTaken (same ▸ refused))
      · rename_i body parsed
        split
        · exact follows_pure (.unexecuted other fun _ => by simp only [setBody, setStatus]; decide)
        · exact follows_insertions_addUser built (ex.withSession sid) (same ▸ parsed)

/-- The phase in which an endpoint ends. -/
structure EndsInserted (app : Application) (request : Endpoint × Exchange) (ex' : Exchange)
    (reached : RowPhase) : Prop where
  register : request.1 = .register →
    RegistrationEnds app.libraries request.2.req ex'.res reached
  other : request.1 ≠ .register → reached = .idle

theorem Endpoint.follows_insertions (rounds : Nat) (request : Endpoint × Exchange) :
    Follows insertions (EndsInserted app request) .idle
      (request.1.handle app rounds request.2) := by
  obtain ⟨endpoint, ex⟩ := request
  by_cases register : endpoint = .register
  · subst register
    exact (RegisterAuthUseCase.follows_insertions built ex).mono
      fun _ _ ends => ⟨fun _ => ends, fun other => absurd rfl other⟩
  · exact (CleanArchitecture.follows_insertions (Endpoint.addsNoRow built rounds register ex)).mono
      fun _ _ kept => ⟨fun same => absurd same register, fun _ => kept.2⟩

end Endpoints

/-! ## A table with unique usernames -/

/-- What an execution with two parameters does to the table.  It fails without effect, and
violates the constraint only for a username that is there; or it adds one row under a new
username and returns its id. -/
inductive Inserts (params : List Bytes) (rows : List UserRow) (answer : PgResult) :
    List UserRow → Prop
  | refused (failed : answer.Failed) (message : cStr answer.errorMessage ≠ usernameTaken)
      (taken : cStr (answer.constraintName.getD []) = usernameConstraint →
        ∃ row ∈ rows, params.head? = some row.username) : Inserts params rows answer rows
  | added {id username password : Bytes} (succeeded : answer.Succeeded)
      (values : params = [username, password])
      (cell : pqGetvalue (some answer) 0 0 = some id)
      (free : username ∉ rows.map UserRow.username) :
      Inserts params rows answer
        (rows ++ [{ id := id, username := username, password := password }])

/-- A truthful backend whose users table keeps its usernames unique. -/
structure InsertingBackend {σ : Type} (h : BackendHandler σ) (rows : σ → List UserRow)
    (store : σ → StoreMap) (prepared : σ → Nat → Bytes → Option Bytes) : Prop
    extends TruthfulBackend h rows store prepared where
  inserts : ∀ client name values lengths formats s result s', OwnTexts (prepared s) →
    h (.pqExecPrepared client name 2 values lengths formats) s = some (result, s') →
      ∃ answer, result = some answer ∧
        Inserts (paramValues values lengths formats) (rows s) answer (rows s')

/-- The last execution added its row or failed, and a violated constraint tells of a row. -/
def RowPhase.Known (rows : List UserRow) : RowPhase → Prop
  | .idle => True
  | .executed _ none => False
  | .executed params (some answer) =>
      (RowPhase.executed params (some answer)).row?.isSome ∨
        answer.Failed ∧ cStr answer.errorMessage ≠ usernameTaken ∧
          (cStr (answer.constraintName.getD []) = usernameConstraint →
            ∃ row ∈ rows, params.head? = some row.username)

theorem RowPhase.Known.mono {rows more : List UserRow} (subset : rows ⊆ more) {phase : RowPhase}
    (known : phase.Known rows) : phase.Known more := by
  cases phase with
  | idle => exact trivial
  | executed params result =>
      cases result with
      | none => exact known
      | some answer =>
          rcases known with added | ⟨failed, message, taken⟩
          · exact .inl added
          · refine .inr ⟨failed, message, fun violated => ?_⟩
            obtain ⟨row, member, named⟩ := taken violated
            exact ⟨row, subset member, named⟩

/-- The rows are the first ones and, in some order of the threads, the row of each thread
that added one. -/
structure Linearised {ι : Type} (first : List UserRow) (phases : ι → RowPhase)
    (rows : List UserRow) : Prop where
  unique : (rows.map UserRow.username).Nodup
  known : ∀ i, (phases i).Known rows
  order : ∃ order : List ι, order.Nodup ∧ (∀ i, i ∈ order ↔ (phases i).row?.isSome) ∧
    rows = first ++ order.filterMap fun i => (phases i).row?

section Interleaved

variable {σ ι : Type} {h : BackendHandler σ} {rows : σ → List UserRow} {store : σ → StoreMap}
  {prepared : σ → Nat → Bytes → Option Bytes}

theorem linearised_idle {first : List UserRow} (unique : (first.map UserRow.username).Nodup) :
    Linearised first (fun _ : ι => RowPhase.idle) first where
  unique := unique
  known _ := trivial
  order := ⟨[], List.nodup_nil, fun _ => by simp [RowPhase.row?], by simp⟩

variable [DecidableEq ι]

/-- An execution of a thread that has added no row yet. -/
theorem Linearised.execute {first before after : List UserRow} {phases : ι → RowPhase} {i : ι}
    {params : List Bytes} {answer : PgResult} (linearised : Linearised first phases before)
    (unsettled : ¬ (phases i).Settled) (inserts : Inserts params before answer after) :
    Linearised first (Function.update phases i (.executed params (some answer))) after := by
  have absent := RowPhase.row?_of_not_settled unsettled
  obtain ⟨order, nodup, listed, rows⟩ := linearised.order
  cases inserts with
  | refused failed message taken =>
      have none : (RowPhase.executed params (some answer)).row? = none :=
        RowPhase.row?_of_not_settled fun succeeded => failed succeeded.1
      have same : ∀ j, (Function.update phases i (.executed params (some answer)) j).row? =
          (phases j).row? := by
        intro j
        by_cases here : j = i
        · subst here
          rw [Function.update_self, none, absent]
        · rw [Function.update_of_ne here]
      refine ⟨linearised.unique, ?_, order, nodup, ?_, ?_⟩
      · apply (Function.forall_update_iff phases fun _ phase => phase.Known before).mpr
        exact ⟨.inr ⟨failed, message, taken⟩, fun j _ => linearised.known j⟩
      · intro j
        rw [same, listed]
      · simp only [same]
        exact rows
  | @added id username password succeeded values cell free =>
      have new : i ∉ order := by
        rw [listed, absent]
        exact Bool.false_ne_true
      have row : (RowPhase.executed params (some answer)).row? =
          some { id := id, username := username, password := password } := by
        rw [values, RowPhase.row?, if_pos succeeded, cell]
        rfl
      have others : order.filterMap
          (fun j => (Function.update phases i (.executed params (some answer)) j).row?) =
            order.filterMap fun j => (phases j).row? := by
        refine List.filterMap_congr fun j member => ?_
        rw [Function.update_of_ne (ne_of_mem_of_not_mem member new)]
      refine ⟨?_, ?_, order ++ [i], ?_, ?_, ?_⟩
      · rw [List.map_append, List.map_singleton, ← List.concat_eq_append]
        exact linearised.unique.concat free
      · apply (Function.forall_update_iff phases fun _ phase => phase.Known _).mpr
        refine ⟨.inl ?_, fun j _ => (linearised.known j).mono (List.subset_append_left _ _)⟩
        rw [row]
        rfl
      · rw [← List.concat_eq_append]
        exact nodup.concat new
      · intro j
        by_cases here : j = i
        · subst here
          simp [row]
        · rw [Function.update_of_ne here, ← listed]
          simp [here]
      · rw [List.filterMap_append, others, rows, List.append_assoc]
        simp [row]

theorem InsertingBackend.step (inserting : InsertingBackend h rows store prepared)
    {first : List UserRow} {phases : ι → RowPhase} {i : ι} {command : Command} {s s' : σ}
    {response : command.Response} (allowed : insertions.allows (phases i) command)
    (texts : OwnTexts (prepared s)) (linearised : Linearised first phases (rows s))
    (answered : h command s = some (response, s')) :
    OwnTexts (prepared s') ∧
      Linearised first (Function.update phases i (insertions.next (phases i) command response))
        (rows s') := by
  refine ⟨inserting.ownTexts_of_call allowed.1 answered texts, ?_⟩
  by_cases none : command.AddsNoRow
  · rw [insertions_next_of_addsNoRow none, Function.update_eq_self,
      inserting.table_of_addsNoRow none texts answered]
    exact linearised
  · have unsettled : ¬ (phases i).Settled := fun settled => none (allowed.2 settled)
    cases command with
    | pqExecPrepared client name nParams values lengths formats =>
        obtain rfl : nParams = 2 := by_contra fun other => none ⟨trivial, other⟩
        obtain ⟨answer, rfl, inserts⟩ := inserting.inserts _ _ _ _ _ _ _ _ texts answered
        exact linearised.execute unsettled inserts
    | pqPrepare => exact absurd ⟨allowed.1, trivial⟩ none
    | _ => exact absurd ⟨trivial, trivial⟩ none

/-- The requests before their first calls. -/
def insertingThreads (app : Application) (rounds : Nat) (requests : ι → Endpoint × Exchange)
    (start : σ) : Threads Command Command.Response Exchange RowPhase σ ι where
  programs i := (requests i).1.handle app rounds (requests i).2
  phases _ := .idle
  shared := start

/-- How an answer tells of the row that its request added. -/
structure AnsweredByRow (app : Application) (request : Endpoint × Exchange) (rows : List UserRow)
    (row? : Option UserRow) (ex : Exchange) : Prop where
  other : request.1 ≠ .register → row? = none
  created : request.1 = .register → (ex.res.status = statusCreated ↔ row?.isSome)
  row : request.1 = .register → ∀ row, row? = some row → ∃ body,
    RegisterAuthUseCase.parseBody app.libraries request.2.req = .ok body ∧
      row.username = cStr (trim body.username) ∧ ex.res.content = cStr row.id
  taken : request.1 = .register → ex.res.status = statusBadRequest →
    ex.res.content = usernameTaken → ∃ body, ∃ row ∈ rows,
      RegisterAuthUseCase.parseBody app.libraries request.2.req = .ok body ∧
        row.username = cStr (trim body.username)

omit [DecidableEq ι] in
theorem EndsInserted.answered {app : Application} {request : Endpoint × Exchange} {ex : Exchange}
    {phase : RowPhase} (ends : EndsInserted app request ex phase) {rows : List UserRow}
    (known : phase.Known rows) : AnsweredByRow app request rows phase.row? ex := by
  have idle : request.1 ≠ .register → phase.row? = none := by
    intro other
    rw [ends.other other]
    rfl
  by_cases register : request.1 = .register
  · cases ends.register register with
    | unexecuted status content =>
        refine ⟨idle, fun _ => iff_of_false status Bool.false_ne_true, ?_, ?_⟩
        · rintro _ row ⟨⟩
        · exact fun _ bad taken => absurd taken (content bad)
    | @refused body hashed result parsed failed status content =>
        have none : (RowPhase.executed [cStr (trim body.username), cStr hashed]
            (some result)).row? = none :=
          RowPhase.row?_of_not_settled fun succeeded => failed succeeded.1
        rcases known with added | ⟨-, message, violates⟩
        · rw [none] at added
          cases added
        refine ⟨idle, fun _ => ?_, ?_, ?_⟩
        · rw [none, status]
          exact iff_of_false (by decide) Bool.false_ne_true
        · rw [none]
          rintro _ row ⟨⟩
        · intro _ _ taken
          rw [content] at taken
          split at taken
          · rename_i violated
            obtain ⟨row, member, named⟩ := violates violated
            exact ⟨body, row, member, parsed, (Option.some.inj named).symm⟩
          · exact absurd taken message
    | @added body hashed id result parsed clear cell status content =>
        cases result with
        | none => exact known.elim
        | some answer =>
            have succeeded : (RowPhase.executed [cStr (trim body.username), cStr hashed]
                (some answer)).row?.isSome :=
              known.resolve_right fun failed => failed.1 clear
            have settled : answer.Succeeded := by
              by_contra unsettled
              rw [RowPhase.row?, if_neg unsettled] at succeeded
              cases succeeded
            refine ⟨idle, fun _ => iff_of_true status succeeded, ?_, ?_⟩
            · intro _ row found
              rw [RowPhase.row?, if_pos settled, cell] at found
              cases found
              exact ⟨body, parsed, rfl, content⟩
            · rw [status]
              exact fun _ bad => absurd bad (by decide)
  · exact ⟨idle, fun same => absurd same register, fun same => absurd same register,
      fun same => absurd same register⟩

/-- Registrations at the same time.  In every interleaving of requests, from a table with
unique usernames, the table keeps all of its rows and its usernames stay unique.  Each new row
is of one request, which may not have been answered yet.  Of the finished requests those with a
row are the registrations answered 201, and the row has the trimmed username up to its first
NUL and the id of the answer.  No finished registration is told that a username is taken that,
cut so, is not in the table. -/
theorem InsertingBackend.concurrent_registrations
    (inserting : InsertingBackend h rows store prepared) {app : Application} {pg : Postgres}
    (constructed : UserPostgres.construct pg = .ok app.userDb) (rounds : Nat)
    (requests : ι → Endpoint × Exchange) {start : σ}
    (fresh : ∀ client name, prepared start client name = none)
    (unique : ((rows start).map UserRow.username).Nodup) {schedule : List ι}
    {turns : List (Turn Command Command.Response Exchange RowPhase σ ι)}
    {last : Threads Command Command.Response Exchange RowPhase σ ι}
    (ran : (interleaving (fun _ => insertions) h).run
      (insertingThreads app rounds requests start) schedule = .ok (last, turns)) :
    ((rows last.shared).map UserRow.username).Nodup ∧
      ∃ (order : List ι) (own : ι → Option UserRow), order.Nodup ∧
        (∀ i, i ∈ order ↔ (own i).isSome) ∧
        rows last.shared = rows start ++ order.filterMap own ∧
        ∀ i ex, last.programs i = .done ex →
          AnsweredByRow app (requests i) (rows last.shared) (own i) ex := by
  have built := UserPostgres.built_of_construct constructed
  have follows : (insertingThreads app rounds requests start).Follow (fun _ => insertions)
      fun i ex => EndsInserted app (requests i) ex :=
    fun i => Endpoint.follows_insertions built rounds (requests i)
  have texts := ownTexts_of_fresh fresh
  obtain ⟨follow, -, linearised⟩ := Threads.invariant_of_run
    (fun phases s => OwnTexts (prepared s) ∧ Linearised (rows start) phases (rows s))
    (fun _ => True)
    (fun s i command response shared allowed _ held answered =>
      inserting.step allowed held.1 held.2 answered)
    follows ⟨texts, linearised_idle unique⟩ ran fun _ _ => trivial
  obtain ⟨order, nodup, listed, added⟩ := linearised.order
  refine ⟨linearised.unique, order, fun i => (last.phases i).row?, nodup, listed, added, ?_⟩
  intro i ex done
  exact (follow.post_of_done done).answered (linearised.known i)

end Interleaved

/-! ## The world keeps usernames unique -/

theorem findRow_eq_none {rows : List UserRow} {username : Bytes} :
    findRow rows username = none ↔ username ∉ rows.map UserRow.username := by
  simp [findRow]

theorem inserts_failedResult (params : List Bytes) (rows : List UserRow) {message : String}
    (nonempty : cStr (ascii message) ≠ []) (other : cStr (ascii message) ≠ usernameTaken) :
    Inserts params rows (failedResult message) rows := by
  have unnamed : cStr [] ≠ usernameConstraint := by decide
  exact .refused (failedResult_failed nonempty) other fun violated => absurd violated unnamed

theorem inserts_takenResult {username password : Bytes} {rows : List UserRow}
    (taken : ¬ (findRow rows username).isNone) :
    Inserts [username, password] rows takenResult rows := by
  have failed : takenResult.Failed := by
    change cStr (ascii _) ≠ []
    decide
  have message : cStr takenResult.errorMessage ≠ usernameTaken := by decide
  obtain ⟨row, found⟩ := Option.ne_none_iff_exists'.mp (mt Option.isNone_iff_eq_none.mpr taken)
  obtain ⟨member, named⟩ := World.of_findRow found
  exact .refused failed message fun _ => ⟨row, member, congrArg some named.symm⟩

/-- An insertion with any number of values. -/
theorem inserts_usersEngine (newId : List UserRow → Bytes) (params : List Bytes)
    (rows : List UserRow) :
    Inserts params rows
      ((usersEngine newId).execute UserPostgres.addUserQuery params rows).1
      ((usersEngine newId).execute UserPostgres.addUserQuery params rows).2 := by
  have malformed : ∀ params, Inserts params rows (failedResult "ERROR:  syntax error") rows :=
    fun params => inserts_failedResult params rows (by decide) (by decide)
  have succeeded : PgStatus.tuplesOk ≠ .fatalError := by decide
  simp only [usersEngine, if_neg UserPostgres.addUserQuery_ne, if_true]
  split
  · exact malformed _
  · split
    · rename_i free
      exact .added ⟨rfl, succeeded⟩ rfl rfl
        (findRow_eq_none.mp (Option.isNone_iff_eq_none.mp free))
    · rename_i taken
      exact inserts_takenResult taken
  · exact malformed _

theorem World.inserting (env : Environment) :
    InsertingBackend (World.handler env) (fun w => w.postgres.tables) World.store
      fun w => w.postgres.prepared where
  toTruthfulBackend := World.truthful env
  inserts client name values lengths formats w result w' texts answered := by
    cases answered
    refine ⟨_, rfl, ?_⟩
    simp only [PgServer.execPrepared]
    cases found : w.postgres.prepared client name with
    | none => exact inserts_failedResult _ _ (by decide) (by decide)
    | some text =>
        simp only
        split
        · rename_i arity
          obtain rfl := (usersEngine_parameters_eq_two env.newId).mp arity.symm
          exact inserts_usersEngine env.newId _ _
        · exact inserts_failedResult _ _ (by decide) (by decide)

/-! ## Two registrations of one username -/

def sampleRegistrations : Bool → Endpoint × Exchange :=
  fun _ => (.register, sampleExchange (ascii "username") (ascii "password"))

/-- The status and the body of a request that was answered. -/
def answerOf {φ σ ι : Type} (threads : Threads Command Command.Response Exchange φ σ ι) (i : ι) :
    Option (Int × Bytes) :=
  (threads.programs i).result?.map fun ex => (ex.res.status, ex.res.content)

theorem of_answerOf {φ σ ι : Type} {threads : Threads Command Command.Response Exchange φ σ ι}
    {i : ι} {status : Int} {content : Bytes} (answered : answerOf threads i = some (status, content)) :
    ∃ ex, threads.programs i = .done ex ∧ ex.res.status = status ∧ ex.res.content = content := by
  obtain ⟨ex, result, same⟩ := Option.map_eq_some_iff.mp answered
  cases same
  exact ⟨ex, result?_eq_some.mp result, rfl, rfl⟩

/-- Both registrations take a client of their own, and their insertions are executed one after
the other. -/
theorem concurrent_registrations_sample : ∃ last turns added refused,
    (interleaving (fun _ : Bool => insertions) (World.handler sampleEnvironment)).run
        (insertingThreads sampleApplication 1 sampleRegistrations (sampleWorld []))
        (List.replicate 18 [false, true]).flatten = .ok (last, turns) ∧
      last.programs false = .done added ∧ last.programs true = .done refused ∧
      added.res.status = statusCreated ∧ refused.res.content = usernameTaken ∧
      (last.shared.postgres.tables.map UserRow.username).Nodup ∧
      ∃ row ∈ last.shared.postgres.tables, added.res.content = cStr row.id := by
  have ran : ((interleaving (fun _ : Bool => insertions) (World.handler sampleEnvironment)).run
        (insertingThreads sampleApplication 1 sampleRegistrations (sampleWorld []))
        (List.replicate 18 [false, true]).flatten).map
      (fun ended => decide (answerOf ended.1 false =
          some (statusCreated, sampleEnvironment.newId []) ∧
        answerOf ended.1 true = some (statusBadRequest, usernameTaken))) = .ok true := by
    decide +kernel
  obtain ⟨last, turns, ended, shown⟩ := EventMachine.exists_of_view ran
  obtain ⟨first, second⟩ := of_decide_eq_true shown
  obtain ⟨added, finished, created, -⟩ := of_answerOf first
  obtain ⟨refused, finished', bad, taken⟩ := of_answerOf second
  have noRows : ((sampleWorld []).postgres.tables.map UserRow.username).Nodup := List.nodup_nil
  obtain ⟨unique, order, own, -, listed, rows, answered⟩ :=
    (World.inserting sampleEnvironment).concurrent_registrations construct_sampleUserDb 1
      sampleRegistrations (fun _ _ => rfl) noRows ended
  have answer := answered false added finished
  obtain ⟨row, owned⟩ := Option.isSome_iff_exists.mp ((answer.created rfl).mp created)
  obtain ⟨-, -, -, content⟩ := answer.row rfl row owned
  refine ⟨last, turns, added, refused, ended, finished, finished', created, taken, unique, row, ?_,
    content⟩
  rw [rows]
  apply List.mem_append_right
  exact List.mem_filterMap.mpr ⟨false, (listed false).mpr (owned ▸ rfl), owned⟩

end CleanArchitecture
