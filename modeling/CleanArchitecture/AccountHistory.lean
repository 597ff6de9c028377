import CleanArchitecture.FailedRequests
import CleanArchitecture.RegisterLogin
import CleanArchitecture.ServerProcess

/-!
# Where an account comes from

Whoever is named by the user endpoint logged in with the credentials of a registration.
Rows enter the users table by registrations alone, and a login reads its user from a row.
-/

namespace CleanArchitecture

open Program Backend WrapperRequest WrapperResponse

/-! ## Requests that leave the table alone -/

/-- A call that prepares no foreign text and executes nothing with two parameters. -/
def Command.AddsNoRow (command : Command) : Prop :=
  command.PreparesOwn ∧
    match command with
    | .pqExecPrepared _ _ nParams _ _ _ => nParams ≠ 2
    | _ => True

/-- A result of an execution that succeeded. -/
def succeededResult : PgResult :=
  { status := .tuplesOk }

theorem Command.IsHarmless.addsNoRow {command : Command} (harmless : command.IsHarmless) :
    command.AddsNoRow := by
  refine ⟨harmless.1, ?_⟩
  cases command with
  | pqExecPrepared client name nParams =>
      intro two
      rcases harmless.2 (some succeededResult) two with fatal | message
      · cases fatal
      · exact message rfl
  | _ => exact trivial

theorem OnSession.addsNoRow {α : Type} {verbs : List Bytes} {post : α → Prop}
    {program : Backend α} (onSession : OnSession verbs post program) :
    Within Command.AddsNoRow post program := by
  refine Within.mono onSession ?_ fun _ holds => holds
  intro command call
  cases command with
  | pqPrepare => exact call.elim
  | pqExecPrepared => exact call.elim
  | _ => exact ⟨trivial, trivial⟩

/-- Every endpoint but the registration adds no row. -/
theorem Endpoint.addsNoRow {app : Application} {name : Bytes} (built : app.userDb.Built name)
    (rounds : Nat) {endpoint : Endpoint} (other : endpoint ≠ .register) (ex : Exchange) :
    Within Command.AddsNoRow (fun _ => True) (endpoint.handle app rounds ex) := by
  have quiet : ∀ {α : Type} {post : α → Prop} {program : Backend α}, Harmless post program →
      Within Command.AddsNoRow post program :=
    fun harmless => harmless.mono (fun _ call => call.addsNoRow) fun _ holds => holds
  cases endpoint with
  | user =>
      refine (quiet (UserAuthUseCase.harmless_execute ex)).mono ?_ fun _ _ => trivial
      exact fun _ call => call
  | register => exact absurd rfl other
  | login =>
      apply (quiet (LoginAuthUseCase.harmless_authenticate built ex)).bind
      rintro ⟨found, authenticated⟩ _
      cases found with
      | none => exact within_pure trivial
      | some user =>
          exact (onSession_setSessionUserImpl _ _ _ _).addsNoRow.bind fun _ _ =>
            within_pure trivial
  | logout =>
      apply (quiet (harmless_isAuthImpl ex)).bind
      rintro ⟨auth, keyed⟩ _
      cases auth with
      | false => exact within_pure trivial
      | true =>
          apply (onSession_clearSessionUserImpl keyed).addsNoRow.bind
          rintro ⟨logout, cleared⟩ _
          cases logout with
          | true => exact within_pure trivial
          | false =>
              exact (quiet (harmless_getSessionUserImpl _ _)).bind fun _ _ => within_pure trivial

/-- Nothing is prepared on new connections. -/
theorem ownTexts_of_fresh {prepared : Nat → Bytes → Option Bytes}
    (fresh : ∀ client name, prepared client name = none) : OwnTexts prepared := by
  intro client name text present
  rw [fresh] at present
  cases present

theorem TruthfulBackend.table_of_addsNoRow {σ τ : Type} {h : BackendHandler σ} {table : σ → τ}
    {store : σ → StoreMap} {prepared : σ → Nat → Bytes → Option Bytes}
    (truthful : TruthfulBackend h table store prepared) {command : Command}
    (none : command.AddsNoRow) {s s' : σ} {response : command.Response}
    (texts : OwnTexts (prepared s)) (answered : h command s = some (response, s')) :
    table s' = table s := by
  by_cases quiet : command.IsQuiet
  · exact (truthful.quiet command s response s' quiet answered).1
  · cases command with
    | redisCommand => exact (truthful.redis _ _ _ _ _ answered).1
    | pqPrepare => exact (truthful.prepare _ _ _ _ _ _ _ _ answered).1
    | pqExecPrepared client name nParams values lengths formats =>
        apply (truthful.execute _ _ _ _ _ _ _ _ _ answered).2.2
        cases found : prepared s client name with
        | none => exact .inr (.inl rfl)
        | some text =>
            rcases texts client name text found with rfl | rfl
            · exact .inr (.inr (.inl rfl))
            · exact .inr (.inr (.inr ⟨rfl, none.2⟩))
    | _ => exact absurd trivial quiet

/-- A run of calls that add no row. -/
theorem TruthfulBackend.table_of_run {σ τ : Type} {h : BackendHandler σ} {table : σ → τ}
    {store : σ → StoreMap} {prepared : σ → Nat → Bytes → Option Bytes}
    (truthful : TruthfulBackend h table store prepared) {α : Type} {post : α → Prop}
    {program : Backend α} (addsNoRow : Within Command.AddsNoRow post program) {s last : σ}
    {result : α} (texts : OwnTexts (prepared s))
    (ran : run h program s = some (result, last)) : table last = table s := by
  refine (addsNoRow.invariant_of_run
    (fun s' => OwnTexts (prepared s') ∧ table s' = table s) ?_ ⟨texts, rfl⟩ ran).2
  rintro command s₁ response s₂ call ⟨own, same⟩ answered
  exact ⟨truthful.ownTexts_of_call call.1 answered own,
    (truthful.table_of_addsNoRow call own answered).trans same⟩

/-! ## Rows and registrations -/

/-- The register endpoint has one successful status. -/
theorem RegisterAuthUseCase.within_created (app : Application) (ex : Exchange) :
    Within (fun _ => True) (fun ex' => IsSuccess ex'.res.status → ex'.res.status = statusCreated)
      (RegisterAuthUseCase.execute app ex) := by
  have rejected : ∀ {status : Int} (ex : Exchange), ¬ IsSuccess status →
      Within (fun _ => True)
        (fun ex' => IsSuccess ex'.res.status → ex'.res.status = statusCreated)
        (pure (setStatus status ex) : Backend Exchange) :=
    fun ex failure => within_pure fun success => absurd success failure
  have badRequest : ¬ IsSuccess statusBadRequest := by
    simp [IsSuccess, statusBadRequest]
  have forbidden : ¬ IsSuccess statusForbidden := by
    simp [IsSuccess, statusForbidden]
  apply (within_anything _).bind
  rintro ⟨auth, keyed⟩ _
  dsimp only
  split
  · exact rejected _ forbidden
  · split
    · exact rejected _ badRequest
    · split
      · exact rejected _ badRequest
      · unfold RegisterAuthUseCase.addUser
        split
        · exact rejected _ badRequest
        · split
          · exact rejected _ badRequest
          · apply (within_anything _).bind
            intro hashed _
            split
            · exact rejected _ badRequest
            · apply (within_anything _).bind
              intro added _
              split
              · split <;> exact rejected _ badRequest
              · exact within_pure fun _ => rfl

namespace World

variable (env : Environment) {app : Application} {name : Bytes}

/-- A registration is answered with the id of its row. -/
theorem id_of_addUserImpl (built : app.userDb.Built name) {w w' : World} {user : User} {id : Bytes}
    (ran : run (handler env) (app.userDb.addUserImpl user) w = some (.ok id, w')) :
    id = cStr (env.newId w.postgres.tables) := by
  obtain ⟨free, -⟩ := of_addUserImpl env built ran
  cases front : w.postgres.pool with
  | nil =>
      rw [UserPostgres.addUserImpl, run_bind_of_none (run_query_of_empty env front _ _ _)] at ran
      cases ran
  | cons client rest =>
      have asked := run_query env front app.userDb.addUserStatement
        [user.username, user.hashed] UserPostgres.addUserTypes
      by_cases own : w.postgres.prepared client (cStr name) = none ∨
          w.postgres.prepared client (cStr name) = some UserPostgres.addUserQuery
      · obtain ⟨result, -⟩ := answerQuery_addUser env built own user.username user.hashed
        rw [usersEngine_execute_addUser, free] at result
        rw [result] at asked
        rw [UserPostgres.addUserImpl, run_bind_of_run asked] at ran
        cases ran
        rfl
      · rw [answerQuery_addUser_foreign env built own] at asked
        rw [UserPostgres.addUserImpl, run_bind_of_run asked] at ran
        cases ran

theorem of_findRow {rows : List UserRow} {username : Bytes} {row : UserRow}
    (found : findRow rows username = some row) : row ∈ rows ∧ row.username = username := by
  unfold findRow at found
  have named := List.find?_some found
  exact ⟨List.mem_of_find?_eq_some found, eq_of_beq named⟩

/-- The user that a login finds is the one of a row under the username it was sent. -/
theorem user_of_checkUser (built : app.userDb.Built name) {w w' : World} {body : AuthBody}
    {user : User}
    (ran : run (handler env) (LoginAuthUseCase.checkUser app body) w = some (some user, w')) :
    ∃ row ∈ w.postgres.tables, row.username = cStr body.username ∧ user.id = cStr row.id ∧
      env.verify (cStr row.password) body.password = argon2Ok := by
  obtain ⟨serves, row, lookup, verifies⟩ := credentialsFound_of_checkUser env built ran
  obtain ⟨⟨found, username⟩, w₁, asked, rest⟩ := run_bind_eq_some.mp ran
  obtain ⟨found', server, answered, outcome⟩ :=
    run_getUserByUsernameImpl env built serves body.username
  rw [asked] at answered
  cases answered
  rw [lookup] at outcome
  obtain ⟨member, named⟩ := of_findRow lookup
  refine ⟨row, member, named, ?_, verifies⟩
  cases found with
  | error log => cases rest
  | ok stored =>
      obtain ⟨-, rfl, -⟩ := makeUserWith_ok.mp outcome.symm
      obtain ⟨same, verified, -⟩ := run_verifyPassword env app
        { id := cStr row.id, username := trim body.username, hashed := cStr row.password }
        body.password { w with postgres := server }
      have decided := (run_bind_of_run verified).symm.trans rest
      split at decided
      · cases decided
        rfl
      · cases decided

/-- A registration answered 201 was let through with a body that could be read. -/
theorem addUser_of_created {w w' : World} {ex ex' : Exchange}
    (ran : run (handler env) (RegisterAuthUseCase.execute app ex) w = some (ex', w'))
    (created : ex'.res.status = statusCreated) :
    ∃ body, RegisterAuthUseCase.parseBody app.libraries ex.req = .ok body ∧
      run (handler env)
        (RegisterAuthUseCase.addUser app body (ex.withSession (w.sessionOf ex))) (w.afterKey ex) =
          some (ex', w') := by
  rw [RegisterAuthUseCase.execute, run_bind_of_run (run_isAuthImpl env ex w)] at ran
  dsimp only at ran
  split at ran
  · cases ran
    cases created
  · rw [show RegisterAuthUseCase.parseBody app.libraries
      (ex.withSession (w.sessionOf ex)).req =
        RegisterAuthUseCase.parseBody app.libraries ex.req from rfl] at ran
    split at ran
    · cases ran
      cases created
    · rename_i body parsed
      split at ran
      · cases ran
        cases created
      · exact ⟨body, parsed, ran⟩

theorem content_of_addUser (built : app.userDb.Built name) {w w' : World} {ex ex' : Exchange}
    {body : AuthBody}
    (ran : run (handler env) (RegisterAuthUseCase.addUser app body ex) w = some (ex', w'))
    (created : ex'.res.status = statusCreated) :
    ex'.res.content = cStr (env.newId w.postgres.tables) := by
  rw [RegisterAuthUseCase.addUser] at ran
  split at ran
  · cases ran
    cases created
  split at ran
  · cases ran
    cases created
  obtain ⟨⟨log, hashed⟩, w₁, hashing, rest⟩ := run_bind_eq_some.mp ran
  cases log with
  | some log =>
      cases rest
      cases created
  | none =>
      obtain ⟨rfl, -⟩ := of_hashPassword env hashing
      obtain ⟨added, w₂, inserted, rest⟩ := run_bind_eq_some.mp rest
      cases added with
      | error error =>
          simp only at rest
          split at rest
          · cases rest
            cases created
          · cases rest
            cases created
      | ok id =>
          cases rest
          exact id_of_addUserImpl env built inserted

/-- The body of a registration answered 201 was read, its row was added, and the answer is
the row's id. -/
theorem of_created (built : app.userDb.Built name) {w w' : World} {ex ex' : Exchange}
    (ran : run (handler env) (RegisterAuthUseCase.execute app ex) w = some (ex', w'))
    (created : ex'.res.status = statusCreated) :
    ∃ body, RegisterAuthUseCase.parseBody app.libraries ex.req = .ok body ∧
      Registered env app body w w' ∧ ex'.res.content = cStr (env.newId w.postgres.tables) := by
  obtain ⟨body, parsed, added⟩ := addUser_of_created env ran created
  have content := content_of_addUser env built added created
  rw [postgres_afterKey] at content
  exact ⟨body, parsed, registered_of_created env built parsed ran created, content⟩

/-- A program that can only read a null pointer is done if it returns. -/
theorem eq_pure_of_run {σ α : Type} {h : BackendHandler σ} {post : α → Prop}
    {program : Backend α} (aborts : Within (· = Command.nullDereference) post program) {s last : σ}
    {value : α} (ran : run h program s = some (value, last)) :
    program = pure value ∧ last = s := by
  cases program with
  | done result =>
      cases ran
      exact ⟨rfl, rfl⟩
  | call command next =>
      obtain rfl := aborts.1
      rw [run] at ran
      split at ran
      · cases ran
      · rename_i never _ _
        exact never.elim

/-- The user of a login answered 204 is the one of a row that its body names. -/
theorem of_login (built : app.userDb.Built name) {rounds : Nat} {w w' : World}
    {answer : Answer} {ex : Exchange} {sid : Bytes} {user : User}
    (stepped : (service (handler env) app rounds).step w (.login, ex) = .ok (w', answer))
    (issued : answer.event = some (.login sid user)) :
    ∃ body, LoginAuthUseCase.parseBody app.libraries ex.req = pure (.ok body) ∧
      ∃ row ∈ w.postgres.tables, row.username = cStr body.username ∧ user.id = cStr row.id ∧
        env.verify (cStr row.password) body.password = argon2Ok := by
  have known := (Answer.of_login_event issued).2
  obtain ⟨ex', ran, rfl⟩ := run_of_service_step (handler env) app rounds stepped
  have found : loginUser (handler env) app ex w = some user := known
  rw [loginUser, Option.bind_eq_some_iff] at found
  obtain ⟨⟨⟨named, authenticated⟩, w₁⟩, checked, same⟩ := found
  obtain rfl : named = some user := same
  rw [LoginAuthUseCase.authenticate, run_bind_of_run (run_isAuthImpl env ex w)] at checked
  dsimp only at checked
  split at checked
  · cases checked
  obtain ⟨body, w₂, read, rest⟩ := run_bind_eq_some.mp checked
  obtain ⟨parsed, rfl⟩ := eq_pure_of_run (LoginAuthUseCase.within_parseBody _ _) read
  cases body with
  | error log => cases rest
  | ok body =>
      dsimp only at rest
      split at rest
      · cases rest
      obtain ⟨found, w₃, looked, rest⟩ := run_bind_eq_some.mp rest
      cases found with
      | none => cases rest
      | some other =>
          cases rest
          obtain ⟨row, member, account⟩ := user_of_checkUser env built looked
          rw [postgres_afterKey] at member
          exact ⟨body, parsed, row, member, account⟩

/-! ## Runs -/

/-- The row that a registration answered 201 has added, and its id in the answer. -/
structure Registers (app : Application) (registration : ServedRequest) (row : UserRow) : Prop where
  endpoint : registration.answer.endpoint = .register
  created : registration.answer.exchange.res.status = statusCreated
  content : registration.answer.exchange.res.content = cStr row.id
  credentials : ∃ body encoded,
    RegisterAuthUseCase.parseBody app.libraries registration.exchange.req = .ok body ∧
      row.username = cStr (trim body.username) ∧
      env.hashEncoded app.crypto body.password = (argon2Ok, encoded) ∧
      row.password = cStr (encoded.take app.crypto.encodedLen)

/-- One more request adds no row, or it is a registration answered 201. -/
theorem rows_of_step (built : app.userDb.Built name) {rounds : Nat} {w w' : World}
    {served : ServedRequest} (texts : OwnTexts w.postgres.prepared)
    (stepped : (service (handler env) app rounds).step w served.request =
      .ok (w', served.answer)) :
    OwnTexts w'.postgres.prepared ∧
      (w'.postgres.tables = w.postgres.tables ∨
        ∃ row, w'.postgres.tables = w.postgres.tables ++ [row] ∧ Registers env app served row) := by
  obtain ⟨texts', failed, -⟩ := (World.truthful env).settles_of_step built texts stepped
  refine ⟨texts', ?_⟩
  obtain ⟨-, ran⟩ := Process.endpoint_of_step stepped
  by_cases register : served.answer.endpoint = .register
  · rw [ServedRequest.request, register] at ran
    by_cases success : IsSuccess served.answer.exchange.res.status
    · have created := (RegisterAuthUseCase.within_created app served.exchange).holds_of_run ran
        success
      obtain ⟨body, parsed, registered, content⟩ := of_created env built ran created
      obtain ⟨encoded, hashed, added⟩ := registered.added
      exact .inr ⟨_, added, register, created, content, body, encoded, parsed, rfl, hashed, rfl⟩
    · exact .inl (failed success).1
  · left
    exact (World.truthful env).table_of_run
      (Endpoint.addsNoRow built rounds register served.exchange) texts ran

/-- Every row was added by a registration of the run. -/
theorem rows_registered (built : app.userDb.Built name) {rounds : Nat} {start w : World}
    (noRows : start.postgres.tables = []) (texts : OwnTexts start.postgres.prepared)
    {served : List ServedRequest}
    (ran : (service (handler env) app rounds).run start (served.map ServedRequest.request) =
      .ok (w, served.map ServedRequest.answer)) :
    OwnTexts w.postgres.prepared ∧
      ∀ row ∈ w.postgres.tables, ∃ registration ∈ served, Registers env app registration row := by
  induction served using List.reverseRecOn generalizing w with
  | nil =>
      cases ran
      refine ⟨texts, fun row member => ?_⟩
      rw [noRows] at member
      cases member
  | append_singleton earlier last ih =>
      rw [List.map_append, List.map_append] at ran
      obtain ⟨before, answers, answer, begun, stepped, same⟩ := EventMachine.run_concat_ok.mp ran
      obtain ⟨rfl, lastAnswer⟩ := List.append_inj' same rfl
      cases lastAnswer
      obtain ⟨own, registered⟩ := ih begun
      obtain ⟨own', rows⟩ := rows_of_step env built own stepped
      refine ⟨own', fun row member => ?_⟩
      have old : row ∈ before.postgres.tables →
          ∃ registration ∈ earlier ++ [last], Registers env app registration row := by
        intro here
        obtain ⟨registration, listed, registers⟩ := registered row here
        exact ⟨registration, List.mem_append_left _ listed, registers⟩
      rcases rows with unchanged | ⟨added, appended, registers⟩
      · rw [unchanged] at member
        exact old member
      · rw [appended] at member
        rcases List.mem_append.mp member with here | new
        · exact old here
        · rw [List.mem_singleton.mp new]
          exact ⟨last, by simp, registers⟩

end World

namespace Process

open World

/-- Whoever the user endpoint names has registered and logged in.  In every run that the
process survives of the whole server, with one thread in its event loop, over a users table
and a store that work, the table empty and the store without sessions at first: a request
that is answered 200 with an id follows a login that issued its session id to the user with
that id and that no logout has ended since.  That login follows a registration answered 201
with the same id.  Both were sent the same password, and up to the first NUL the username of
the login is the trimmed one of the registration. -/
theorem accounts_registered {env : Environment} {app : Application} {rounds : Nat}
    {rh : RequestHandler Endpoint} {pg : Postgres}
    (constructed : UserPostgres.construct pg = .ok app.userDb)
    (verifies : VerifiesHashes env app.crypto) (lawful : LawfulLibraries app.libraries)
    {start : World} (noRows : start.postgres.tables = [])
    (nothingPrepared : ∀ client name, start.postgres.prepared client name = none)
    (noSessions : ∀ sid, start.store (sessionPrefix ++ sid) = none) {events : List NetworkEvent}
    {outputs : List (Option ServedRequest)} {last : Process World}
    (ran : (machine (handler env) rh app rounds).run { backend := start } events =
      .ok (last, outputs))
    (utf8 : ∀ request ∈ outputs.reduceOption, ∀ sid user,
      request.answer.event = some (.login sid user) → ValidUtf8 user.id ∧ ValidUtf8 user.username)
    {before after : List ServedRequest} {served : ServedRequest} {id : Bytes}
    (split : outputs.reduceOption = before ++ served :: after)
    (user : served.answer.endpoint = .user)
    (ok : served.answer.exchange.res.status = statusOk)
    (named : answeredId app.libraries served.answer.exchange.res.content = some id) :
    ∃ earlier login later registration sid account body credentials,
      before = earlier ++ login :: later ∧ registration ∈ earlier ∧
      served.exchange.HasSession sid ∧ account.id = id ∧
      login.answer.event = some (.login sid account) ∧
      (∀ request ∈ later, request.answer.Spares sid) ∧
      registration.answer.endpoint = .register ∧
      registration.answer.exchange.res.status = statusCreated ∧
      registration.answer.exchange.res.content = id ∧
      RegisterAuthUseCase.parseBody app.libraries registration.exchange.req = .ok body ∧
      LoginAuthUseCase.parseBody app.libraries login.exchange.req = pure (.ok credentials) ∧
      credentials.password = body.password ∧
      cStr credentials.username = cStr (trim body.username) := by
  have traced := traced_of_run ran
  obtain ⟨sid, session, determined⟩ :=
    traced.determined (World.healthy env) lawful noSessions utf8 split
  obtain ⟨account, loggedIn, same⟩ := ((determined.user user).1 id).mp ⟨ok, named⟩
  obtain ⟨first, loginAnswer, second, parts, issued, spares⟩ := loggedIn
  obtain ⟨earlier, rest, rfl, -, tail⟩ := List.map_eq_append_iff.mp parts
  obtain ⟨login, later, rfl, rfl, rfl⟩ := List.map_eq_cons_iff.mp tail
  -- The rows in the state in which the login came were added before it.
  rw [split, List.append_assoc, List.cons_append] at traced
  obtain ⟨w, w', begun, stepped⟩ := traced.split_step
  have built := UserPostgres.built_of_construct constructed
  have texts := ownTexts_of_fresh nothingPrepared
  obtain ⟨-, registered⟩ := rows_registered env built noRows texts begun
  have isLogin : login.answer.endpoint = .login := (Answer.of_login_event issued).1
  rw [ServedRequest.request, isLogin] at stepped
  obtain ⟨credentials, read, row, member, username, account_id, accepts⟩ :=
    of_login env built stepped issued
  obtain ⟨registration, listed, registers⟩ := registered row member
  obtain ⟨body, encoded, parsed, stored, hashed, password⟩ := registers.credentials
  refine ⟨earlier, login, later, registration, sid, account, body, credentials, rfl, listed,
    session, same, issued, fun request listed => spares _ (List.mem_map_of_mem listed),
    registers.endpoint, registers.created, ?_, parsed, read, ?_, ?_⟩
  · rw [registers.content, ← account_id, same]
  · rw [password, cStr_eq_self (zero_notMem_cStr _)] at accepts
    exact (verifies body.password encoded hashed credentials.password).mp accepts
  · rw [← username, stored]

end Process

/-! ## An account of the sample world -/

/-- A registration or a login with the credentials of the sample row. -/
def credentialsText (path : String) : Bytes :=
  ascii "POST /api/auth/" ++ ascii path ++
    ascii " HTTP/1.1\r\nContent-Type: application/json\r\nContent-Length: 45\r\n\r\n" ++
    (sampleExchange (ascii "username") (ascii "password")).req.body

/-- A registration, a login and a request with the session id that it issued, each on a
connection of its own. -/
def accountEvents : List NetworkEvent :=
  [.accepted, .readDone 0 { bytes := credentialsText "register", fits := by decide +kernel } 0,
    .accepted, .readDone 1 { bytes := credentialsText "login", fits := by decide +kernel } 0,
    .accepted, .readDone 2
      (textChunk "GET /api/user HTTP/1.1\r\nCookie: SESSION=cccccccccccccccc\r\n\r\n"
        (by decide)) 0]

def accountSummaries : List AnswerSummary :=
  [{ session := [], endpoint := .register, status := statusCreated, user := none,
     answered := none },
   { session := []
     endpoint := .login
     status := statusNoContent
     user := some
      { id := sampleRow.id, username := sampleRow.username, hashed := sampleRow.password }
     answered := none },
   { session := ascii "cccccccccccccccc", endpoint := .user, status := statusOk, user := none,
     answered := some sampleRow.id }]

/-- The user who is named has registered first. -/
theorem accounts_registered_sample : ∃ last outputs,
    (Process.machine (World.handler sampleEnvironment) sampleServer sampleApplication 1).run
        { backend := sampleWorld [] } accountEvents = .ok (last, outputs) ∧
      ∃ registration ∈ outputs.reduceOption,
        registration.answer.exchange.res.status = statusCreated ∧
          registration.answer.exchange.res.content = sampleRow.id := by
  have ran : ((Process.machine (World.handler sampleEnvironment) sampleServer
      sampleApplication 1).run { backend := sampleWorld [] } accountEvents).map
        (fun ended => decide (ended.2.reduceOption.map ServedRequest.summary = accountSummaries)) =
      .ok true := by
    decide +kernel
  obtain ⟨last, outputs, ended, shown⟩ := EventMachine.exists_of_view ran
  have summaries := of_decide_eq_true shown
  have utf8 : ∀ request ∈ outputs.reduceOption, ∀ sid user,
      request.answer.event = some (.login sid user) →
        ValidUtf8 user.id ∧ ValidUtf8 user.username := by
    intro request member sid user issued
    have known : request.summary.user = some user := (Answer.of_login_event issued).2
    have listed : request.summary ∈ accountSummaries :=
      summaries ▸ List.mem_map_of_mem member
    simp only [accountSummaries, List.mem_cons, List.not_mem_nil, or_false] at listed
    rcases listed with same | same | same
    · rw [same] at known
      cases known
    · rw [same] at known
      cases known
      exact validUtf8_sampleRow
    · rw [same] at known
      cases known
  obtain ⟨first, rest, split, -, seen⟩ := List.map_eq_cons_iff.mp summaries
  obtain ⟨second, others, rfl, -, seen⟩ := List.map_eq_cons_iff.mp seen
  obtain ⟨named, nothing, rfl, summary, -⟩ := List.map_eq_cons_iff.mp seen
  have before : outputs.reduceOption = [first, second] ++ named :: nothing := split
  obtain ⟨earlier, login, later, registration, sid, account, body, credentials, same, listed, -, -,
      -, -, -, created, content, -⟩ :=
    Process.accounts_registered construct_sampleUserDb World.verifiesHashes_sample
      lawful_sampleLibraries rfl (fun _ _ => rfl) (fun _ => rfl) ended utf8 before
      (congrArg AnswerSummary.endpoint summary) (congrArg AnswerSummary.status summary)
      (congrArg AnswerSummary.answered summary)
  refine ⟨last, outputs, ended, registration, ?_, created, content⟩
  rw [before, same]
  simp [listed]

end CleanArchitecture
