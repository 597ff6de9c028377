import CleanArchitecture.AuthenticatedSessions
import CleanArchitecture.ReliedAnswers
import CleanArchitecture.Utf8Texts

/-!
# Requests that end no process

The use cases read through the pointers that the libraries answer, and one of them dumps a
text that may be no UTF-8 in a function that must not throw.  Over servers whose answers are
whole, and from a users table in UTF-8, every interleaving of requests keeps clear of both
ends, but for the log of a login whose flatbuffer has no password.
-/

namespace CleanArchitecture

open Program Backend WrapperRequest WrapperResponse

/-! ## What is relied on -/

/-- A session's value that can be shown to its user. -/
def Readable (libraries : Libraries) (data : Bytes) : Prop :=
  ∃ id username text, libraries.userId data = some id ∧
    libraries.userUsername data = some username ∧
      libraries.jsonDump (userJson (cStr id) (cStr username)) = some text

/-- A lookup's row has its cells, and an insertion without an error message has an id. -/
structure WholeResult (nParams : Int) (result : Option PgResult) : Prop where
  lookup : nParams = 1 → pqNtuples result ≠ 0 →
    (pqGetvalue result 0 0).isSome ∧ (pqGetvalue result 0 2).isSome
  insertion : nParams = 2 → cStr (pqResultErrorMessage result) = [] →
    (pqGetvalue result 0 0).isSome

/-- The database answers whole results. -/
def WholeResults {σ : Type} (h : BackendHandler σ) : Prop :=
  ∀ client name nParams values lengths formats s result s',
    h (.pqExecPrepared client name nParams values lengths formats) s = some (result, s') →
      WholeResult nParams result

/-- Redis replies, with a readable value if it has one, and the database's results are
whole. -/
def Command.Sound (libraries : Libraries) : (command : Command) → command.Response → Prop
  | .redisCommand _ args => fun reply => ∃ answer, reply = some answer ∧
      (args.head? = some (ascii "GET") → answer.type = .string → Readable libraries answer.str)
  | .pqExecPrepared _ _ nParams _ _ _ => WholeResult nParams
  | _ => fun _ => True

/-- A login whose flatbuffer fails verification and has no password. -/
structure MissesPassword (libraries : Libraries) (request : Endpoint × Exchange) : Prop where
  login : request.1 = .login
  nonempty : request.2.req.body ≠ []
  flatbuffer : request.2.req.contentType = ascii "application/flatbuffer"
  unverified : libraries.loginRequestVerify request.2.req.body = false
  missing : libraries.loginRequestPassword request.2.req.body = none

/-- Logins write sessions, and the other requests read them. -/
structure SessionAccess (endpoint : Endpoint) (args : List Bytes) : Prop where
  reads : args.head? = some (ascii "GET") →
    endpoint ≠ .login ∧ ∃ sid, args = [ascii "GET", storeKey sid]
  writes : args.head? = some (ascii "SET") → endpoint = .login

/-- The commands of a request that relies on sound answers.  It inserts usernames of a
kind. -/
def Command.Survives (libraries : Libraries) (Inserted : Bytes → Prop)
    (request : Endpoint × Exchange) : Command → Prop
  | .redisCommand _ args => SessionAccess request.1 args
  | .pqExecPrepared _ _ nParams values lengths formats => nParams = 2 →
      ∀ username ∈ (paramValues values lengths formats).head?, Inserted username
  | .nullDereference => MissesPassword libraries request
  | .terminate => False
  | _ => True

/-- The strings of a text that the JSON library parses are in UTF-8. -/
def ParsesUtf8 (libraries : Libraries) : Prop :=
  ∀ text json key member, libraries.jsonParse text = some json →
    json.stringMember key = some member → ValidUtf8 member

/-- A program of this request that relies on sound answers. -/
abbrev Survives (libraries : Libraries) (Inserted : Bytes → Prop)
    (request : Endpoint × Exchange) {α : Type} (post : α → Prop) (program : Backend α) : Prop :=
  Relies (Command.Sound libraries) (Command.Survives libraries Inserted request) post program

section Programs

variable {libraries : Libraries} {Inserted : Bytes → Prop} {request : Endpoint × Exchange}
  {α : Type}

theorem survives_dereference {pointer : Option α} (present : pointer.isSome) :
    Survives libraries Inserted request (fun value => pointer = some value)
      (dereference pointer) := by
  obtain ⟨value, rfl⟩ := Option.isSome_iff_exists.mp present
  exact relies_pure rfl

/-! ## Store commands -/

namespace RedisStore

theorem survives_command {args : List Bytes} (access : SessionAccess request.1 args) :
    Survives libraries Inserted request
      (fun reply => args.head? = some (ascii "GET") → reply.type = .string →
        Readable libraries reply.str) (command args) := by
  apply (relies_perform trivial).bind
  intro _ _
  apply (relies_perform trivial).bind
  intro ctx _
  have permitted : (Command.redisCommand ctx args).Survives libraries Inserted request := access
  apply (relies_perform permitted).bind
  rintro _ ⟨reply, rfl, readable⟩
  apply (relies_perform trivial).bind
  intro _ _
  apply (relies_perform trivial).bind
  intro _ _
  exact relies_pure readable

theorem survives_getByteArrayImpl (reader : request.1 ≠ .login) (sid : Bytes) :
    Survives libraries Inserted request
      (fun answer => ∀ data, answer = .ok (some data) → Readable libraries data)
      (getByteArrayImpl (storeKey sid)) := by
  have access : SessionAccess request.1 [ascii "GET", storeKey sid] :=
    ⟨fun _ => ⟨reader, sid, rfl⟩, fun set => absurd set (by simp only [List.head?_cons]; decide)⟩
  apply (survives_command access).bind
  intro reply readable
  apply (relies_perform trivial).bind
  intro _ _
  split
  · rename_i string
    apply relies_pure
    rintro data ⟨⟩
    exact readable rfl string
  · split
    · apply relies_pure
      rintro data ⟨⟩
    · apply relies_pure
      rintro data ⟨⟩

theorem survives_setByteArrayImpl (writer : request.1 = .login) (key value : Bytes) :
    Survives libraries Inserted request (fun _ => True) (setByteArrayImpl key value) := by
  have access : SessionAccess request.1 [ascii "SET", key, value] :=
    ⟨fun get => absurd get (by simp only [List.head?_cons]; decide), fun _ => writer⟩
  exact (survives_command access).bind fun _ _ =>
    (relies_perform trivial).bind fun _ _ => relies_pure trivial

/-- Keys are counted and deleted by all requests. -/
theorem survives_countPositive {name : Bytes}
    (counts : name ≠ ascii "GET" ∧ name ≠ ascii "SET") (key : Bytes) :
    Survives libraries Inserted request (fun _ => True) (countPositive name key) := by
  have access : SessionAccess request.1 [name, key] :=
    ⟨fun get => absurd (Option.some.inj get) counts.1,
      fun set => absurd (Option.some.inj set) counts.2⟩
  apply (survives_command access).bind
  intro reply _
  split
  · exact (relies_perform trivial).bind fun _ _ => relies_pure trivial
  · exact relies_pure trivial

theorem survives_existsImpl (key : Bytes) :
    Survives libraries Inserted request (fun _ => True) (existsImpl key) :=
  survives_countPositive (by decide) key

theorem survives_delImpl (key : Bytes) :
    Survives libraries Inserted request (fun _ => True) (delImpl key) :=
  survives_countPositive (by decide) key

end RedisStore

/-! ## Sessions -/

theorem survives_getSessionKey (ex : Exchange) :
    Survives libraries Inserted request (fun keyed => ∃ sid, keyed.1 = sessionPrefix ++ sid)
      (getSessionKey ex) := by
  have drawn : Survives libraries Inserted request (fun _ => True) (getSessionIdImpl ex) := by
    unfold getSessionIdImpl
    split
    · exact relies_pure trivial
    · exact (relies_perform trivial).bind fun _ _ => relies_pure trivial
  exact drawn.bind fun drawnFor _ => relies_pure ⟨drawnFor.1, rfl⟩

theorem survives_getNewSessionIdImpl (rounds : Nat) (ex : Exchange) :
    Survives libraries Inserted request (fun _ => True) (getNewSessionIdImpl rounds ex) := by
  induction rounds generalizing ex with
  | zero => exact ⟨trivial, fun response => response.elim⟩
  | succ rounds ih =>
      apply (relies_perform trivial).bind
      intro buffer _
      apply (survives_getSessionKey _).bind
      rintro ⟨key, keyed⟩ _
      apply (RedisStore.survives_existsImpl _).bind
      intro taken _
      split
      · exact ih keyed
      · exact relies_pure trivial

theorem survives_isAuthImpl (ex : Exchange) :
    Survives libraries Inserted request (fun tested => ex.Renews tested.2) (isAuthImpl ex) := by
  have tested : Survives libraries Inserted request (fun _ => True) (isAuthImpl ex) :=
    (survives_getSessionKey ex).bind fun _ _ =>
      (RedisStore.survives_existsImpl _).bind fun _ _ => relies_pure trivial
  exact (tested.and_within (onSession_isAuthImpl ex)).mono fun _ renews => renews.2

theorem survives_setSessionUserImpl (writer : request.1 = .login) (rounds : Nat) (user : User)
    (ex : Exchange) :
    Survives libraries Inserted request (fun _ => True)
      (setSessionUserImpl libraries rounds user ex) :=
  (survives_getNewSessionIdImpl rounds ex).bind fun _ _ =>
    (survives_getSessionKey _).bind fun _ _ =>
      (RedisStore.survives_setByteArrayImpl writer _ _).bind fun _ _ => relies_pure trivial

/-- The user of a session can be shown. -/
theorem survives_getSessionUserImpl (reader : request.1 ≠ .login) (ex : Exchange) :
    Survives libraries Inserted request
      (fun got => ∀ user, got.1 = some user →
        (libraries.jsonDump (userJson user.id user.username)).isSome)
      (getSessionUserImpl libraries ex) := by
  apply (survives_getSessionKey ex).bind
  rintro ⟨_, keyed⟩ ⟨sid, rfl⟩
  apply (RedisStore.survives_getByteArrayImpl reader sid).bind
  intro answer readable
  split
  · rename_i data
    obtain ⟨id, username, text, idField, usernameField, dumped⟩ := readable data rfl
    split
    · rw [idField, usernameField]
      apply relies_pure
      rintro user ⟨⟩
      rw [dumped]
      rfl
    · apply relies_pure
      rintro user ⟨⟩
  · apply relies_pure
    rintro user ⟨⟩

theorem survives_clearSessionUserImpl (ex : Exchange) :
    Survives libraries Inserted request (fun _ => True) (clearSessionUserImpl ex) := by
  apply (survives_getSessionKey ex).bind
  rintro ⟨key, keyed⟩ _
  apply (RedisStore.survives_delImpl _).bind
  intro deleted _
  split
  · exact relies_pure trivial
  · exact relies_pure trivial

/-! ## Queries -/

theorem Command.IsQueryUpkeep.survives {statement : PostgresStatement} {command : Command}
    (upkeep : command.IsQueryUpkeep statement) : command.Survives libraries Inserted request := by
  cases command with
  | redisCommand => exact upkeep.elim
  | pqExecPrepared => exact upkeep.elim
  | nullDereference => exact upkeep.elim
  | terminate => exact upkeep.elim
  | _ => exact trivial

/-- Whatever holds of the result of every execution holds of the result of a query. -/
theorem Postgres.survives_query {statement : PostgresStatement} {values : List Bytes}
    {formats : List Int} {holds : Option PgResult → Prop}
    (executes : ∀ client, Survives libraries Inserted request holds
      (Postgres.execPrepared client statement values formats)) :
    Survives libraries Inserted request
      (fun answer => ∀ result, answer = .ok result →
        holds result ∧ cStr (pqResultErrorMessage result) = [])
      (Postgres.query statement values formats) := by
  have upkeep : ∀ {β : Type} {post : β → Prop} {program : Backend β},
      Within (Command.IsQueryUpkeep statement) post program →
        Survives libraries Inserted request post program :=
    fun within => within.relies fun _ upkeep => upkeep.survives
  have attempted : ∀ client, Survives libraries Inserted request holds
      (Postgres.attempts client statement values formats) := by
    intro client
    apply (executes client).bind
    intro first known
    split
    · have bound : Within (Command.IsQueryUpkeep statement) (fun _ => True)
          (pqPrepare client (cStr statement.name) (cStr statement.query)
            (toInt32 statement.numParams) statement.paramTypes) :=
        within_perform rfl
      apply (upkeep bound).bind
      intro rtmp _
      split
      · apply (upkeep (Postgres.upkeep_pqClear first)).bind
        intro _ _
        apply (executes client).bind
        intro second known
        exact (upkeep (Postgres.upkeep_pqClear rtmp)).bind fun _ _ => relies_pure known
      · exact (upkeep (Postgres.upkeep_pqClear rtmp)).bind fun _ _ => relies_pure known
    · exact relies_pure known
  have served : Survives libraries Inserted request holds
      (Postgres.queryWithFallback statement values formats) := by
    apply (upkeep Postgres.upkeep_getClient).bind
    intro client _
    apply (attempted client).bind
    intro result known
    exact (upkeep (Postgres.upkeep_releaseClient client)).bind fun _ _ => relies_pure known
  apply served.bind
  intro result known
  split
  · apply (upkeep (Postgres.upkeep_pqClear result)).bind
    intro _ _
    apply relies_pure
    rintro other ⟨⟩
  · rename_i clear
    apply relies_pure
    rintro other ⟨⟩
    exact ⟨known, not_not.mp clear⟩

namespace UserPostgres

theorem survives_getUserByUsernameImpl (userDb : UserPostgres) (username : Bytes) :
    Survives libraries Inserted request (fun _ => True)
      (userDb.getUserByUsernameImpl username) := by
  have one : toInt32 ([username].length : Int) = 1 := toInt32_of_bounds (by simp) (by simp)
  have executes : ∀ client, Survives libraries Inserted request
      (fun result => pqNtuples result ≠ 0 →
        (pqGetvalue result 0 0).isSome ∧ (pqGetvalue result 0 2).isSome)
      (Postgres.execPrepared client userDb.getUserStatement [username] getUserTypes) := by
    intro client
    refine ⟨fun two => ?_, fun result sound => sound.lookup one⟩
    rw [one] at two
    cases two
  apply (Postgres.survives_query executes).bind
  intro answer known
  cases answer with
  | error log => exact relies_pure trivial
  | ok result =>
      obtain ⟨cells, -⟩ := known result rfl
      simp only
      split
      · exact (relies_perform trivial).bind fun _ _ => relies_pure trivial
      · rename_i rows
        obtain ⟨id, hashed⟩ := cells rows
        apply (survives_dereference id).bind
        intro _ _
        apply (survives_dereference hashed).bind
        intro _ _
        exact (relies_perform trivial).bind fun _ _ => relies_pure trivial

theorem survives_addUserImpl (userDb : UserPostgres) {user : User}
    (inserted : Inserted (cStr user.username)) :
    Survives libraries Inserted request (fun _ => True) (userDb.addUserImpl user) := by
  have two : toInt32 ([user.username, user.hashed].length : Int) = 2 :=
    toInt32_of_bounds (by simp) (by simp)
  have executes : ∀ client, Survives libraries Inserted request
      (fun result => cStr (pqResultErrorMessage result) = [] → (pqGetvalue result 0 0).isSome)
      (Postgres.execPrepared client userDb.addUserStatement [user.username, user.hashed]
        addUserTypes) := by
    intro client
    refine ⟨fun _ => ?_, fun result sound => sound.insertion two⟩
    rw [paramValues_addUserTypes]
    rintro username ⟨⟩
    exact inserted
  apply (Postgres.survives_query executes).bind
  intro answer known
  cases answer with
  | error log => exact relies_pure trivial
  | ok result =>
      obtain ⟨cell, clear⟩ := known result rfl
      apply (survives_dereference (cell clear)).bind
      intro _ _
      exact (relies_perform trivial).bind fun _ _ => relies_pure trivial

end UserPostgres

end Programs

/-! ## Use cases -/

section UseCases

variable {app : Application} {Inserted : Bytes → Prop} {request : Endpoint × Exchange}

theorem User.survives_hashPassword (user : User) :
    Survives app.libraries Inserted request (fun hashed => hashed.2.username = user.username)
      (user.hashPassword app.libraries app.crypto) := by
  apply (User.within_hashPassword app.libraries app.crypto user).relies
  rintro command rfl
  exact trivial

/-- The password is read for the log of a flatbuffer that is not verified. -/
theorem LoginAuthUseCase.survives_parseBody (ex : Exchange) :
    Survives app.libraries Inserted (.login, ex) (fun _ => True)
      (LoginAuthUseCase.parseBody app.libraries ex.req) := by
  unfold LoginAuthUseCase.parseBody
  split
  · exact relies_pure trivial
  · rename_i nonempty
    split
    · rename_i flatbuffer
      have logged : Survives app.libraries Inserted (.login, ex) (fun _ => True)
          (LoginAuthUseCase.logUnverified app.libraries ex.req.body) := by
        unfold LoginAuthUseCase.logUnverified
        split
        · exact relies_pure trivial
        · rename_i unverified
          cases password : app.libraries.loginRequestPassword ex.req.body with
          | none =>
              have misses : MissesPassword app.libraries (.login, ex) :=
                ⟨rfl, nonempty, flatbuffer, Bool.eq_false_of_not_eq_true unverified, password⟩
              exact ⟨misses, fun response => response.elim⟩
          | some password => exact relies_pure trivial
      apply logged.bind
      intro _ _
      split
      · exact relies_pure trivial
      · exact relies_pure trivial
    · exact relies_pure trivial

theorem LoginAuthUseCase.survives_checkUser (body : AuthBody) :
    Survives app.libraries Inserted request (fun _ => True)
      (LoginAuthUseCase.checkUser app body) := by
  apply (app.userDb.survives_getUserByUsernameImpl body.username).bind
  rintro ⟨found, after⟩ _
  cases found with
  | error log => exact relies_pure trivial
  | ok user =>
      have verified : Survives app.libraries Inserted request (fun _ => True)
          (user.verifyPassword app.libraries body.password) := by
        apply (MainCrypto.within_verifyImpl _ _ _).relies
        rintro command rfl
        exact trivial
      apply verified.bind
      intro same _
      split
      · exact relies_pure trivial
      · exact relies_pure trivial

theorem LoginAuthUseCase.survives_authenticate (ex : Exchange) :
    Survives app.libraries Inserted (.login, ex) (fun _ => True)
      (LoginAuthUseCase.authenticate app ex) := by
  apply (survives_isAuthImpl ex).bind
  rintro ⟨auth, _⟩ ⟨sid, -, rfl⟩
  cases auth with
  | true => exact relies_pure trivial
  | false =>
      apply (LoginAuthUseCase.survives_parseBody ex).bind
      intro parsed _
      cases parsed with
      | error log => exact relies_pure trivial
      | ok body =>
          simp only
          split
          · exact relies_pure trivial
          · apply (LoginAuthUseCase.survives_checkUser body).bind
            intro found _
            cases found with
            | none => exact relies_pure trivial
            | some user => exact relies_pure trivial

theorem LoginAuthUseCase.survives_execute (rounds : Nat) (ex : Exchange) :
    Survives app.libraries Inserted (.login, ex) (fun _ => True)
      (LoginAuthUseCase.execute app rounds ex) := by
  apply (LoginAuthUseCase.survives_authenticate ex).bind
  rintro ⟨found, authenticated⟩ _
  cases found with
  | none => exact relies_pure trivial
  | some user =>
      exact (survives_setSessionUserImpl rfl rounds user authenticated).bind fun _ _ =>
        relies_pure trivial

theorem LogoutAuthUseCase.survives_execute (reader : request.1 ≠ .login) (ex : Exchange) :
    Survives app.libraries Inserted request (fun _ => True) (LogoutAuthUseCase.execute app ex) := by
  apply (survives_isAuthImpl ex).bind
  rintro ⟨auth, keyed⟩ _
  cases auth with
  | false => exact relies_pure trivial
  | true =>
      apply (survives_clearSessionUserImpl keyed).bind
      rintro ⟨logout, cleared⟩ _
      cases logout with
      | true => exact relies_pure trivial
      | false =>
          exact (survives_getSessionUserImpl reader cleared).bind fun _ _ => relies_pure trivial

/-- A user that a session shows is dumped. -/
theorem UserAuthUseCase.survives_execute (reader : request.1 ≠ .login) (ex : Exchange) :
    Survives app.libraries Inserted request (fun _ => True) (UserAuthUseCase.execute app ex) := by
  apply (survives_isAuthImpl ex).bind
  rintro ⟨auth, keyed⟩ _
  cases auth with
  | false => exact relies_pure trivial
  | true =>
      apply (survives_getSessionUserImpl reader keyed).bind
      rintro ⟨found, read⟩ dumps
      cases found with
      | none => exact relies_pure trivial
      | some user =>
          obtain ⟨text, dumped⟩ := Option.isSome_iff_exists.mp (dumps user rfl)
          simp only [dumped]
          exact relies_pure trivial

theorem RegisterAuthUseCase.survives_addUser {body : AuthBody}
    (inserted : Inserted (cStr (trim body.username))) (ex : Exchange) :
    Survives app.libraries Inserted request (fun _ => True)
      (RegisterAuthUseCase.addUser app body ex) := by
  unfold RegisterAuthUseCase.addUser
  split
  · exact relies_pure trivial
  · rename_i user made
    obtain ⟨-, rfl, -⟩ := makeUserWith_ok.mp (Prod.ext made rfl)
    split
    · exact relies_pure trivial
    · rename_i set accepted
      rw [User.setPassword_accepted accepted]
      apply (User.survives_hashPassword _).bind
      rintro ⟨log, hashed⟩ named
      cases log with
      | some log => exact relies_pure trivial
      | none =>
          have crossing : Inserted (cStr hashed.username) := by
            rw [named]
            exact inserted
          apply (app.userDb.survives_addUserImpl crossing).bind
          intro added _
          split
          · split
            · exact relies_pure trivial
            · exact relies_pure trivial
          · exact relies_pure trivial

theorem RegisterAuthUseCase.survives_execute {ex : Exchange}
    (inserts : ∀ body, RegisterAuthUseCase.parseBody app.libraries ex.req = .ok body →
      Inserted (cStr (trim body.username))) :
    Survives app.libraries Inserted request (fun _ => True)
      (RegisterAuthUseCase.execute app ex) := by
  apply (survives_isAuthImpl ex).bind
  rintro ⟨auth, _⟩ ⟨sid, -, rfl⟩
  cases auth with
  | true => exact relies_pure trivial
  | false =>
      simp only [Bool.false_eq_true, if_false]
      split
      · exact relies_pure trivial
      · rename_i body parsed
        split
        · exact relies_pure trivial
        · exact RegisterAuthUseCase.survives_addUser (inserts body parsed) _

/-- Only a registration inserts, under the username of its body. -/
theorem Endpoint.survives_handle (rounds : Nat) {request : Endpoint × Exchange}
    (inserts : ∀ body, RegisterAuthUseCase.parseBody app.libraries request.2.req = .ok body →
      Inserted (cStr (trim body.username))) :
    Survives app.libraries Inserted request (fun _ => True)
      (request.1.handle app rounds request.2) := by
  obtain ⟨endpoint, ex⟩ := request
  cases endpoint with
  | user => exact UserAuthUseCase.survives_execute (fun same => by cases same) ex
  | login => exact LoginAuthUseCase.survives_execute rounds ex
  | logout => exact LogoutAuthUseCase.survives_execute (fun same => by cases same) ex
  | register => exact RegisterAuthUseCase.survives_execute inserts

end UseCases

/-! ## Servers whose answers are whole -/

/-- The username of a body that is parsed is in UTF-8. -/
theorem validUtf8_of_parseBody {libraries : Libraries} (parses : ParsesUtf8 libraries)
    {req : Request} {body : AuthBody}
    (parsed : RegisterAuthUseCase.parseBody libraries req = .ok body) :
    ValidUtf8 body.username := by
  unfold RegisterAuthUseCase.parseBody parseJsonBody at parsed
  split at parsed
  · cases parsed
  · split at parsed
    · cases parsed
    · rename_i json read
      split at parsed
      · rename_i username password named _
        cases parsed
        exact parses _ json _ username read named
      · cases parsed

/-- Every row is in UTF-8. -/
def RowsUtf8 (rows : List UserRow) : Prop :=
  ∀ row ∈ rows, ValidUtf8 row.id ∧ ValidUtf8 row.username

/-- An authenticating backend whose lookups answer whole rows, and that names new rows in
UTF-8. -/
structure WholeBackend {σ : Type} (h : BackendHandler σ) (rows : σ → List UserRow)
    (view : σ → StoreMap) (prepared : σ → Nat → Bytes → Option Bytes)
    (Matches : Bytes → Bytes → Prop) : Prop
    extends AuthenticatingBackend h rows view prepared Matches where
  cells : ∀ client name values lengths formats s result s', OwnTexts (prepared s) →
    h (.pqExecPrepared client name 1 values lengths formats) s = some (result, s') →
      pqNtuples result ≠ 0 → (pqGetvalue result 0 0).isSome ∧ (pqGetvalue result 0 2).isSome
  ids : ∀ client name values lengths formats s result s', OwnTexts (prepared s) →
    h (.pqExecPrepared client name 2 values lengths formats) s = some (result, s') →
      ∀ id, pqGetvalue result 0 0 = some id → ValidUtf8 id

theorem LawfulLibraries.readable_createUser {libraries : Libraries}
    (lawful : LawfulLibraries libraries) {id username : Bytes} (idUtf8 : ValidUtf8 (cStr id))
    (usernameUtf8 : ValidUtf8 (cStr username)) :
    Readable libraries (libraries.createUser id username) := by
  obtain ⟨text, dumped, -⟩ := lawful.json_user _ _ idUtf8 usernameUtf8
  exact ⟨id, username, text, lawful.user_id _ _, lawful.user_username _ _, dumped⟩

/-- A session's value that was issued for a row in UTF-8 is readable. -/
theorem Issued.readable {ι : Type} {libraries : Libraries} {Matches : Bytes → Bytes → Prop}
    {requests : ι → Endpoint × Exchange} {rows : List UserRow} {value : Bytes}
    (lawful : LawfulLibraries libraries) (issued : Issued libraries Matches requests rows value)
    (utf8 : RowsUtf8 rows) : Readable libraries value := by
  obtain ⟨j, user, vouches, rfl⟩ := issued
  obtain ⟨-, body, row, member, -, named, -, sameId, sameName⟩ := vouches
  obtain ⟨id, username⟩ := utf8 row member
  have idRead : ValidUtf8 (cStr user.id) := by
    rw [sameId, cStr_cStr]
    exact validUtf8_cStr id
  have usernameRead : ValidUtf8 (cStr user.username) := by
    rw [sameName]
    exact validUtf8_cStr_trim (named ▸ username)
  exact lawful.readable_createUser idRead usernameRead

/-- An insertion without an error message answers the id. -/
theorem Inserts.cell_of_clear {params : List Bytes} {before after : List UserRow}
    {answer : PgResult} (inserts : Inserts params before answer after)
    (clear : cStr (pqResultErrorMessage (some answer)) = []) :
    (pqGetvalue (some answer) 0 0).isSome := by
  cases inserts with
  | refused failed => exact absurd clear failed
  | added _ _ cell => rw [cell]; rfl

namespace WholeBackend

variable {σ ι : Type} {h : BackendHandler σ} {rows : σ → List UserRow} {view : σ → StoreMap}
  {prepared : σ → Nat → Bytes → Option Bytes} {Matches : Bytes → Bytes → Prop}
  (whole : WholeBackend h rows view prepared Matches) {libraries : Libraries}
  {requests : ι → Endpoint × Exchange}

section Calls

variable {request : Endpoint × Exchange} {command : Command} {response : command.Response}
  {s s' : σ}

include whole

/-- The table stays in UTF-8. -/
theorem rowsUtf8_of_call (own : command.PreparesOwn)
    (survives : command.Survives libraries ValidUtf8 request) (texts : OwnTexts (prepared s))
    (utf8 : RowsUtf8 (rows s)) (answered : h command s = some (response, s')) :
    RowsUtf8 (rows s') := by
  by_cases none : command.AddsNoRow
  · rwa [whole.table_of_addsNoRow none texts answered]
  · cases command with
    | pqExecPrepared client name nParams values lengths formats =>
        obtain rfl : nParams = 2 := by_contra fun other => none ⟨trivial, other⟩
        obtain ⟨answer, rfl, inserts⟩ := whole.inserts _ _ _ _ _ _ _ _ texts answered
        have ids := whole.ids _ _ _ _ _ _ _ _ texts answered
        generalize rows s' = after at inserts
        cases inserts with
        | refused => exact utf8
        | added succeeded params cell free =>
            intro row member
            rcases List.mem_append.mp member with old | new
            · exact utf8 row old
            · obtain rfl := List.mem_singleton.mp new
              exact ⟨ids _ cell, survives rfl _ (by rw [params]; rfl)⟩
    | pqPrepare => exact absurd ⟨own, trivial⟩ none
    | _ => exact absurd ⟨trivial, trivial⟩ none

theorem sound_of_call {evidence : ι → Evidence} {i : ι}
    (allowed : (evidenceProtocol libraries (requests i)).allows (evidence i) command)
    (lawful : LawfulLibraries libraries) (texts : OwnTexts (prepared s))
    (authenticated : Authenticated libraries Matches requests evidence (rows s) (view s))
    (utf8 : RowsUtf8 (rows s)) (answered : h command s = some (response, s')) :
    command.Sound libraries response := by
  cases command with
  | redisCommand context args =>
      obtain ⟨handle, rfl, -⟩ := whole.toHealthyStore.of_redisCommand answered
      refine ⟨_, rfl, fun get string => ?_⟩
      obtain ⟨sid, rfl⟩ := allowed.of_get get
      rw [redisReply_get, storeKey_eq_append] at string ⊢
      split at string
      · cases string
      · rename_i value found
        exact (authenticated.sessions _ _ found).2.readable lawful utf8
  | pqExecPrepared client name nParams values lengths formats =>
      constructor
      · rintro rfl
        exact whole.cells _ _ _ _ _ _ _ _ texts answered
      · rintro rfl clear
        obtain ⟨answer, rfl, inserts⟩ := whole.inserts _ _ _ _ _ _ _ _ texts answered
        exact inserts.cell_of_clear clear
  | _ => exact trivial

end Calls

variable [DecidableEq ι]

include whole

/-- A call that is relied on is answered soundly, and keeps what the answers rest on. -/
theorem step {evidence : ι → Evidence} {i : ι} {command : Command} {response : command.Response}
    {s s' : σ} (lawful : LawfulLibraries libraries)
    (allowed : (evidenceProtocol libraries (requests i)).allows (evidence i) command)
    (survives : command.Survives libraries ValidUtf8 (requests i))
    (held : OwnTexts (prepared s) ∧
      Authenticated libraries Matches requests evidence (rows s) (view s) ∧ RowsUtf8 (rows s))
    (answered : h command s = some (response, s')) :
    command.Sound libraries response ∧ OwnTexts (prepared s') ∧
      Authenticated libraries Matches requests
        (Function.update evidence i ((evidenceProtocol libraries (requests i)).next (evidence i)
          command response)) (rows s') (view s') ∧ RowsUtf8 (rows s') := by
  obtain ⟨texts, authenticated, utf8⟩ := held
  obtain ⟨texts', authenticated'⟩ :=
    whole.toAuthenticatingBackend.step allowed texts authenticated answered
  exact ⟨whole.sound_of_call allowed lawful texts authenticated utf8 answered, texts',
    authenticated',
    whole.rowsUtf8_of_call (preparesOwn_of_allowed allowed) survives texts utf8 answered⟩

/-- Requests that end no process.  In every interleaving of requests, from a table in UTF-8
and a store without sessions, the table stays in UTF-8, and the only threads that stand at
an end of the process have drawn no free session id within their rounds or log the missing
password of an unverified flatbuffer. -/
theorem requests_survive {app : Application} {pg : Postgres}
    (constructed : UserPostgres.construct pg = .ok app.userDb)
    (lawful : LawfulLibraries app.libraries) (parses : ParsesUtf8 app.libraries) (rounds : Nat)
    {start : σ} (fresh : ∀ client name, prepared start client name = none)
    (noSessions : ∀ sid, view start (sessionPrefix ++ sid) = none)
    (utf8 : RowsUtf8 (rows start)) {schedule : List ι}
    {turns : List (Turn Command Command.Response Exchange Evidence σ ι)}
    {last : Threads Command Command.Response Exchange Evidence σ ι}
    (ran : (interleaving (fun i => evidenceProtocol app.libraries (requests i)) h).run
      (AuthenticatingBackend.threads app rounds requests start) schedule = .ok (last, turns)) :
    RowsUtf8 (rows last.shared) ∧
      ∀ i command next, last.programs i = .call command next → command.IsAbort →
        command = .outOfRounds ∨
          command = .nullDereference ∧ MissesPassword app.libraries (requests i) := by
  have built := UserPostgres.built_of_construct constructed
  have follows : (AuthenticatingBackend.threads app rounds requests start).Follow
      (fun i => evidenceProtocol app.libraries (requests i))
      fun i ex reached => (requests i).1 = .user → ShowsRead app.libraries ex reached :=
    fun i => Endpoint.follows_evidence built rounds (requests i)
  have survives : ∀ i, Survives app.libraries ValidUtf8 (requests i) (fun _ => True)
      ((AuthenticatingBackend.threads app rounds requests start).programs i) :=
    fun i => Endpoint.survives_handle rounds fun _ parsed =>
      validUtf8_cStr_trim (validUtf8_cStr (validUtf8_of_parseBody parses parsed))
  obtain ⟨⟨-, -, stays⟩, relies⟩ := Threads.relies_of_run
    (fun evidence s => OwnTexts (prepared s) ∧
      Authenticated app.libraries Matches requests evidence (rows s) (view s) ∧
      RowsUtf8 (rows s))
    (fun _ _ _ _ _ _ allowed survives held answered =>
      whole.step lawful allowed survives held answered)
    follows ⟨ownTexts_of_fresh fresh, authenticated_start noSessions, utf8⟩ survives ran
  refine ⟨stays, fun i command next calls abort => ?_⟩
  have here := relies i
  rw [calls] at here
  have reached := here.1
  cases command with
  | nullDereference => exact .inr ⟨rfl, reached⟩
  | terminate => exact reached.elim
  | outOfRounds => exact .inl rfl
  | _ => exact abort.elim

end WholeBackend

/-! ## The world -/

theorem cells_usersEngine (newId : List UserRow → Bytes) (params : List Bytes)
    (rows : List UserRow)
    (answers : pqNtuples
      (some ((usersEngine newId).execute UserPostgres.getUserQuery params rows).1) ≠ 0) :
    (pqGetvalue (some ((usersEngine newId).execute UserPostgres.getUserQuery params rows).1)
        0 0).isSome ∧
      (pqGetvalue (some ((usersEngine newId).execute UserPostgres.getUserQuery params rows).1)
        0 2).isSome := by
  simp only [usersEngine, if_neg UserPostgres.addUserQuery_ne.symm, if_true] at answers ⊢
  split at answers
  · cases found : findRow rows _ with
    | none =>
        rw [found] at answers
        exact absurd rfl answers
    | some row => exact ⟨rfl, rfl⟩
  · exact absurd rfl answers
  · exact absurd rfl answers

theorem id_usersEngine (newId : List UserRow → Bytes) (params : List Bytes) (rows : List UserRow)
    {id : Bytes}
    (cell : pqGetvalue
      (some ((usersEngine newId).execute UserPostgres.addUserQuery params rows).1) 0 0 = some id) :
    newId rows = id := by
  simp only [usersEngine, if_neg UserPostgres.addUserQuery_ne, if_true] at cell
  split at cell
  · cases cell
  · split at cell
    · exact Option.some.inj cell
    · cases cell
  · cases cell

theorem wholeResult_failedResult (nParams : Int) {message : String}
    (nonempty : cStr (ascii message) ≠ []) : WholeResult nParams (some (failedResult message)) where
  lookup _ answers := absurd rfl answers
  insertion _ clear := absurd clear nonempty

theorem World.wholeResults (env : Environment) : WholeResults (World.handler env) := by
  intro client name nParams values lengths formats w result w' answered
  cases answered
  simp only [PgServer.execPrepared]
  cases found : w.postgres.prepared client name with
  | none => exact wholeResult_failedResult nParams (by decide)
  | some text =>
      simp only
      split
      · rename_i arity
        constructor
        · rintro rfl answers
          obtain rfl := (usersEngine_parameters_eq_one env.newId).mp arity.symm
          exact cells_usersEngine env.newId _ _ answers
        · rintro rfl clear
          obtain rfl := (usersEngine_parameters_eq_two env.newId).mp arity.symm
          exact (inserts_usersEngine env.newId _ _).cell_of_clear clear
      · exact wholeResult_failedResult nParams (by decide)

theorem World.whole (env : Environment) (ids : ∀ rows, ValidUtf8 (env.newId rows)) :
    WholeBackend (World.handler env) (fun w => w.postgres.tables) World.store
      (fun w => w.postgres.prepared)
      fun encoded password => env.verify encoded password = argon2Ok where
  toAuthenticatingBackend := World.authenticating env
  cells _ _ _ _ _ _ _ _ _ answered :=
    (World.wholeResults env _ _ _ _ _ _ _ _ _ answered).lookup rfl
  ids client name values lengths formats w result w' texts answered id cell := by
    cases answered
    simp only [PgServer.execPrepared] at cell
    cases found : w.postgres.prepared client name with
    | none =>
        rw [found] at cell
        cases cell
    | some text =>
        rw [found] at cell
        simp only at cell
        split at cell
        · rename_i arity
          obtain rfl := (usersEngine_parameters_eq_two env.newId).mp arity.symm
          obtain rfl := id_usersEngine env.newId _ _ cell
          exact ids _
        · cases cell

/-! ## A login that logs a missing password -/

theorem validUtf8_newId (rows : List UserRow) : ValidUtf8 (sampleEnvironment.newId rows) := by
  have zeros : ∀ b ∈ ascii "00000000-0000-0000-0000-00000000000", b.toNat < 128 := by
    decide +kernel
  have digits : ∀ b ∈ decimal rows.length, b.toNat < 128 := by
    intro b member
    by_contra high
    have noDigit : isdigit b = false := by
      simp only [isdigit, Bool.and_eq_false_iff, decide_eq_false_iff_not, UInt8.le_iff_toNat_le]
      exact .inr fun low => high (lt_of_le_of_lt low (by decide))
    exact notMem_decimal noDigit _ member
  exact validUtf8_of_ascii fun b member => (List.mem_append.mp member).elim (zeros b) (digits b)

/-- A string in UTF-8, or no string. -/
def JsonValue.textUtf8 : JsonValue → Bool
  | .string text => ValidUtf8 text
  | _ => true

def JsonValue.membersUtf8 : JsonValue → Bool
  | .object members => members.all fun member => member.2.textUtf8
  | _ => true

/-- The sample libraries with a parser that takes only UTF-8. -/
def utf8Libraries : Libraries :=
  { sampleLibraries with
    jsonParse := fun text => (sampleLibraries.jsonParse text).filter JsonValue.membersUtf8 }

theorem parsesUtf8_utf8Libraries : ParsesUtf8 utf8Libraries := by
  intro text json key member parsed found
  have checked := (Option.filter_eq_some_iff.mp parsed).2
  cases json with
  | object members =>
      simp only [JsonValue.stringMember] at found
      split at found
      · rename_i name value at_key
        cases found
        have utf8 := List.all_eq_true.mp checked _ (List.mem_of_find?_eq_some at_key)
        exact of_decide_eq_true utf8
      · cases found
  | _ => cases found

theorem lawful_utf8Libraries : LawfulLibraries utf8Libraries where
  user_verify := lawful_sampleLibraries.user_verify
  user_id := lawful_sampleLibraries.user_id
  user_username := lawful_sampleLibraries.user_username
  json_user id username idUtf8 usernameUtf8 := by
    obtain ⟨text, dumped, parsed⟩ :=
      lawful_sampleLibraries.json_user id username idUtf8 usernameUtf8
    refine ⟨text, dumped, Option.filter_eq_some_iff.mpr ⟨parsed, ?_⟩⟩
    simp [userJson, JsonValue.membersUtf8, JsonValue.textUtf8, idUtf8, usernameUtf8]

def utf8Application : Application :=
  { sampleApplication with libraries := utf8Libraries }

/-- A flatbuffer without a password, and the registration of a username beyond ASCII. -/
def missingPassword : Bool → Endpoint × Exchange
  | false => (.login, { req := { contentType := ascii "application/flatbuffer", body := [0] } })
  | true =>
      (.register, sampleExchange (ascii "J" ++ [195, 182] ++ ascii "rgensen") (ascii "password"))

/-- A thread that reads through a null pointer. -/
def AtNull {α : Type} : Backend α → Bool
  | .call .nullDereference _ => true
  | _ => false

theorem of_atNull {α : Type} {program : Backend α} (atNull : AtNull program = true) :
    ∃ next, program = .call .nullDereference next := by
  cases program with
  | done value => cases atNull
  | call command next =>
      cases command with
      | nullDereference => exact ⟨next, rfl⟩
      | _ => cases atNull

/-- The login is at its end, and the registration goes on to be answered. -/
theorem requests_survive_sample : ∃ last turns next ex,
    (interleaving (fun i : Bool => evidenceProtocol utf8Libraries (missingPassword i))
        (World.handler sampleEnvironment)).run
        (AuthenticatingBackend.threads utf8Application 1 missingPassword (sampleWorld []))
        ((List.replicate 7 [false, true]).flatten ++ List.replicate 11 true) = .ok (last, turns) ∧
      last.programs false = .call .nullDereference next ∧
      MissesPassword utf8Libraries (missingPassword false) ∧
      last.programs true = .done ex ∧ ex.res.status = statusCreated ∧
      RowsUtf8 last.shared.postgres.tables := by
  have ran : ((interleaving (fun i : Bool => evidenceProtocol utf8Libraries (missingPassword i))
        (World.handler sampleEnvironment)).run
        (AuthenticatingBackend.threads utf8Application 1 missingPassword (sampleWorld []))
        ((List.replicate 7 [false, true]).flatten ++ List.replicate 11 true)).map
      (fun ended => decide (AtNull (ended.1.programs false) = true ∧
        answerOf ended.1 true = some (statusCreated, sampleEnvironment.newId []))) = .ok true := by
    decide +kernel
  obtain ⟨last, turns, ended, shown⟩ := EventMachine.exists_of_view ran
  obtain ⟨stands, answered⟩ := of_decide_eq_true shown
  obtain ⟨next, calls⟩ := of_atNull stands
  obtain ⟨ex, finished, created, -⟩ := of_answerOf answered
  have constructed : UserPostgres.construct {} = .ok utf8Application.userDb :=
    construct_sampleUserDb
  have noRows : RowsUtf8 (sampleWorld []).postgres.tables := List.forall_mem_nil _
  obtain ⟨utf8, ends⟩ := (World.whole sampleEnvironment validUtf8_newId).requests_survive
    constructed lawful_utf8Libraries parsesUtf8_utf8Libraries 1 (fun _ _ => rfl)
    (fun _ => rfl) noRows ended
  rcases ends false _ next calls trivial with outOfRounds | ⟨-, misses⟩
  · cases outOfRounds
  · exact ⟨last, turns, next, ex, ended, calls, misses, finished, created, utf8⟩

end CleanArchitecture
