import CleanArchitecture.AuthUseCases

/-!
# Calls that leave the store alone

The parts of the use cases between their session functions send no Redis
command, whatever the database and argon2 answer.
-/

namespace CleanArchitecture

open Program Backend

/-- A program without Redis commands, with a postcondition. -/
abbrev OffStore {α : Type} (post : α → Prop) (program : Backend α) : Prop :=
  Within (fun command => ¬ command.IsRedisCommand) post program

/-- Such a program keeps what a healthy store holds. -/
theorem HealthyStore.of_offStore {σ α : Type} {h : BackendHandler σ} {view : σ → StoreMap}
    (healthy : HealthyStore h view) {post : α → Prop} {program : Backend α}
    (offStore : OffStore post program) {s last : σ} {result : α}
    (ran : run h program s = some (result, last)) : view last = view s ∧ post result :=
  offStore.of_run view healthy.frame ran

theorem offStore_call {command : Command} (other : ¬ command.IsRedisCommand) :
    OffStore (fun _ => True) (perform command) :=
  within_perform other

theorem within_dereference {α : Type} (pointer : Option α) :
    Within (· = Command.nullDereference) (fun value => pointer = some value)
      (dereference pointer) := by
  cases pointer with
  | none => exact ⟨rfl, fun response => response.elim⟩
  | some value => exact within_pure rfl

theorem offStore_dereference {α : Type} (pointer : Option α) :
    OffStore (fun value => pointer = some value) (dereference pointer) := by
  refine (within_dereference pointer).mono ?_ fun _ found => found
  rintro command rfl
  exact not_false

theorem offStore_getContext : OffStore (fun _ => True) RedisStore.getContext :=
  (offStore_call id).bind fun _ _ => offStore_call id

theorem offStore_releaseContext (ctx : Nat) :
    OffStore (fun _ => True) (RedisStore.releaseContext ctx) :=
  (offStore_call id).bind fun _ _ => offStore_call id

/-! ## Queries -/

/-- The calls of a query: the pool of clients, the two commands and their results. -/
def Command.IsDatabaseCall : Command → Prop
  | .acquire .postgres => True
  | .popFront .postgres => True
  | .pushBack .postgres _ => True
  | .release .postgres => True
  | .pqExecPrepared .. => True
  | .pqPrepare .. => True
  | .pqClear _ => True
  | _ => False

/-- The calls that neither server sees, and the bookkeeping of libpq. -/
def Command.IsQuiet : Command → Prop
  | .redisCommand _ _ => False
  | .pqExecPrepared .. => False
  | .pqPrepare .. => False
  | _ => True

/-- A program of database calls alone. -/
abbrev OnDatabase {α : Type} (program : Backend α) : Prop :=
  Within Command.IsDatabaseCall (fun _ => True) program

theorem OnDatabase.offStore {α : Type} {program : Backend α} (onDatabase : OnDatabase program) :
    OffStore (fun _ => True) program := by
  refine Within.mono onDatabase ?_ fun _ _ => trivial
  intro command call redis
  cases command <;> first | exact redis | exact call

/-- The calls of one query: its statement is executed with its values, or prepared. -/
def Command.IsQueryCall (statement : PostgresStatement) (values : List Bytes) (formats : List Int) :
    Command → Prop
  | .acquire .postgres => True
  | .popFront .postgres => True
  | .pushBack .postgres _ => True
  | .release .postgres => True
  | .pqExecPrepared _ name nParams vals _ fmts =>
      name = cStr statement.name ∧ nParams = toInt32 values.length ∧ vals = values ∧ fmts = formats
  | .pqPrepare _ name query _ _ => name = cStr statement.name ∧ query = cStr statement.query
  | .pqClear _ => True
  | _ => False

namespace Postgres

variable (statement : PostgresStatement) (values : List Bytes) (formats : List Int)

theorem within_call {command : Command} (call : command.IsQueryCall statement values formats) :
    Within (Command.IsQueryCall statement values formats) (fun _ => True)
      (perform command : Backend command.Response) :=
  within_perform call

/-- The statement is executed, and prepared and executed again where that fails. -/
theorem within_attempts {allowed : Command → Prop} (client : Nat)
    (executed : allowed (.pqExecPrepared client (cStr statement.name) (toInt32 values.length) values
      (values.map fun value => toInt32 value.length) formats))
    (prepared : allowed (.pqPrepare client (cStr statement.name) (cStr statement.query)
      (toInt32 statement.numParams) statement.paramTypes))
    (cleared : ∀ result, allowed (.pqClear result)) :
    Within allowed (fun _ => True) (attempts client statement values formats) := by
  have execution : Within allowed (fun _ => True) (execPrepared client statement values formats) :=
    within_perform executed
  have preparation : Within allowed (fun _ => True) (pqPrepare client (cStr statement.name)
      (cStr statement.query) (toInt32 statement.numParams) statement.paramTypes) :=
    within_perform prepared
  have clearing : ∀ result, Within allowed (fun _ => True) (pqClear result) :=
    fun result => within_perform (cleared result)
  apply execution.bind
  intro result _
  split
  · apply preparation.bind
    intro rtmp _
    split
    · refine (clearing result).bind fun _ _ => execution.bind fun _ _ => ?_
      exact (clearing rtmp).bind fun _ _ => within_pure trivial
    · exact (clearing rtmp).bind fun _ _ => within_pure trivial
  · exact within_pure trivial

theorem within_query :
    Within (Command.IsQueryCall statement values formats) (fun _ => True)
      (query statement values formats) := by
  have taken : Within (Command.IsQueryCall statement values formats) (fun _ => True) getClient :=
    (within_call _ _ _ (by trivial)).bind fun _ _ => within_call _ _ _ (by trivial)
  have released : ∀ client, Within (Command.IsQueryCall statement values formats) (fun _ => True)
      (releaseClient client) := fun client =>
    (within_call _ _ _ (by trivial)).bind fun _ _ => within_call _ _ _ (by trivial)
  have served : Within (Command.IsQueryCall statement values formats) (fun _ => True)
      (queryWithFallback statement values formats) := by
    apply taken.bind
    intro client _
    have attempted : Within (Command.IsQueryCall statement values formats) (fun _ => True)
        (attempts client statement values formats) :=
      within_attempts _ _ _ client ⟨rfl, rfl, rfl, rfl⟩ ⟨rfl, rfl⟩ fun _ => trivial
    exact attempted.bind fun _ _ => (released client).bind fun _ _ => within_pure trivial
  apply served.bind
  intro result _
  split
  · exact (within_call _ _ _ (by trivial)).bind fun _ _ => within_pure trivial
  · exact within_pure trivial

theorem onDatabase_query : OnDatabase (query statement values formats) := by
  refine (within_query statement values formats).mono ?_ fun _ _ => trivial
  intro command call
  cases command with
  | acquire pool => cases pool <;> exact call
  | popFront pool => cases pool <;> exact call
  | pushBack pool => cases pool <;> exact call
  | release pool => cases pool <;> exact call
  | pqExecPrepared => trivial
  | pqPrepare => trivial
  | pqClear => trivial
  | _ => exact call

end Postgres

/-! ## The users table -/

/-- A user from the database has the id that a C string holds. -/
theorem UserPostgres.offStore_getUserByUsernameImpl (userDb : UserPostgres) (username : Bytes) :
    OffStore (fun found => ∀ user, found.1 = .ok user → 0 ∉ user.id)
      (userDb.getUserByUsernameImpl username) := by
  apply (Postgres.onDatabase_query _ _ _).offStore.bind
  intro answer _
  cases answer with
  | error log =>
      apply within_pure
      rintro user ⟨⟩
  | ok result =>
      simp only
      split
      · refine (offStore_call id).bind fun _ _ => within_pure ?_
        rintro user ⟨⟩
      · apply (offStore_dereference _).bind
        intro rowId _
        apply (offStore_dereference _).bind
        intro hashed _
        refine (offStore_call id).bind fun _ _ => within_pure ?_
        intro user made
        have parts := (makeUserWith_ok.mp (Prod.ext made rfl)).2.1
        rw [parts]
        exact zero_notMem_cStr rowId

theorem UserPostgres.offStore_addUserImpl (userDb : UserPostgres) (user : User) :
    OffStore (fun _ => True) (userDb.addUserImpl user) := by
  apply (Postgres.onDatabase_query _ _ _).offStore.bind
  intro answer _
  cases answer with
  | error log => exact within_pure trivial
  | ok result =>
      apply (offStore_dereference _).bind
      intro rowId _
      exact (offStore_call id).bind fun _ _ => within_pure trivial

/-! ## Passwords -/

theorem MainCrypto.within_hashImpl (libraries : Libraries) (crypto : MainCrypto)
    (password : Bytes) :
    Within (· = .argon2idHashEncoded crypto password) (fun _ => True)
      (crypto.hashImpl libraries password) := by
  have called : Within (· = .argon2idHashEncoded crypto password) (fun _ => True)
      (argon2idHashEncoded crypto password) :=
    within_perform rfl
  apply called.bind
  intro answer _
  by_cases failed : answer.1 ≠ argon2Ok
  · simp only [if_pos failed]
    exact within_pure trivial
  · simp only [if_neg failed]
    exact within_pure trivial

theorem MainCrypto.within_verifyImpl (libraries : Libraries) (password hashed : Bytes) :
    Within (· = .argon2idVerify (cStr hashed) password) (fun _ => True)
      (MainCrypto.verifyImpl libraries password hashed) := by
  have called : Within (· = .argon2idVerify (cStr hashed) password) (fun _ => True)
      (argon2idVerify (cStr hashed) password) :=
    within_perform rfl
  apply called.bind
  intro err _
  split
  · exact within_pure trivial
  · split
    · exact within_pure trivial
    · exact within_pure trivial

theorem MainCrypto.offStore_verifyImpl (libraries : Libraries) (password hashed : Bytes) :
    OffStore (fun _ => True) (MainCrypto.verifyImpl libraries password hashed) := by
  refine (MainCrypto.within_verifyImpl libraries password hashed).mono ?_ fun _ _ => trivial
  rintro command rfl
  exact not_false

/-- A hashed password leaves the username as it is. -/
theorem User.within_hashPassword (libraries : Libraries) (crypto : MainCrypto) (user : User) :
    Within (· = .argon2idHashEncoded crypto user.password)
      (fun hashed => hashed.2.username = user.username)
      (user.hashPassword libraries crypto) := by
  apply (MainCrypto.within_hashImpl libraries crypto user.password).bind
  intro hash _
  cases hash with
  | error log => exact within_pure rfl
  | ok hash => exact within_pure rfl

theorem User.offStore_hashPassword (libraries : Libraries) (crypto : MainCrypto) (user : User) :
    OffStore (fun _ => True) (user.hashPassword libraries crypto) := by
  refine (User.within_hashPassword libraries crypto user).mono ?_ fun _ _ => trivial
  rintro command rfl
  exact not_false

/-! ## Use cases -/

theorem LoginAuthUseCase.within_logUnverified (libraries : Libraries) (body : Bytes) :
    Within (· = Command.nullDereference) (fun _ => True)
      (LoginAuthUseCase.logUnverified libraries body) := by
  unfold LoginAuthUseCase.logUnverified
  split
  · exact within_pure trivial
  · exact (within_dereference _).bind fun _ _ => within_pure trivial

theorem LoginAuthUseCase.within_parseBody (libraries : Libraries) (req : Request) :
    Within (· = Command.nullDereference) (fun _ => True)
      (LoginAuthUseCase.parseBody libraries req) := by
  unfold LoginAuthUseCase.parseBody
  split
  · exact within_pure trivial
  · split
    · apply (LoginAuthUseCase.within_logUnverified libraries req.body).bind
      intro _ _
      split
      · exact within_pure trivial
      · exact within_pure trivial
    · exact within_pure trivial

theorem LoginAuthUseCase.offStore_parseBody (libraries : Libraries) (req : Request) :
    OffStore (fun _ => True) (LoginAuthUseCase.parseBody libraries req) := by
  refine (LoginAuthUseCase.within_parseBody libraries req).mono ?_ fun _ _ => trivial
  rintro command rfl
  exact not_false

/-- The user that a login finds comes from the database. -/
theorem LoginAuthUseCase.offStore_checkUser (app : Application) (body : AuthBody) :
    OffStore (fun found => ∀ user, found = some user → 0 ∉ user.id)
      (LoginAuthUseCase.checkUser app body) := by
  apply (app.userDb.offStore_getUserByUsernameImpl body.username).bind
  rintro ⟨found, _⟩ noNul
  cases found with
  | error log =>
      apply within_pure
      rintro user ⟨⟩
  | ok user =>
      apply (MainCrypto.offStore_verifyImpl _ _ _).bind
      intro same _
      split
      · apply within_pure
        rintro _ ⟨⟩
        exact noNul user rfl
      · apply within_pure
        rintro _ ⟨⟩

/-- A registration that gets as far as its body is answered 201 or 400. -/
theorem RegisterAuthUseCase.offStore_addUser (app : Application) (body : AuthBody)
    (ex : Exchange) : OffStore (fun _ => True) (RegisterAuthUseCase.addUser app body ex) := by
  unfold RegisterAuthUseCase.addUser
  split
  · exact within_pure trivial
  · split
    · exact within_pure trivial
    · apply (User.offStore_hashPassword _ _ _).bind
      rintro ⟨log, user⟩ _
      split
      · exact within_pure trivial
      · apply (app.userDb.offStore_addUserImpl _).bind
        intro id _
        split
        · split
          · exact within_pure trivial
          · exact within_pure trivial
        · exact within_pure trivial

end CleanArchitecture
