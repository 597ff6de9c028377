import CleanArchitecture.DatabaseFrame
import CleanArchitecture.PostgresServer
import CleanArchitecture.SessionRules

/-!
# A world for the server

A PostgreSQL server with the users table, a Redis server that is a map, a
sequence of random words and argon2 as functions.  The users table stores and
compares the text it is given, and its usernames are unique.
-/

namespace CleanArchitecture

open Program Backend

/-! ## The users table -/

structure UserRow where
  id : Bytes
  username : Bytes
  password : Bytes
  deriving DecidableEq

/-- The row with a username. -/
def findRow (rows : List UserRow) (username : Bytes) : Option UserRow :=
  rows.find? fun row => row.username == username

/-- The row that is added under a username. -/
def addedRow (newId : List UserRow → Bytes) (rows : List UserRow) (username password : Bytes) :
    UserRow :=
  { id := newId rows, username := username, password := password }

/-- The result of an insertion under a username that is taken. -/
def takenResult : PgResult :=
  { failedResult "ERROR:  duplicate key value violates unique constraint" with
    constraintName := some (ascii "users_username_key") }

/-- The table's answers to the two texts; a new row has an id that depends on the
rows so far. -/
def usersEngine (newId : List UserRow → Bytes) : SqlEngine (List UserRow) where
  accepts text _ _ := text = UserPostgres.getUserQuery || text = UserPostgres.addUserQuery
  parameters text :=
    if text = UserPostgres.getUserQuery then 1
    else if text = UserPostgres.addUserQuery then 2
    else 0
  execute text params rows :=
    match params with
    | [username] =>
        if text = UserPostgres.getUserQuery then
          ({ status := .tuplesOk
             rows := (findRow rows username).toList.map fun row =>
               [row.id, row.username, row.password] }, rows)
        else (failedResult "ERROR:  syntax error", rows)
    | [username, password] =>
        if text = UserPostgres.addUserQuery then
          if (findRow rows username).isNone then
            ({ status := .tuplesOk, rows := [[newId rows]] },
              rows ++ [addedRow newId rows username password])
          else (takenResult, rows)
        else (failedResult "ERROR:  syntax error", rows)
    | _ => (failedResult "ERROR:  syntax error", rows)

section UsersEngine

open UserPostgres

variable (newId : List UserRow → Bytes)

theorem usersEngine_accepts_getUser (nParams : Int) (paramTypes : List Nat) :
    (usersEngine newId).accepts getUserQuery nParams paramTypes = true := by
  simp [usersEngine]

theorem usersEngine_accepts_addUser (nParams : Int) (paramTypes : List Nat) :
    (usersEngine newId).accepts addUserQuery nParams paramTypes = true := by
  simp [usersEngine]

theorem usersEngine_parameters_eq_one {text : Bytes} :
    (usersEngine newId).parameters text = 1 ↔ text = getUserQuery := by
  simp only [usersEngine]
  split_ifs <;> simp_all

theorem usersEngine_parameters_eq_two {text : Bytes} :
    (usersEngine newId).parameters text = 2 ↔ text = addUserQuery := by
  simp only [usersEngine]
  split_ifs with lookup insertion
  · subst lookup
    simp [addUserQuery_ne.symm]
  · simp [insertion]
  · simp [insertion]

theorem usersEngine_execute_getUser (username : Bytes) (rows : List UserRow) :
    (usersEngine newId).execute getUserQuery [username] rows =
      ({ status := .tuplesOk
         rows := (findRow rows username).toList.map fun row =>
           [row.id, row.username, row.password] }, rows) := by
  simp only [usersEngine, if_true]

theorem usersEngine_execute_addUser (username password : Bytes) (rows : List UserRow) :
    (usersEngine newId).execute addUserQuery [username, password] rows =
      if (findRow rows username).isNone then
        ({ status := .tuplesOk, rows := [[newId rows]] },
          rows ++ [addedRow newId rows username password])
      else (takenResult, rows) := by
  simp only [usersEngine, if_true]

end UsersEngine

/-- The pool and the results of the server change no table and no name. -/
theorem PgServer.unchanged_of_quiet {τ : Type} {engine : SqlEngine τ} {command : Command}
    (call : command.IsDatabaseCall) (quiet : command.IsQuiet) {server server' : PgServer τ}
    {response : command.Response}
    (answered : PgServer.handler engine command server = some (response, server')) :
    server'.tables = server.tables ∧ server'.prepared = server.prepared := by
  cases command with
  | acquire pool =>
      cases pool <;> cases answered
      exact ⟨rfl, rfl⟩
  | popFront pool =>
      cases pool with
      | redis => exact call.elim
      | postgres =>
          simp only [PgServer.handler] at answered
          split at answered
          · cases answered
          · cases answered
            exact ⟨rfl, rfl⟩
  | pushBack pool =>
      cases pool <;> cases answered
      exact ⟨rfl, rfl⟩
  | release pool =>
      cases pool <;> cases answered
      exact ⟨rfl, rfl⟩
  | pqClear =>
      cases answered
      exact ⟨rfl, rfl⟩
  | pqExecPrepared => exact quiet.elim
  | pqPrepare => exact quiet.elim
  | _ => exact call.elim

/-! ## The world -/

/-- The parts of the world that do not change: the ids of new rows and argon2. -/
structure Environment where
  newId : List UserRow → Bytes
  hashEncoded : MainCrypto → Bytes → Int × Bytes
  verify : Bytes → Bytes → Int

/-- The servers' states and the random words, of which the first `drawn` were
drawn. -/
structure World where
  postgres : PgServer (List UserRow)
  store : StoreMap
  draws : Nat → Fin sessionIdLength → UInt64
  drawn : Nat

namespace World

variable (env : Environment)

/-- The world answers every call; the pool of Redis contexts has one context. -/
def handler : BackendHandler World
  | .acquire .redis, w => some ((), w)
  | .popFront .redis, w => some (0, w)
  | .pushBack .redis _, w => some ((), w)
  | .release .redis, w => some ((), w)
  | .redisCommand _ args, w =>
      some (some (redisReply args w.store), { w with store := redisMap args w.store })
  | .freeReplyObject _, w => some ((), w)
  | .getrandom, w => some (w.draws w.drawn, { w with drawn := w.drawn + 1 })
  | .argon2idHashEncoded crypto password, w => some (env.hashEncoded crypto password, w)
  | .argon2idVerify encoded password, w => some (env.verify encoded password, w)
  | command, w =>
      (PgServer.handler (usersEngine env.newId) command w.postgres).map
        (Prod.map id fun server => { w with postgres := server })

/-- A query's calls are answered by the PostgreSQL server. -/
theorem handler_of_databaseCall {command : Command} (call : command.IsDatabaseCall) (w : World)
    (server : PgServer (List UserRow)) :
    handler env command { w with postgres := server } =
      (PgServer.handler (usersEngine env.newId) command server).map
        (Prod.map id fun server => { w with postgres := server }) := by
  cases command with
  | acquire pool => cases pool <;> first | rfl | exact call.elim
  | popFront pool => cases pool <;> first | rfl | exact call.elim
  | pushBack pool => cases pool <;> first | rfl | exact call.elim
  | release pool => cases pool <;> first | rfl | exact call.elim
  | pqExecPrepared => rfl
  | pqPrepare => rfl
  | pqClear => rfl
  | _ => exact call.elim

theorem redisReply_handle (args : List Bytes) (m : StoreMap) :
    { redisReply args m with handle := 0 } = redisReply args m := by
  unfold redisReply
  repeat' split
  all_goals rfl

theorem store_of_handler {command : Command} {w w' : World} {response : command.Response}
    (other : ¬ command.IsRedisCommand) (answered : handler env command w = some (response, w')) :
    w'.store = w.store := by
  by_cases call : command.IsDatabaseCall
  · have served := (handler_of_databaseCall env call w w.postgres).symm.trans answered
    obtain ⟨⟨reply, server⟩, -, same⟩ := Option.map_eq_some_iff.mp served
    cases same
    rfl
  · cases command with
    | redisCommand => exact absurd trivial other
    | acquire pool => cases pool <;> first | exact absurd trivial call | cases answered; rfl
    | popFront pool => cases pool <;> first | exact absurd trivial call | cases answered; rfl
    | pushBack pool => cases pool <;> first | exact absurd trivial call | cases answered; rfl
    | release pool => cases pool <;> first | exact absurd trivial call | cases answered; rfl
    | nullDereference => exact response.elim
    | terminate => exact response.elim
    | outOfRounds => exact response.elim
    | pqExecPrepared => exact absurd trivial call
    | pqPrepare => exact absurd trivial call
    | pqClear => exact absurd trivial call
    | _ =>
        cases answered
        rfl

theorem postgres_of_handler {command : Command} {w w' : World} {response : command.Response}
    (other : ¬ command.IsDatabaseCall) (answered : handler env command w = some (response, w')) :
    w'.postgres = w.postgres := by
  cases command with
  | acquire pool => cases pool <;> first | exact absurd trivial other | cases answered; rfl
  | popFront pool => cases pool <;> first | exact absurd trivial other | cases answered; rfl
  | pushBack pool => cases pool <;> first | exact absurd trivial other | cases answered; rfl
  | release pool => cases pool <;> first | exact absurd trivial other | cases answered; rfl
  | nullDereference => exact response.elim
  | terminate => exact response.elim
  | outOfRounds => exact response.elim
  | pqExecPrepared => exact absurd trivial other
  | pqPrepare => exact absurd trivial other
  | pqClear => exact absurd trivial other
  | _ =>
      cases answered
      rfl

theorem of_quiet {command : Command} (quiet : command.IsQuiet) {w w' : World}
    {response : command.Response} (answered : handler env command w = some (response, w')) :
    w'.store = w.store ∧ w'.postgres.tables = w.postgres.tables ∧
      w'.postgres.prepared = w.postgres.prepared := by
  have noCommand : ¬ command.IsRedisCommand := by
    intro redis
    cases command <;> first | exact redis | exact quiet
  refine ⟨store_of_handler env noCommand answered, ?_⟩
  by_cases call : command.IsDatabaseCall
  · have served := (handler_of_databaseCall env call w w.postgres).symm.trans answered
    obtain ⟨⟨reply, server⟩, handled, same⟩ := Option.map_eq_some_iff.mp served
    cases same
    exact PgServer.unchanged_of_quiet call quiet handled
  · rw [postgres_of_handler env call answered]
    exact ⟨rfl, rfl⟩

theorem healthy : HealthyStore (handler env) World.store where
  answers context args w :=
    ⟨0, { w with store := redisMap args w.store }, by rw [redisReply_handle]; rfl, rfl⟩
  upkeep command w kind := by
    cases command with
    | acquire pool =>
        cases pool with
        | redis => exact ⟨(), w, rfl⟩
        | postgres => exact kind.elim
    | popFront pool =>
        cases pool with
        | redis => exact ⟨(0 : Nat), w, rfl⟩
        | postgres => exact kind.elim
    | pushBack pool =>
        cases pool with
        | redis => exact ⟨(), w, rfl⟩
        | postgres => exact kind.elim
    | release pool =>
        cases pool with
        | redis => exact ⟨(), w, rfl⟩
        | postgres => exact kind.elim
    | freeReplyObject => exact ⟨(), w, rfl⟩
    | _ => exact kind.elim
  frame _ _ _ _ other answered := store_of_handler env other answered

theorem run_onDatabase {α : Type} {program : Backend α} (onDatabase : OnDatabase program)
    (w : World) :
    run (handler env) program w =
      (run (PgServer.handler (usersEngine env.newId)) program w.postgres).map
        (Prod.map id fun server => { w with postgres := server }) :=
  onDatabase.run_embed (fun server => { w with postgres := server })
    (fun _ server call => handler_of_databaseCall env call w server) w.postgres

/-! ## Session functions -/

/-- The session id of a request when its key is asked for. -/
def sessionOf (w : World) (ex : Exchange) : Bytes :=
  if ex.req.sessionId ≠ [] then ex.req.sessionId else spellId (w.draws w.drawn)

/-- The world after the key of a request was asked for. -/
def afterKey (w : World) (ex : Exchange) : World :=
  if ex.req.sessionId ≠ [] then w else { w with drawn := w.drawn + 1 }

theorem run_exists (key : Bytes) (w : World) :
    run (handler env) (IStore.exists key) w = some ((w.store (cStr key)).isSome, w) := by
  rw [IStore.exists, RedisStore.existsImpl, RedisStore.countPositive]
  have answered : run (handler env) (RedisStore.command [ascii "EXISTS", cStr key]) w =
      some ({ type := .integer, integer := if (w.store (cStr key)).isSome then 1 else 0 }, w) :=
    rfl
  rw [run_bind_of_run answered, if_pos rfl]
  cases w.store (cStr key) <;> rfl

theorem run_setByteArray (key value : Bytes) (w : World) :
    run (handler env) (IStore.setByteArray key value) w =
      some (true, { w with store := Function.update w.store (cStr key) (some value) }) :=
  rfl

theorem run_isAuthImpl (ex : Exchange) (w : World) :
    run (handler env) (WrapperRequest.isAuthImpl ex) w =
      some (((w.store (storeKey (w.sessionOf ex))).isSome, ex.withSession (w.sessionOf ex)),
        w.afterKey ex) := by
  by_cases session : ex.req.sessionId ≠ []
  · rw [WrapperRequest.isAuthImpl, WrapperRequest.getSessionKey_of_session session, sessionOf,
      afterKey, if_pos session, if_pos session]
    exact run_bind_of_run (run_exists env (sessionPrefix ++ ex.req.sessionId) w)
  · rw [WrapperRequest.isAuthImpl, WrapperRequest.getSessionKey, WrapperRequest.getSessionIdImpl,
      if_neg session, sessionOf, afterKey, if_neg session, if_neg session]
    exact run_bind_of_run (run_exists env (sessionPrefix ++ spellId (w.draws w.drawn))
      { w with drawn := w.drawn + 1 })

/-- One of the words still to be drawn spells an id that has no key. -/
def DrawsFresh (w : World) : Prop :=
  ∃ n, w.store (storeKey (spellId (w.draws (w.drawn + n)))) = none

theorem run_getNewSessionIdImpl (rounds : Nat) (ex : Exchange) (w : World) :
    run (handler env) (WrapperRequest.getNewSessionIdImpl (rounds + 1) ex) w =
      if (w.store (storeKey (spellId (w.draws w.drawn)))).isSome then
        run (handler env) (WrapperRequest.getNewSessionIdImpl rounds
          (ex.withSession (spellId (w.draws w.drawn)))) { w with drawn := w.drawn + 1 }
      else
        some ((spellId (w.draws w.drawn), ex.withSession (spellId (w.draws w.drawn))),
          { w with drawn := w.drawn + 1 }) := by
  have words : run (handler env) getrandom w =
      some (w.draws w.drawn, { w with drawn := w.drawn + 1 }) :=
    rfl
  rw [WrapperRequest.getNewSessionIdImpl, run_bind_of_run words,
    WrapperRequest.getSessionKey_of_session (spellId_ne_nil (w.draws w.drawn))]
  refine (run_bind_of_run (run_exists env (sessionPrefix ++ spellId (w.draws w.drawn))
    { w with drawn := w.drawn + 1 })).trans ?_
  split
  · rename_i taken
    exact (if_pos taken).symm
  · rename_i free
    exact (if_neg free).symm

end World

end CleanArchitecture
