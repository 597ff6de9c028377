import CleanArchitecture.SessionAuthenticity

/-!
# Whoever registers can log in

A registration stores the trimmed username and a login looks up the one it is
given.  Both query the users table through statements of one name.
-/

namespace CleanArchitecture

open Program Backend WrapperRequest WrapperResponse

namespace World

variable (env : Environment) {app : Application} {name : Bytes}

/-! ## Lookups -/

/-- What a query answers: a log if the result has an error message. -/
def queryAnswer (result : PgResult) : Except Log (Option PgResult) :=
  if cStr result.errorMessage ≠ [] then .error (Postgres.queryLog (some result))
  else .ok (some result)

theorem run_query {client : Nat} {rest : List Nat} {w : World}
    (front : w.postgres.pool = client :: rest) (statement : PostgresStatement)
    (values : List Bytes) (formats : List Int) :
    run (handler env) (Postgres.query statement values formats) w =
      some
        (queryAnswer (w.postgres.answerQuery (usersEngine env.newId) client statement values
            formats).1,
          { w with postgres :=
            { (w.postgres.answerQuery (usersEngine env.newId) client statement values formats).2 with
              pool := rest ++ [client] } }) := by
  rw [run_onDatabase env (Postgres.onDatabase_query statement values formats),
    PgServer.run_query front]
  rfl

theorem run_query_of_empty {w : World} (empty : w.postgres.pool = [])
    (statement : PostgresStatement) (values : List Bytes) (formats : List Int) :
    run (handler env) (Postgres.query statement values formats) w = none := by
  rw [run_onDatabase env (Postgres.onDatabase_query statement values formats),
    PgServer.run_query_of_empty empty]
  rfl

/-- A lookup that is served answers the row with the username as a C string. -/
theorem answerQuery_getUser (built : app.userDb.Built name) {client : Nat}
    {server : PgServer (List UserRow)}
    (own : server.prepared client (cStr name) = none ∨
      server.prepared client (cStr name) = some UserPostgres.getUserQuery) (username : Bytes) :
    (server.answerQuery (usersEngine env.newId) client app.userDb.getUserStatement [username]
        UserPostgres.getUserTypes).1 =
      { status := .tuplesOk
        rows := (findRow server.tables (cStr username)).toList.map fun row =>
          [row.id, row.username, row.password] } := by
  rw [← built.getUserName, ← built.getUserText] at own
  refine (PgServer.answerQuery_of_own UserPostgres.getUserTypes own ?_ ?_).1.trans ?_
  · rw [built.getUserText]
    exact usersEngine_accepts_getUser env.newId _ _
  · rw [built.getUserText, (usersEngine_parameters_eq_one env.newId).mpr rfl]
    exact toInt32_of_bounds (by simp) (by simp)
  · rw [built.getUserText]
    exact congrArg Prod.fst (usersEngine_execute_getUser env.newId _ server.tables)

/-- A query whose values fit its own text alone fails where its name stands for another
one. -/
theorem answerQuery_foreign {client : Nat} {server : PgServer (List UserRow)}
    {statement : PostgresStatement} {text : Bytes} {values : List Bytes} (formats : List Int)
    (foreign : ¬ (server.prepared client (cStr statement.name) = none ∨
      server.prepared client (cStr statement.name) = some text))
    (fitsOwn : ∀ other, (usersEngine env.newId).parameters other = toInt32 values.length →
      other = text) :
    (server.answerQuery (usersEngine env.newId) client statement values formats).1 =
      failedResult "ERROR:  bind message supplies a different number of parameters" := by
  rw [not_or, ← ne_eq, Option.ne_none_iff_exists'] at foreign
  obtain ⟨⟨other, present⟩, apart⟩ := foreign
  rw [PgServer.answerQuery_of_foreign formats present]
  intro fits
  rw [present, fitsOwn other fits.symm] at apart
  exact apart rfl

/-- A lookup under a foreign text fails. -/
theorem answerQuery_getUser_foreign (built : app.userDb.Built name) {client : Nat}
    {server : PgServer (List UserRow)}
    (foreign : ¬ (server.prepared client (cStr name) = none ∨
      server.prepared client (cStr name) = some UserPostgres.getUserQuery)) (username : Bytes) :
    (server.answerQuery (usersEngine env.newId) client app.userDb.getUserStatement [username]
        UserPostgres.getUserTypes).1 =
      failedResult "ERROR:  bind message supplies a different number of parameters" := by
  rw [← built.getUserName] at foreign
  refine answerQuery_foreign env _ foreign ?_
  intro other fits
  exact (usersEngine_parameters_eq_one env.newId).mp
    (fits.trans (toInt32_of_bounds (by simp) (by simp)))

theorem run_verifyPassword (app : Application) (user : User) (password : Bytes) (w : World) :
    ∃ same, run (handler env) (user.verifyPassword app.libraries password) w = some (same, w) ∧
      (same = .ok true ↔ env.verify (cStr user.hashed) password = argon2Ok) := by
  have answered : run (handler env) (argon2idVerify (cStr user.hashed) password) w =
      some (env.verify (cStr user.hashed) password, w) :=
    rfl
  rw [User.verifyPassword, MainCrypto.verifyImpl, run_bind_of_run answered]
  by_cases verified : env.verify (cStr user.hashed) password = argon2Ok
  · exact ⟨.ok true, by rw [if_pos verified]; rfl, by simp [verified]⟩
  · rw [if_neg verified]
    split
    · exact ⟨.ok false, rfl, by simp [verified]⟩
    · exact ⟨_, rfl, by simp [verified]⟩

/-- The next query is served by a client on which the name is free or stands for a
text. -/
def Serves (w : World) (name text : Bytes) : Prop :=
  ∃ client rest, w.postgres.pool = client :: rest ∧
    (w.postgres.prepared client (cStr name) = none ∨
      w.postgres.prepared client (cStr name) = some text)

/-- A lookup that is served makes the user of the row it finds. -/
theorem run_getUserByUsernameImpl (built : app.userDb.Built name) {w : World}
    (serves : w.Serves name UserPostgres.getUserQuery) (username : Bytes) :
    ∃ found server, run (handler env) (app.userDb.getUserByUsernameImpl username) w =
        some (found, { w with postgres := server }) ∧
      match findRow w.postgres.tables (cStr username) with
      | none => ∃ log, found.1 = .error log
      | some row => found = makeUserHashed (cStr row.id) username (cStr row.password) := by
  obtain ⟨client, rest, front, own⟩ := serves
  have asked := run_query env front app.userDb.getUserStatement [username]
    UserPostgres.getUserTypes
  rw [answerQuery_getUser env built own username] at asked
  rw [UserPostgres.getUserByUsernameImpl, run_bind_of_run asked]
  cases findRow w.postgres.tables (cStr username) with
  | none => exact ⟨_, _, rfl, _, rfl⟩
  | some row => exact ⟨_, _, rfl, rfl⟩

/-- A lookup that is not served finds nobody, if it is answered at all. -/
theorem run_getUserByUsernameImpl_foreign (built : app.userDb.Built name) {w w' : World}
    (foreign : ¬ w.Serves name UserPostgres.getUserQuery) {username : Bytes}
    {found : Except Log User × Bytes}
    (ran : run (handler env) (app.userDb.getUserByUsernameImpl username) w = some (found, w')) :
    ∃ log, found.1 = .error log := by
  cases front : w.postgres.pool with
  | nil =>
      rw [UserPostgres.getUserByUsernameImpl,
        run_bind_of_none (run_query_of_empty env front _ _ _)] at ran
      cases ran
  | cons client rest =>
      have other : ¬ (w.postgres.prepared client (cStr name) = none ∨
          w.postgres.prepared client (cStr name) = some UserPostgres.getUserQuery) :=
        fun own => foreign ⟨client, rest, front, own⟩
      have asked := run_query env front app.userDb.getUserStatement [username]
        UserPostgres.getUserTypes
      rw [answerQuery_getUser_foreign env built other username] at asked
      rw [UserPostgres.getUserByUsernameImpl, run_bind_of_run asked] at ran
      cases ran
      exact ⟨_, rfl⟩

/-- A login's lookup is served, and the row under the username as it was sent has a
hash that verifies the password. -/
def CredentialsFound (w : World) (name : Bytes) (body : AuthBody) : Prop :=
  w.Serves name UserPostgres.getUserQuery ∧
    ∃ row, findRow w.postgres.tables (cStr body.username) = some row ∧
      env.verify (cStr row.password) body.password = argon2Ok

theorem run_checkUser (built : app.userDb.Built name) {w : World} {body : AuthBody}
    (valid : usernameMin ≤ (trim body.username).length ∧
      (trim body.username).length ≤ usernameMax)
    (found : CredentialsFound env w name body) :
    ∃ user server, run (handler env) (LoginAuthUseCase.checkUser app body) w =
      some (some user, { w with postgres := server }) := by
  obtain ⟨serves, row, lookup, verifies⟩ := found
  obtain ⟨found, server, ran, outcome⟩ := run_getUserByUsernameImpl env built serves body.username
  rw [lookup] at outcome
  obtain ⟨user, made, hashed⟩ : ∃ user : User,
      makeUserHashed (cStr row.id) body.username (cStr row.password) =
        (.ok user, trim body.username) ∧ user.hashed = cStr row.password :=
    ⟨_, makeUserWith_ok.mpr ⟨valid, rfl, rfl⟩, rfl⟩
  rw [show found = _ from outcome.trans made] at ran
  obtain ⟨same, verified, accepts⟩ := run_verifyPassword env app user body.password
    { w with postgres := server }
  rw [hashed, cStr_eq_self (zero_notMem_cStr row.password)] at accepts
  rw [accepts.mpr verifies] at verified
  refine ⟨user, server, ?_⟩
  rw [LoginAuthUseCase.checkUser, run_bind_of_run ran]
  exact run_bind_of_run verified

theorem credentialsFound_of_checkUser (built : app.userDb.Built name) {w w' : World}
    {body : AuthBody} {user : User}
    (ran : run (handler env) (LoginAuthUseCase.checkUser app body) w = some (some user, w')) :
    CredentialsFound env w name body := by
  obtain ⟨⟨found, username⟩, w₁, asked, rest⟩ := run_bind_eq_some.mp ran
  cases found with
  | error log => cases rest
  | ok stored =>
      have serves : w.Serves name UserPostgres.getUserQuery := by
        by_contra foreign
        obtain ⟨log, failed⟩ := run_getUserByUsernameImpl_foreign env built foreign asked
        cases failed
      obtain ⟨found, server, answered, outcome⟩ :=
        run_getUserByUsernameImpl env built serves body.username
      rw [asked] at answered
      cases answered
      cases lookup : findRow w.postgres.tables (cStr body.username) with
      | none =>
          rw [lookup] at outcome
          obtain ⟨log, failed⟩ := outcome
          cases failed
      | some row =>
          rw [lookup] at outcome
          obtain ⟨-, rfl, -⟩ := makeUserWith_ok.mp outcome.symm
          obtain ⟨same, verified, accepts⟩ := run_verifyPassword env app
            { id := cStr row.id, username := trim body.username, hashed := cStr row.password }
            body.password { w with postgres := server }
          have decided := (run_bind_of_run verified).symm.trans rest
          refine ⟨serves, row, lookup, ?_⟩
          rw [← cStr_eq_self (zero_notMem_cStr row.password)]
          refine accepts.mp ?_
          split at decided
          · rfl
          · cases decided

/-! ## Insertions -/

/-- An insertion that is served adds a row, or finds its username taken. -/
theorem answerQuery_addUser (built : app.userDb.Built name) {client : Nat}
    {server : PgServer (List UserRow)}
    (own : server.prepared client (cStr name) = none ∨
      server.prepared client (cStr name) = some UserPostgres.addUserQuery)
    (username hashed : Bytes) :
    let answer := server.answerQuery (usersEngine env.newId) client app.userDb.addUserStatement
      [username, hashed] UserPostgres.addUserTypes
    let executed := (usersEngine env.newId).execute UserPostgres.addUserQuery
      [cStr username, cStr hashed] server.tables
    answer.1 = executed.1 ∧ answer.2.tables = executed.2 := by
  rw [← built.addUserName, ← built.addUserText] at own
  have accepted : (usersEngine env.newId).accepts (cStr app.userDb.addUserStatement.query)
      (toInt32 app.userDb.addUserStatement.numParams) app.userDb.addUserStatement.paramTypes =
        true := by
    rw [built.addUserText]
    exact usersEngine_accepts_addUser env.newId _ _
  have fits : toInt32 [username, hashed].length =
      (usersEngine env.newId).parameters (cStr app.userDb.addUserStatement.query) := by
    rw [built.addUserText, (usersEngine_parameters_eq_two env.newId).mpr rfl]
    exact toInt32_of_bounds (by simp) (by simp)
  have executed := PgServer.answerQuery_of_own UserPostgres.addUserTypes own accepted fits
  rw [built.addUserText] at executed
  exact executed

/-- An insertion under a foreign text fails. -/
theorem answerQuery_addUser_foreign (built : app.userDb.Built name) {client : Nat}
    {server : PgServer (List UserRow)}
    (foreign : ¬ (server.prepared client (cStr name) = none ∨
      server.prepared client (cStr name) = some UserPostgres.addUserQuery))
    (username hashed : Bytes) :
    (server.answerQuery (usersEngine env.newId) client app.userDb.addUserStatement
        [username, hashed] UserPostgres.addUserTypes).1 =
      failedResult "ERROR:  bind message supplies a different number of parameters" := by
  rw [← built.addUserName] at foreign
  refine answerQuery_foreign env _ foreign ?_
  intro other fits
  exact (usersEngine_parameters_eq_two env.newId).mp
    (fits.trans (toInt32_of_bounds (by simp) (by simp)))

/-- A user that was added has a row of its own, under a username that was free. -/
theorem of_addUserImpl (built : app.userDb.Built name) {w w' : World} {user : User} {id : Bytes}
    (ran : run (handler env) (app.userDb.addUserImpl user) w = some (.ok id, w')) :
    findRow w.postgres.tables (cStr user.username) = none ∧
      w'.postgres.tables = w.postgres.tables ++
        [addedRow env.newId w.postgres.tables (cStr user.username) (cStr user.hashed)] := by
  cases front : w.postgres.pool with
  | nil =>
      rw [UserPostgres.addUserImpl, run_bind_of_none (run_query_of_empty env front _ _ _)] at ran
      cases ran
  | cons client rest =>
      have asked := run_query env front app.userDb.addUserStatement
        [user.username, user.hashed] UserPostgres.addUserTypes
      by_cases own : w.postgres.prepared client (cStr name) = none ∨
          w.postgres.prepared client (cStr name) = some UserPostgres.addUserQuery
      · obtain ⟨result, tables⟩ := answerQuery_addUser env built own user.username user.hashed
        rw [usersEngine_execute_addUser] at result tables
        cases free : findRow w.postgres.tables (cStr user.username) with
        | none =>
            rw [free] at result tables
            rw [result] at asked
            rw [UserPostgres.addUserImpl, run_bind_of_run asked] at ran
            cases ran
            exact ⟨rfl, tables⟩
        | some row =>
            rw [free] at result
            rw [result] at asked
            rw [UserPostgres.addUserImpl, run_bind_of_run asked] at ran
            cases ran
      · rw [answerQuery_addUser_foreign env built own] at asked
        rw [UserPostgres.addUserImpl, run_bind_of_run asked] at ran
        cases ran

/-! ## Registration -/

/-- What a registration answered 201 leaves behind: a valid username, a hash of the
password, and a row for both under the trimmed username. -/
structure Registered (app : Application) (body : AuthBody) (w w' : World) : Prop where
  filled : body.username ≠ [] ∧ body.password ≠ []
  valid : usernameMin ≤ (trim body.username).length ∧ (trim body.username).length ≤ usernameMax
  free : findRow w.postgres.tables (cStr (trim body.username)) = none
  added : ∃ encoded, env.hashEncoded app.crypto body.password = (argon2Ok, encoded) ∧
    w'.postgres.tables = w.postgres.tables ++
      [addedRow env.newId w.postgres.tables (cStr (trim body.username))
        (cStr (encoded.take app.crypto.encodedLen))]

theorem postgres_afterKey (w : World) (ex : Exchange) :
    (w.afterKey ex).postgres = w.postgres := by
  rw [afterKey]
  split <;> rfl

theorem of_hashPassword {user hashed : User} {w w' : World}
    (ran : run (handler env) (user.hashPassword app.libraries app.crypto) w =
      some ((none, hashed), w')) :
    w' = w ∧ ∃ encoded, env.hashEncoded app.crypto user.password = (argon2Ok, encoded) ∧
      hashed = { user with hashed := encoded.take app.crypto.encodedLen } := by
  obtain ⟨hash, w₁, hashing, rest⟩ := run_bind_eq_some.mp ran
  have answered : run (handler env) (argon2idHashEncoded app.crypto user.password) w =
      some (env.hashEncoded app.crypto user.password, w) :=
    rfl
  rw [MainCrypto.hashImpl, run_bind_of_run answered] at hashing
  by_cases failed : (env.hashEncoded app.crypto user.password).1 ≠ argon2Ok
  · simp only [if_pos failed] at hashing
    cases hashing
    cases rest
  · simp only [if_neg failed] at hashing
    cases hashing
    cases rest
    exact ⟨rfl, _, Prod.ext (not_not.mp failed) rfl, rfl⟩

theorem registered_of_addUser (built : app.userDb.Built name) {w w' : World} {ex ex' : Exchange}
    {body : AuthBody} (filled : body.username ≠ [] ∧ body.password ≠ [])
    (ran : run (handler env) (RegisterAuthUseCase.addUser app body ex) w = some (ex', w'))
    (created : ex'.res.status = statusCreated) : Registered env app body w w' := by
  rw [RegisterAuthUseCase.addUser] at ran
  split at ran
  · cases ran
    cases created
  rename_i user made
  obtain ⟨valid, rfl, -⟩ := makeUserWith_ok.mp (Prod.ext made rfl)
  split at ran
  · cases ran
    cases created
  rename_i withPassword set
  obtain rfl := User.setPassword_accepted set
  obtain ⟨⟨log, hashed⟩, w₁, hashing, rest⟩ := run_bind_eq_some.mp ran
  cases log with
  | some log =>
      cases rest
      cases created
  | none =>
      obtain ⟨rfl, encoded, hash, rfl⟩ := of_hashPassword env hashing
      obtain ⟨id, w₂, inserted, rest⟩ := run_bind_eq_some.mp rest
      cases id with
      | error error =>
          simp only at rest
          split at rest
          · cases rest
            cases created
          · cases rest
            cases created
      | ok id =>
          cases rest
          obtain ⟨free, added⟩ := of_addUserImpl env built inserted
          exact ⟨filled, valid, free, encoded, hash, added⟩

theorem registered_of_created (built : app.userDb.Built name) {w w' : World} {ex ex' : Exchange}
    {body : AuthBody} (parsed : RegisterAuthUseCase.parseBody app.libraries ex.req = .ok body)
    (ran : run (handler env) (RegisterAuthUseCase.execute app ex) w = some (ex', w'))
    (created : ex'.res.status = statusCreated) : Registered env app body w w' := by
  rw [RegisterAuthUseCase.execute, run_bind_of_run (run_isAuthImpl env ex w)] at ran
  simp only at ran
  split at ran
  · cases ran
    cases created
  · rw [show RegisterAuthUseCase.parseBody app.libraries (ex.withSession (w.sessionOf ex)).req =
      .ok body from parsed] at ran
    simp only at ran
    split at ran
    · cases ran
      cases created
    · rename_i filled
      rw [not_or] at filled
      obtain ⟨-, valid, free, added⟩ := registered_of_addUser env built filled ran created
      rw [postgres_afterKey] at free added
      exact ⟨filled, valid, free, added⟩

/-! ## Login -/

/-- A new session id is found in some number of rounds exactly if one of the words
still to be drawn spells a free one. -/
theorem getNewSessionIdImpl_ends_iff {ex : Exchange} {w : World} :
    (∃ rounds result, run (handler env) (getNewSessionIdImpl rounds ex) w = some result) ↔
      w.DrawsFresh := by
  constructor
  · rintro ⟨rounds, result, ran⟩
    induction rounds generalizing ex w with
    | zero =>
        rw [getNewSessionIdImpl, run_outOfRounds] at ran
        cases ran
    | succ rounds ih =>
        rw [run_getNewSessionIdImpl] at ran
        split at ran
        · obtain ⟨n, fresh⟩ := ih ran
          exact ⟨n + 1, by rw [← fresh, Nat.add_right_comm, Nat.add_assoc]⟩
        · rename_i free
          exact ⟨0, Option.not_isSome_iff_eq_none.mp free⟩
  · rintro ⟨n, fresh⟩
    induction n generalizing ex w with
    | zero => exact ⟨1, _, by rw [run_getNewSessionIdImpl, if_neg (by simpa using fresh)]⟩
    | succ n ih =>
        by_cases taken : (w.store (storeKey (spellId (w.draws w.drawn)))).isSome
        · obtain ⟨rounds, result, ran⟩ :=
            @ih (ex.withSession (spellId (w.draws w.drawn))) { w with drawn := w.drawn + 1 }
              (by rw [← fresh, Nat.add_right_comm, Nat.add_assoc])
          exact ⟨rounds + 1, result, by rw [run_getNewSessionIdImpl, if_pos taken, ran]⟩
        · exact ⟨1, _, by rw [run_getNewSessionIdImpl, if_neg taken]⟩

theorem setSessionUserImpl_ends_iff {libraries : Libraries} {user : User} {ex : Exchange}
    {w : World} :
    (∃ rounds result, run (handler env) (setSessionUserImpl libraries rounds user ex) w =
      some result) ↔ w.DrawsFresh := by
  refine Iff.trans ?_ (@getNewSessionIdImpl_ends_iff env ex w)
  constructor
  · rintro ⟨rounds, result, ran⟩
    obtain ⟨drawn, w₁, drew, -⟩ := run_bind_eq_some.mp ran
    exact ⟨rounds, _, drew⟩
  · rintro ⟨rounds, ⟨⟨sid, drawnFor⟩, w₁⟩, drew⟩
    obtain ⟨nonempty, -, -, rfl, -⟩ := (healthy env).of_getNewSessionIdImpl drew
    have keyed : getSessionKey (ex.withSession sid) =
        pure (sessionPrefix ++ sid, ex.withSession sid) :=
      getSessionKey_of_session nonempty
    refine ⟨rounds, ?_⟩
    rw [setSessionUserImpl, run_bind_of_run drew]
    simp only [keyed]
    exact ⟨_, (run_bind_of_run (run_pure _ w₁)).trans
      (run_bind_of_run (run_setByteArray env _ _ w₁))⟩

theorem parseBody_of_json {libraries : Libraries} {req : Request} {body : AuthBody}
    (json : req.contentType ≠ ascii "application/flatbuffer")
    (parsed : RegisterAuthUseCase.parseBody libraries req = .ok body) :
    LoginAuthUseCase.parseBody libraries req = pure (.ok body) := by
  rw [RegisterAuthUseCase.parseBody] at parsed
  rw [LoginAuthUseCase.parseBody]
  split at parsed
  · cases parsed
  · rename_i sent
    rw [if_neg sent, if_neg json, parsed]

/-- A login that is answered 204, for some number of rounds. -/
def LoginAnswered (env : Environment) (app : Application) (w : World) (ex : Exchange) : Prop :=
  ∃ rounds ex' w', run (handler env) (LoginAuthUseCase.execute app rounds ex) w = some (ex', w') ∧
    ex'.res.status = statusNoContent

theorem credentialsFound_afterKey {w : World} {ex : Exchange} {body : AuthBody} :
    CredentialsFound env (w.afterKey ex) name body ↔ CredentialsFound env w name body := by
  simp only [CredentialsFound, Serves, postgres_afterKey]

section Login

variable {w : World} {ex : Exchange} {body : AuthBody}
  (json : ex.req.contentType ≠ ascii "application/flatbuffer")
  (parsed : RegisterAuthUseCase.parseBody app.libraries ex.req = .ok body)
  (filled : body.username ≠ [] ∧ body.password ≠ [])
  (unauthenticated : w.store (storeKey (w.sessionOf ex)) = none)

include json parsed filled unauthenticated

/-- A login with a JSON body by a client without a session comes down to the check of
its user. -/
theorem run_authenticate :
    run (handler env) (LoginAuthUseCase.authenticate app ex) w =
      (run (handler env) (LoginAuthUseCase.checkUser app body) (w.afterKey ex)).map
        fun (found, w') =>
          ((found, match found with
            | none => setStatus statusUnauthorized (ex.withSession (w.sessionOf ex))
            | some _ => ex.withSession (w.sessionOf ex)), w') := by
  have tested := run_isAuthImpl env ex w
  rw [unauthenticated] at tested
  have read : LoginAuthUseCase.parseBody app.libraries (ex.withSession (w.sessionOf ex)).req =
      pure (.ok body) :=
    parseBody_of_json json parsed
  rw [LoginAuthUseCase.authenticate, run_bind_of_run tested]
  simp only [Option.isSome_none, Bool.false_eq_true, if_false, read]
  refine (run_bind_of_run (run_pure _ _)).trans ?_
  simp only [if_neg (not_or.mpr filled), run_bind]
  cases run (handler env) (LoginAuthUseCase.checkUser app body) (w.afterKey ex) with
  | none => rfl
  | some answer =>
      obtain ⟨found, w'⟩ := answer
      cases found <;> rfl

/-- Such a login is answered 204 exactly if its credentials are found and a free
session id is among the ids still to be drawn. -/
theorem loginAnswered_iff (built : app.userDb.Built name)
    (valid : usernameMin ≤ (trim body.username).length ∧
      (trim body.username).length ≤ usernameMax) :
    LoginAnswered env app w ex ↔
      CredentialsFound env w name body ∧ (w.afterKey ex).DrawsFresh := by
  have authenticated := run_authenticate env json parsed filled unauthenticated
  rw [← @credentialsFound_afterKey env name w ex body]
  constructor
  · rintro ⟨rounds, ex', w', ran, answered⟩
    obtain ⟨⟨found, after⟩, w₁, checked, rest⟩ := run_bind_eq_some.mp ran
    rw [authenticated] at checked
    obtain ⟨⟨user, w₂⟩, looked, same⟩ := Option.map_eq_some_iff.mp checked
    cases user with
    | none =>
        cases same
        cases rest
        cases answered
    | some user =>
        cases same
        have credentials := credentialsFound_of_checkUser env built looked
        obtain ⟨other, server, again⟩ := run_checkUser env built valid credentials
        rw [looked] at again
        cases again
        obtain ⟨set, w₃, opened, -⟩ := run_bind_eq_some.mp rest
        exact ⟨credentials, (@setSessionUserImpl_ends_iff env app.libraries user
          (ex.withSession (w.sessionOf ex)) { w.afterKey ex with postgres := server }).mp
          ⟨rounds, _, opened⟩⟩
  · rintro ⟨credentials, fresh⟩
    obtain ⟨user, server, looked⟩ := run_checkUser env built valid credentials
    rw [looked] at authenticated
    obtain ⟨rounds, ⟨⟨log, opened⟩, w₁⟩, set⟩ :=
      (@setSessionUserImpl_ends_iff env app.libraries user (ex.withSession (w.sessionOf ex))
        { w.afterKey ex with postgres := server }).mpr fresh
    refine ⟨rounds, setStatus statusNoContent opened, w₁, ?_, rfl⟩
    rw [LoginAuthUseCase.execute, run_bind_of_run authenticated]
    exact run_bind_of_run set

end Login

/-! ## A registration and a later login -/

/-- A hash verifies exactly the password it was made from. -/
def VerifiesHashes (env : Environment) (crypto : MainCrypto) : Prop :=
  ∀ password encoded, env.hashEncoded crypto password = (argon2Ok, encoded) → ∀ other,
    env.verify (cStr (encoded.take crypto.encodedLen)) other = argon2Ok ↔ other = password

theorem findRow_append (rows : List UserRow) (row : UserRow) (username : Bytes) :
    findRow (rows ++ [row]) username =
      (findRow rows username).or (if row.username = username then some row else none) := by
  rw [findRow, List.find?_append, ← findRow]
  congr 1
  by_cases same : row.username = username <;> simp [same]

/-- The credentials of a registration are found under the username it was sent with
exactly if that is the stored one, or some other row has them. -/
theorem registered_credentialsFound_iff {w w' later : World} {body : AuthBody}
    (verifies : VerifiesHashes env app.crypto) (registered : Registered env app body w w')
    (unchanged : later.postgres.tables = w'.postgres.tables) :
    CredentialsFound env later name body ↔
      later.Serves name UserPostgres.getUserQuery ∧
        (cStr body.username = cStr (trim body.username) ∨
          ∃ row, findRow w.postgres.tables (cStr body.username) = some row ∧
            env.verify (cStr row.password) body.password = argon2Ok) := by
  obtain ⟨encoded, hash, added⟩ := registered.added
  have verified := (verifies body.password encoded hash body.password).mpr rfl
  rw [← cStr_eq_self (zero_notMem_cStr (encoded.take app.crypto.encodedLen))] at verified
  rw [CredentialsFound, unchanged, added]
  refine and_congr_right fun _ => ?_
  rw [findRow_append]
  by_cases same : cStr body.username = cStr (trim body.username)
  · rw [same, registered.free]
    simp [addedRow, verified]
  · have apart : (addedRow env.newId w.postgres.tables (cStr (trim body.username))
        (cStr (encoded.take app.crypto.encodedLen))).username ≠ cStr body.username :=
      fun equal => same equal.symm
    simp [same, apart]

/-- Let a registration be answered 201, and let a client without a session send a
login with the same body to a world with the same users table.  The login is answered
204 exactly if its lookup is served, the username it looks up is the stored one or
that of another row with the password, and a free session id can be drawn. -/
theorem login_after_register_iff {pg : Postgres}
    (constructed : UserPostgres.construct pg = .ok app.userDb)
    (verifies : VerifiesHashes env app.crypto) {w w' later : World} {ex ex' login : Exchange}
    {body : AuthBody} (parsed : RegisterAuthUseCase.parseBody app.libraries ex.req = .ok body)
    (ran : run (handler env) (RegisterAuthUseCase.execute app ex) w = some (ex', w'))
    (created : ex'.res.status = statusCreated) (sameBody : login.req.body = ex.req.body)
    (json : login.req.contentType ≠ ascii "application/flatbuffer")
    (unchanged : later.postgres.tables = w'.postgres.tables)
    (unauthenticated : later.store (storeKey (later.sessionOf login)) = none) :
    LoginAnswered env app later login ↔
      later.Serves pg.getName UserPostgres.getUserQuery ∧
        (cStr body.username = cStr (trim body.username) ∨
          ∃ row, findRow w.postgres.tables (cStr body.username) = some row ∧
            env.verify (cStr row.password) body.password = argon2Ok) ∧
        (later.afterKey login).DrawsFresh := by
  have built := UserPostgres.built_of_construct constructed
  have registered := registered_of_created env built parsed ran created
  have loginParsed : RegisterAuthUseCase.parseBody app.libraries login.req = .ok body := by
    rw [← parsed, RegisterAuthUseCase.parseBody, RegisterAuthUseCase.parseBody, sameBody]
  rw [loginAnswered_iff env json loginParsed registered.filled unauthenticated built
    registered.valid, registered_credentialsFound_iff env verifies registered unchanged, and_assoc]

/-! ## Registrations in the sample world -/

theorem verifiesHashes_sample : VerifiesHashes sampleEnvironment sampleApplication.crypto := by
  intro password encoded hashed other
  simp only [sampleEnvironment] at hashed ⊢
  split at hashed
  · rename_i fits
    cases hashed
    rw [List.take_of_length_le fits, cStr_eq_self (SampleWorld.zero_notMem_spellPassword password)]
    split
    · rename_i same
      exact iff_of_true rfl (SampleWorld.spellPassword_inj.mp same).symm
    · rename_i apart
      exact iff_of_false (by decide) fun same => apart (by rw [same])
  · cases hashed

def registerSample (username : Bytes) : Option (Exchange × World) :=
  run (handler sampleEnvironment)
    (RegisterAuthUseCase.execute sampleApplication (sampleExchange username (ascii "password")))
    (sampleWorld [])

/-- In a store without keys nobody is logged in and every session id is free. -/
theorem fresh_of_noKeys {w : World} (noKeys : ∀ key, w.store key = none) (ex : Exchange) :
    w.store (storeKey (w.sessionOf ex)) = none ∧ (w.afterKey ex).DrawsFresh := by
  refine ⟨noKeys _, 0, ?_⟩
  rw [afterKey]
  split
  · exact noKeys _
  · exact noKeys _

theorem noKeys_of_registerSample {username : Bytes} {ex' : Exchange} {w' : World}
    (ran : registerSample username = some (ex', w')) (key : Bytes) : w'.store key = none := by
  rw [(healthy sampleEnvironment).view_of_register ran]
  rfl

/-- A registration answered 201, and a login that is served by the other client. -/
theorem login_after_register_iff_sample : ∃ ex' later,
    registerSample (ascii "username") = some (ex', later) ∧ ex'.res.status = statusCreated ∧
      LoginAnswered sampleEnvironment sampleApplication later
        (sampleExchange (ascii "username") (ascii "password")) := by
  have checked : (registerSample (ascii "username")).map (fun r => (r.1.res.status,
      r.2.postgres.pool, r.2.postgres.prepared 1 (cStr (Postgres.getName {})))) =
      some (statusCreated, [1, 0], none) := by
    decide +kernel
  obtain ⟨⟨ex', later⟩, ran, same⟩ := Option.map_eq_some_iff.mp checked
  simp only [Prod.mk.injEq] at same
  obtain ⟨created, pool, free⟩ := same
  obtain ⟨unauthenticated, fresh⟩ := fresh_of_noKeys (noKeys_of_registerSample ran)
    (sampleExchange (ascii "username") (ascii "password"))
  refine ⟨ex', later, ran, created, ?_⟩
  refine (login_after_register_iff sampleEnvironment construct_sampleUserDb verifiesHashes_sample
    (parseBody_sampleExchange _ _) ran created rfl (by decide +kernel) rfl unauthenticated).mpr ?_
  exact ⟨⟨1, [0], pool, .inl free⟩, .inl (by decide +kernel), fresh⟩

/-- With a blank after the username the same login is rejected. -/
theorem not_login_after_register_blank : ∃ ex' later,
    UserPostgres.construct {} = .ok sampleApplication.userDb ∧
      VerifiesHashes sampleEnvironment sampleApplication.crypto ∧
      registerSample (ascii "username ") = some (ex', later) ∧ ex'.res.status = statusCreated ∧
      later.store (storeKey (later.sessionOf
        (sampleExchange (ascii "username ") (ascii "password")))) = none ∧
      (later.afterKey (sampleExchange (ascii "username ") (ascii "password"))).DrawsFresh ∧
      ¬ LoginAnswered sampleEnvironment sampleApplication later
        (sampleExchange (ascii "username ") (ascii "password")) := by
  have checked : (registerSample (ascii "username ")).map (fun r => (r.1.res.status,
      findRow r.2.postgres.tables (cStr (ascii "username ")))) = some (statusCreated, none) := by
    decide +kernel
  obtain ⟨⟨ex', later⟩, ran, same⟩ := Option.map_eq_some_iff.mp checked
  simp only [Prod.mk.injEq] at same
  obtain ⟨created, absent⟩ := same
  obtain ⟨unauthenticated, fresh⟩ := fresh_of_noKeys (noKeys_of_registerSample ran)
    (sampleExchange (ascii "username ") (ascii "password"))
  refine ⟨ex', later, construct_sampleUserDb, verifiesHashes_sample, ran, created,
    unauthenticated, fresh, ?_⟩
  intro answered
  have built := UserPostgres.built_of_construct construct_sampleUserDb
  have parsed := parseBody_sampleExchange (ascii "username ") (ascii "password")
  have filled : ascii "username " ≠ [] ∧ ascii "password" ≠ [] := by
    decide +kernel
  have valid : usernameMin ≤ (trim (ascii "username ")).length ∧
      (trim (ascii "username ")).length ≤ usernameMax := by
    decide +kernel
  have credentials := ((loginAnswered_iff sampleEnvironment (by decide +kernel) parsed filled
    unauthenticated built valid).mp answered).1
  obtain ⟨row, found, verifies⟩ := credentials.2
  rw [absent] at found
  cases found

end World

end CleanArchitecture
