import CleanArchitecture.FlatbufferLogin
import CleanArchitecture.SurvivingRequests

/-!
# Which runs of requests are answered

A run of requests comes to its end unless one of them ends the process.  Over a healthy store
and a database whose results are whole only two things do: a login that logs the missing
password of a flatbuffer, and the JSON text of a user whose id is not in UTF-8.
-/

namespace CleanArchitecture

open Program Backend WrapperRequest WrapperResponse

/-! ## What is assumed of the environment -/

/-- No text is dumped for a user whose id is not in UTF-8. -/
def DumpsUtf8 (libraries : Libraries) : Prop :=
  ∀ id username, ¬ ValidUtf8 id → libraries.jsonDump (userJson id username) = none

section Service

variable {σ : Type} (h : BackendHandler σ) (app : Application) (rounds : Nat)

/-- Every call of the request returns, and the draws of a new session id end. -/
def Returning (s : σ) (request : Endpoint × Exchange) : Prop :=
  ∀ command, stoppedAt h (request.1.handle app rounds request.2) s = some command →
    command = .nullDereference ∨ command = .terminate

/-- A login without a session whose flatbuffer fails verification and has no password. -/
def LogsNullPassword (s : σ) (request : Endpoint × Exchange) : Prop :=
  MissesPassword app.libraries request ∧ Unauthenticated h s request.2

/-- The request logs no null password, and logs in no user whose id is not in UTF-8. -/
structure SafeRequest (s : σ) (request : Endpoint × Exchange) : Prop where
  password : ¬ LogsNullPassword h app s request
  id : request.1 = .login → ∀ user, loginUser h app request.2 s = some user → ValidUtf8 user.id

/-- The user whom the request logs in has a username in UTF-8. -/
def NamesUtf8 (s : σ) (request : Endpoint × Exchange) : Prop :=
  request.1 = .login → ∀ user, loginUser h app request.2 s = some user → ValidUtf8 user.username

/-- The requests come to their end, and each session is answered from their answers. -/
def SessionsAnswered (start : σ) (requests : List (Endpoint × Exchange)) : Prop :=
  ∃ last answers, (service h app rounds).run start requests = .ok (last, answers) ∧
    Authentic h app rounds last answers

end Service

/-! ## Requests that return -/

/-- Every value under the key of a session can be shown. -/
def SessionsReadable (libraries : Libraries) (store : StoreMap) : Prop :=
  ∀ sid data, store (storeKey sid) = some data → Readable libraries data

/-- So can every value that the request reads there: a login reads none. -/
def ReadsReadable (libraries : Libraries) (request : Endpoint × Exchange) (store : StoreMap) :
    Prop :=
  request.1 = .login ∨ SessionsReadable libraries store

theorem StoreAgrees.readable {libraries : Libraries} (lawful : LawfulLibraries libraries)
    {answers : List Answer} {store : StoreMap} (agrees : StoreAgrees libraries answers store)
    (utf8 : UsersUtf8 answers) : SessionsReadable libraries store := by
  intro sid data found
  have sameKey : storeKey (cStr sid) = storeKey sid := by
    rw [storeKey_eq_append, storeKey_eq_append, cStr_cStr]
  rw [← sameKey, (agrees (cStr sid) (zero_notMem_cStr sid)).1] at found
  obtain ⟨user, active, rfl⟩ := Option.map_eq_some_iff.mp found
  obtain ⟨id, username⟩ := utf8.of_activeUser active
  exact lawful.readable_createUser (validUtf8_cStr id) (validUtf8_cStr username)

namespace HealthyStore

variable {σ : Type} {h : BackendHandler σ} {view : σ → StoreMap} (healthy : HealthyStore h view)
  {app : Application} {rounds : Nat} {s : σ} {request : Endpoint × Exchange}

include healthy

/-- A request that reads readable sessions is answered soundly, and goes on to read such. -/
theorem sound_of_survives (whole : WholeResults h) {Inserted : Bytes → Prop} {command : Command}
    {response : command.Response} {s' : σ}
    (survives : command.Survives app.libraries Inserted request)
    (held : ReadsReadable app.libraries request (view s))
    (answered : h command s = some (response, s')) :
    command.Sound app.libraries response ∧ ReadsReadable app.libraries request (view s') := by
  by_cases redis : command.IsRedisCommand
  · cases command with
    | redisCommand context args =>
        obtain ⟨reads, writes⟩ : SessionAccess request.1 args := survives
        obtain ⟨handle, rfl, after⟩ := healthy.of_redisCommand answered
        refine ⟨⟨_, rfl, fun get string => ?_⟩, ?_⟩
        · obtain ⟨reader, sid, rfl⟩ := reads get
          rw [redisReply_get] at string ⊢
          split at string
          · cases string
          · rename_i found
            exact (held.resolve_left reader) sid _ found
        · rw [after]
          by_cases set : args.head? = some (ascii "SET")
          · exact .inl (writes set)
          · exact held.imp_right fun readable sid data found =>
              readable sid data (of_redisMap set found)
    | _ => exact redis.elim
  · have same := healthy.frame command s response s' redis answered
    rw [same]
    refine ⟨?_, held⟩
    cases command with
    | redisCommand => exact absurd trivial redis
    | pqExecPrepared => exact whole _ _ _ _ _ _ _ _ _ answered
    | _ => exact trivial

/-- A program of the request returns, or stops at a command that it may call. -/
theorem run_or_stopped_of_survives (whole : WholeResults h) {Inserted : Bytes → Prop} {α : Type}
    {post : α → Prop} {program : Backend α}
    (survives : Survives app.libraries Inserted request post program)
    (held : ReadsReadable app.libraries request (view s)) :
    (∃ value s', run h program s = some (value, s') ∧ post value) ∨
      ∃ command, stoppedAt h program s = some command ∧
        command.Survives app.libraries Inserted request := by
  refine Relies.run_or_stopped (fun s => ReadsReadable app.libraries request (view s)) ?_ survives
    held
  intro command s response s' permitted held answered
  exact healthy.sound_of_survives whole permitted held answered

/-- A login that stops, and misses its password, had no session. -/
theorem logsNullPassword_of_stopped (whole : WholeResults h)
    (misses : MissesPassword app.libraries request) (returning : Returning h app rounds s request)
    {command : Command}
    (stopped : stoppedAt h (request.1.handle app rounds request.2) s = some command) :
    LogsNullPassword h app s request := by
  refine ⟨misses, ?_⟩
  obtain ⟨endpoint, ex⟩ := request
  obtain rfl : endpoint = .login := misses.login
  -- a request with an empty body misses no password
  have survives : Survives app.libraries (fun _ => True) (.login, {})
      (fun tested => ex.Renews tested.2) (isAuthImpl ex) :=
    survives_isAuthImpl ex
  rcases healthy.run_or_stopped_of_survives whole survives (.inl rfl) with
    ⟨⟨auth, keyed⟩, s₁, tested, -⟩ | ⟨first, halted, permitted⟩
  · cases auth with
    | false => exact ⟨keyed, s₁, tested⟩
    | true =>
        have checked : run h (LoginAuthUseCase.authenticate app ex) s =
            some ((none, setStatus statusForbidden keyed), s₁) :=
          run_bind_of_run tested
        have ended : run h (LoginAuthUseCase.execute app rounds ex) s =
            some (setStatus statusForbidden keyed, s₁) :=
          run_bind_of_run checked
        have running := stoppedAt_of_run ended
        cases stopped.symm.trans running
  · have early : stoppedAt h (LoginAuthUseCase.execute app rounds ex) s = some first :=
      stoppedAt_bind_of_stopped (stoppedAt_bind_of_stopped halted)
    rcases returning first early with rfl | rfl
    · exact absurd rfl permitted.nonempty
    · exact permitted.elim

/-- A request returns unless it logs a null password. -/
theorem returns_of_readable (whole : WholeResults h) (returning : Returning h app rounds s request)
    (readable : SessionsReadable app.libraries (view s))
    (password : ¬ LogsNullPassword h app s request) :
    ∃ ex s', run h (request.1.handle app rounds request.2) s = some (ex, s') := by
  have survives : Survives app.libraries (fun _ => True) request (fun _ => True)
      (request.1.handle app rounds request.2) :=
    Endpoint.survives_handle rounds fun _ _ => trivial
  rcases healthy.run_or_stopped_of_survives whole survives (.inr readable) with
    ⟨ex, s', ran, -⟩ | ⟨command, stopped, permitted⟩
  · exact ⟨ex, s', ran⟩
  · exfalso
    rcases returning command stopped with rfl | rfl
    · exact password (healthy.logsNullPassword_of_stopped whole permitted returning stopped)
    · exact permitted

/-! ## Requests that end the process -/

omit healthy in
theorem run_parseBody_of_missesPassword {libraries : Libraries} {req : Request}
    (nonempty : req.body ≠ []) (flatbuffer : req.contentType = ascii "application/flatbuffer")
    (unverified : libraries.loginRequestVerify req.body = false)
    (missing : libraries.loginRequestPassword req.body = none) :
    run h (LoginAuthUseCase.parseBody libraries req) s = none := by
  rw [LoginAuthUseCase.parseBody, if_neg nonempty, if_pos flatbuffer,
    LoginAuthUseCase.logUnverified, unverified, if_neg Bool.false_ne_true, missing]
  exact run_bind_of_none (run_bind_of_none (run_nullDereference s))

omit healthy in
/-- A login that logs a null password does not return. -/
theorem run_of_logsNullPassword (logs : LogsNullPassword h app s request) :
    run h (request.1.handle app rounds request.2) s = none := by
  obtain ⟨misses, keyed, s₁, tested⟩ := logs
  obtain ⟨endpoint, ex⟩ := request
  obtain rfl : endpoint = .login := misses.login
  obtain ⟨sid, -, rfl⟩ := (onSession_isAuthImpl ex).holds_of_run tested
  have ended :
      run h (LoginAuthUseCase.parseBody app.libraries (ex.withSession sid).req) s₁ = none :=
    run_parseBody_of_missesPassword misses.nonempty misses.flatbuffer misses.unverified
      misses.missing
  have checked : run h (LoginAuthUseCase.authenticate app ex) s = none :=
    (run_bind_of_run tested).trans (run_bind_of_none ended)
  exact run_bind_of_none checked

/-- A user whose id cannot be dumped is not shown. -/
theorem not_answeredWith_of_dump (lawful : LawfulLibraries app.libraries)
    (dumps : DumpsUtf8 app.libraries) {ex : Exchange} {user : User}
    (session : ex.req.sessionId ≠ [])
    (held : view s (storeKey ex.req.sessionId) =
      some (app.libraries.createUser user.id user.username))
    (noNul : 0 ∉ user.id) (id : ¬ ValidUtf8 user.id) :
    ¬ AnsweredWith h app rounds s ex user.id := by
  rintro ⟨ex', last, ran, -⟩
  obtain ⟨s₁, tested, same₁⟩ := healthy.run_isAuthImpl session s
  rw [held] at tested
  obtain ⟨s₂, got, -⟩ := healthy.run_getSessionUserImpl session ((congrFun same₁ _).trans held)
    (lawful.user_verify _ _) (lawful.user_id _ _) (lawful.user_username _ _)
  rw [cStr_eq_self noNul] at got
  have finished := (run_bind_of_run tested).symm.trans ran
  have ended := (run_bind_of_run got).symm.trans finished
  simp only [dumps _ _ id, run_terminate] at ended
  cases ended

/-! ## Runs whose sessions are answered -/

/-- A safe request is answered, and the store then agrees with the answers. -/
theorem step_of_safe (whole : WholeResults h) (lawful : LawfulLibraries app.libraries)
    {answers : List Answer} (agrees : StoreAgrees app.libraries answers (view s))
    (utf8 : UsersUtf8 answers) (noNul : 0 ∉ request.2.req.sessionId)
    (returning : Returning h app rounds s request) (names : NamesUtf8 h app s request)
    (safe : SafeRequest h app s request) :
    ∃ s' answer, (service h app rounds).step s request = .ok (s', answer) ∧
      StoreAgrees app.libraries (answers ++ [answer]) (view s') ∧
        UsersUtf8 (answers ++ [answer]) := by
  obtain ⟨ex, s', ran⟩ := healthy.returns_of_readable whole returning
    (agrees.readable lawful utf8) safe.password
  have stepped := service_step_of_run h app rounds ran
  refine ⟨s', _, stepped, agrees.step (healthy.step_change noNul stepped), utf8.concat ?_⟩
  intro login user named
  rw [if_pos login] at named
  exact ⟨safe.id login user named, names login user named⟩

/-- If the session of a new login is answered, its user has an id in UTF-8. -/
theorem utf8_of_authentic (lawful : LawfulLibraries app.libraries)
    (dumps : DumpsUtf8 app.libraries) {s' : σ} {answers : List Answer} {answer : Answer}
    (login : request.1 = .login)
    (stepped : (service h app rounds).step s request = .ok (s', answer))
    (authentic : Authentic h app rounds s' (answers ++ [answer])) {user : User}
    (named : loginUser h app request.2 s = some user) : ValidUtf8 user.id := by
  by_contra unreadable
  obtain ⟨ex, ran, rfl⟩ := run_of_service_step h app rounds stepped
  obtain ⟨endpoint, req⟩ := request
  obtain rfl : endpoint = .login := login
  obtain ⟨found, authenticated, s₁, checked, outcome⟩ := healthy.of_login ran
  have known : loginUser h app req s = found := by
    rw [loginUser, checked, Option.bind_some]
  obtain rfl : found = some user := known.symm.trans named
  obtain ⟨noNul, opened, sid, nonempty, sidNoNul, cookie, after⟩ := outcome
  rw [if_pos rfl, named] at authentic
  have held : view s' (storeKey sid) = some (app.libraries.createUser user.id user.username) := by
    rw [after, Function.update_self]
  have issued : LoggedIn (answers ++ [⟨.login, ex, some user⟩]) sid user :=
    loggedIn_concat.mpr (.inl (Answer.event_login user opened cookie))
  have shown := (authentic { req := { sessionId := sid } } nonempty sidNoNul).1 user.id
  exact healthy.not_answeredWith_of_dump lawful dumps nonempty held noNul unreadable
    (shown.mpr ⟨user, issued, rfl⟩)

end HealthyStore

/-! ## A login that logs a null password -/

/-- Libraries that read login requests from their bytes and dump only UTF-8. -/
def strictLibraries : Libraries :=
  { FlatbufferLogin.bufferLibraries with
    jsonDump := fun json => if json.membersUtf8 then sampleLibraries.jsonDump json else none }

theorem lawful_strictLibraries : LawfulLibraries strictLibraries where
  user_verify := lawful_sampleLibraries.user_verify
  user_id := lawful_sampleLibraries.user_id
  user_username := lawful_sampleLibraries.user_username
  json_user id username idUtf8 usernameUtf8 := by
    obtain ⟨text, dumped, parsed⟩ :=
      lawful_sampleLibraries.json_user id username idUtf8 usernameUtf8
    refine ⟨text, (if_pos ?_).trans dumped, parsed⟩
    simp [userJson, JsonValue.membersUtf8, JsonValue.textUtf8, idUtf8, usernameUtf8]

theorem dumpsUtf8_strictLibraries : DumpsUtf8 strictLibraries := by
  intro id username unreadable
  apply if_neg
  simp [userJson, JsonValue.membersUtf8, JsonValue.textUtf8, unreadable]

def strictApplication : Application :=
  { sampleApplication with libraries := strictLibraries }

def passwordlessLogin (sid : Bytes) : Endpoint × Exchange :=
  (.login,
    { req :=
        { contentType := ascii "application/flatbuffer"
          body := LoginTemplate.passwordless
          sessionId := sid } })

/-- A request that is answered meets the conditions, if its user is in UTF-8. -/
theorem meets_of_run {σ : Type} {h : BackendHandler σ} {app : Application} {rounds : Nat}
    {s : σ} {request : Endpoint × Exchange}
    (answered : (run h (request.1.handle app rounds request.2) s).isSome = true)
    (password : ¬ LogsNullPassword h app s request)
    (utf8 : ∀ user, loginUser h app request.2 s = some user →
      ValidUtf8 user.id ∧ ValidUtf8 user.username) :
    Returning h app rounds s request ∧ NamesUtf8 h app s request ∧ SafeRequest h app s request := by
  obtain ⟨⟨ex, s'⟩, ran⟩ := Option.isSome_iff_exists.mp answered
  refine ⟨?_, fun _ user named => (utf8 user named).2, password,
    fun _ user named => (utf8 user named).1⟩
  intro command stopped
  rw [stoppedAt_of_run ran] at stopped
  cases stopped

/-- A login, and the same flatbuffer from the session that it opens. -/
def loginTwice : List (Endpoint × Exchange) :=
  [(.login, sampleExchange (ascii "username") (ascii "password")),
    passwordlessLogin (spellId fun _ => 1)]

/-- The second login is refused before its body is read. -/
theorem loginTwice_meets :
    (service (World.handler sampleEnvironment) strictApplication 1).Throughout
      (sampleWorld [sampleRow]) (fun s request =>
        Returning (World.handler sampleEnvironment) strictApplication 1 s request ∧
          NamesUtf8 (World.handler sampleEnvironment) strictApplication s request ∧
            SafeRequest (World.handler sampleEnvironment) strictApplication s request)
      loginTwice := by
  apply EventMachine.Throughout.cons
  · have answered : (run (World.handler sampleEnvironment)
        (Endpoint.login.handle strictApplication 1
          (sampleExchange (ascii "username") (ascii "password")))
        (sampleWorld [sampleRow])).isSome = true := by
      decide +kernel
    have named : loginUser (World.handler sampleEnvironment) strictApplication
        (sampleExchange (ascii "username") (ascii "password")) (sampleWorld [sampleRow]) =
          some
            { id := sampleRow.id, username := sampleRow.username, hashed := sampleRow.password } := by
      decide +kernel
    refine meets_of_run ?_ ?_ ?_
    · exact answered
    · rintro ⟨misses, -⟩
      have flatbuffer := misses.flatbuffer
      revert flatbuffer
      decide +kernel
    · intro user found
      cases named.symm.trans found
      exact validUtf8_sampleRow
  · intro s answer stepped
    have seen : ((service (World.handler sampleEnvironment) strictApplication 1).step
        (sampleWorld [sampleRow])
          (.login, sampleExchange (ascii "username") (ascii "password"))).map
        (fun stepped => (
          (run (World.handler sampleEnvironment)
            (Endpoint.login.handle strictApplication 1
              (passwordlessLogin (spellId fun _ => 1)).2) stepped.1).isSome,
          (run (World.handler sampleEnvironment)
            (isAuthImpl (passwordlessLogin (spellId fun _ => 1)).2) stepped.1).map
              fun tested => tested.1.1,
          loginUser (World.handler sampleEnvironment) strictApplication
            (passwordlessLogin (spellId fun _ => 1)).2 stepped.1)) =
        .ok (true, some true, none) := by
      decide +kernel
    rw [stepped] at seen
    obtain ⟨answered, refused⟩ := Prod.mk.inj (Except.ok.inj seen)
    obtain ⟨tested, unknown⟩ := Prod.mk.inj refused
    refine EventMachine.Throughout.cons ?_ fun _ _ _ => EventMachine.throughout_nil _ _
    refine meets_of_run ?_ ?_ ?_
    · exact answered
    · rintro ⟨-, keyed, s', free⟩
      obtain ⟨⟨⟨auth, keyed'⟩, s₁⟩, ran, taken⟩ := Option.map_eq_some_iff.mp tested
      cases ran.symm.trans free
      cases taken
    · intro user found
      cases unknown.symm.trans found

end CleanArchitecture
