import CleanArchitecture.SessionAuthenticity
import CleanArchitecture.SessionFrame
import CleanArchitecture.TwinPrograms

/-!
# Passwords reach argon2 only

Two requests that differ in their password alone make the same calls, but for the password
that argon2 is given, and are answered alike as long as argon2 answers alike.  What they write
to the log is not part of the model.
-/

namespace CleanArchitecture

open Program Backend WrapperRequest WrapperResponse

/-! ## One password for another -/

def Command.IsHashing : Command → Prop
  | .argon2idHashEncoded _ _ => True
  | .argon2idVerify _ _ => True
  | _ => False

/-- One password in the place of another one where argon2 is called. -/
def Command.withPassword (secret other : Bytes) : Command → Command
  | .argon2idHashEncoded crypto password =>
      .argon2idHashEncoded crypto (if password = secret then other else password)
  | .argon2idVerify encoded password =>
      .argon2idVerify encoded (if password = secret then other else password)
  | command => command

def passwordRenaming (secret other : Bytes) : Renaming Command Command.Response where
  call := Command.withPassword secret other
  answer command := by cases command <;> exact id

section Renaming

variable {secret other : Bytes} {α β : Type}

theorem fixes_of_not_isHashing {command : Command} (apart : ¬ command.IsHashing) :
    (passwordRenaming secret other).Fixes command := by
  cases command <;> first | rfl | exact absurd trivial apart

theorem fixes_within {post : α → Prop} {program : Backend α}
    (within : Within (fun command => ¬ command.IsHashing) post program) :
    Within (passwordRenaming secret other).Fixes post program :=
  within.mono (fun _ apart => fixes_of_not_isHashing apart) fun _ holds => holds

theorem twins_same {post : α → Prop} {program : Backend α}
    (within : Within (fun command => ¬ command.IsHashing) post program) :
    Twins (passwordRenaming secret other) (fun value twin => twin = value) program program :=
  (twins_of_within (fixes_within within)).mono fun _ _ both => both.1

theorem twins_terminate {related : α → β → Prop} :
    Twins (passwordRenaming secret other) related terminate terminate :=
  twins_call_of_eq (fixes_of_not_isHashing id) fun never => never.elim

theorem twins_argon2idVerify (encoded : Bytes) :
    Twins (passwordRenaming secret other) (fun value twin => twin = value)
      (argon2idVerify encoded secret) (argon2idVerify encoded other) := by
  have named : (⟨(passwordRenaming secret other).call (.argon2idVerify encoded secret), id⟩ :
      (call : Command) × (call.Response → Int)) = ⟨.argon2idVerify encoded other, id⟩ := by
    simp [passwordRenaming, Command.withPassword]
  exact twins_call_of_eq named fun _ => .done rfl

theorem twins_argon2idHashEncoded (crypto : MainCrypto) :
    Twins (passwordRenaming secret other) (fun value twin => twin = value)
      (argon2idHashEncoded crypto secret) (argon2idHashEncoded crypto other) := by
  have named : (⟨(passwordRenaming secret other).call (.argon2idHashEncoded crypto secret), id⟩ :
      (call : Command) × (call.Response → Int × Bytes)) =
        ⟨.argon2idHashEncoded crypto other, id⟩ := by
    simp [passwordRenaming, Command.withPassword]
  exact twins_call_of_eq named fun _ => .done rfl

end Renaming

/-! ## The body of a request -/

def Exchange.withBody (body : Bytes) (ex : Exchange) : Exchange :=
  { ex with req := { ex.req with body := body } }

/-- A function of an exchange that does not look at the body. -/
def IgnoresBody {γ : Type} (f : Exchange → Backend (γ × Exchange)) : Prop :=
  ∀ body ex, f (ex.withBody body) = Prod.map id (Exchange.withBody body) <$> f ex

section IgnoresBody

variable {γ δ : Type}

theorem ignoresBody_getSessionKey : IgnoresBody getSessionKey := by
  intro body ex
  by_cases session : ex.req.sessionId ≠ []
  · have same : (ex.withBody body).req.sessionId ≠ [] := session
    rw [getSessionKey_of_session session, getSessionKey_of_session same]
    rfl
  · have same : ¬ (ex.withBody body).req.sessionId ≠ [] := session
    rw [getSessionKey, getSessionKey, getSessionIdImpl, getSessionIdImpl, if_neg session,
      if_neg same]
    simp only [bind_assoc, pure_bind, map_bind, map_pure]
    rfl

theorem ignoresBody_isAuthImpl : IgnoresBody isAuthImpl := by
  intro body ex
  simp only [isAuthImpl, ignoresBody_getSessionKey body ex, bind_map_left, map_bind, map_pure]
  rfl

theorem ignoresBody_getNewSessionIdImpl (rounds : Nat) :
    IgnoresBody (getNewSessionIdImpl rounds) := by
  intro body ex
  induction rounds generalizing ex with
  | zero => exact congrArg (Program.call _) (funext fun never => never.elim)
  | succ rounds ih =>
      rw [getNewSessionIdImpl, getNewSessionIdImpl, map_bind]
      refine congrArg (getrandom >>= ·) (funext fun buffer => ?_)
      have drawn := ignoresBody_getSessionKey body (ex.withSession (spellId buffer))
      simp only [map_bind]
      refine (congrArg (fun keyed : Backend (Bytes × Exchange) => keyed >>= _) drawn).trans ?_
      rw [bind_map_left]
      refine congrArg (getSessionKey _ >>= ·) (funext fun keyed => ?_)
      refine congrArg (IStore.exists _ >>= ·) (funext fun taken => ?_)
      cases taken with
      | true => exact ih keyed.2
      | false => rfl

theorem ignoresBody_setSessionUserImpl (libraries : Libraries) (rounds : Nat) (user : User) :
    IgnoresBody (setSessionUserImpl libraries rounds user) := by
  intro body ex
  simp only [setSessionUserImpl, ignoresBody_getNewSessionIdImpl rounds body ex, bind_map_left,
    map_bind, map_pure]
  refine congrArg (_ >>= ·) (funext fun drawn => ?_)
  refine (congrArg (fun keyed : Backend (Bytes × Exchange) => keyed >>= _)
    (ignoresBody_getSessionKey body drawn.2)).trans ?_
  rw [bind_map_left]
  rfl

theorem ignoresBody_getSessionUserImpl (libraries : Libraries) :
    IgnoresBody (getSessionUserImpl libraries) := by
  intro body ex
  simp only [getSessionUserImpl, ignoresBody_getSessionKey body ex, bind_map_left, map_bind]
  refine congrArg (_ >>= ·) (funext fun keyed => congrArg (_ >>= ·) (funext fun found => ?_))
  rcases found with log | _ | data
  · rfl
  · rfl
  · dsimp only
    split
    · rw [map_bind]
      refine congrArg (_ >>= ·) (funext fun id => ?_)
      rw [map_bind]
      rfl
    · rfl

theorem ignoresBody_clearSessionUserImpl : IgnoresBody clearSessionUserImpl := by
  intro body ex
  simp only [clearSessionUserImpl, ignoresBody_getSessionKey body ex, bind_map_left, map_bind]
  refine congrArg (_ >>= ·) (funext fun keyed => congrArg (_ >>= ·) (funext fun deleted => ?_))
  cases deleted with
  | true => rfl
  | false => rfl

end IgnoresBody

/-! ## Requests that differ in their password -/

/-- Passwords that are empty together and that the length checks treat alike. -/
structure SameShape (secret other : Bytes) : Prop where
  empty : secret = [] ↔ other = []
  short : toUint32 secret.length < passwordMin ↔ toUint32 other.length < passwordMin
  long : toUint32 secret.length > passwordMax ↔ toUint32 other.length > passwordMax

/-- Both bodies are rejected, or they name one user with the two passwords. -/
inductive BodyTwins (secret other : Bytes) : Except Log AuthBody → Except Log AuthBody → Prop
  | error (log : Log) : BodyTwins secret other (.error log) (.error log)
  | ok (username : Bytes) :
      BodyTwins secret other (.ok { username := username, password := secret })
        (.ok { username := username, password := other })

/-- Neither flatbuffer has a password, or they have the two passwords. -/
inductive StringTwins (secret other : Bytes) : Option Bytes → Option Bytes → Prop
  | none : StringTwins secret other none none
  | some {text text' : Bytes} (first : cStr text = secret) (second : cStr text' = other) :
      StringTwins secret other (some text) (some text')

/-- The exchanges differ in their bodies, and these in their passwords, as JSON and as
flatbuffers. -/
structure PasswordTwins (libraries : Libraries) (secret other : Bytes) (ex twin : Exchange) :
    Prop where
  request : twin = ex.withBody twin.req.body
  empty : ex.req.body = [] ↔ twin.req.body = []
  shape : SameShape secret other
  json : BodyTwins secret other (parseJsonBody libraries ex.req.body)
    (parseJsonBody libraries twin.req.body)
  verified : ex.req.contentType = ascii "application/flatbuffer" →
    libraries.loginRequestVerify ex.req.body = libraries.loginRequestVerify twin.req.body
  username : ex.req.contentType = ascii "application/flatbuffer" →
    libraries.loginRequestUsername ex.req.body = libraries.loginRequestUsername twin.req.body
  password : ex.req.contentType = ascii "application/flatbuffer" →
    StringTwins secret other (libraries.loginRequestPassword ex.req.body)
      (libraries.loginRequestPassword twin.req.body)

section UseCases

variable {secret other : Bytes} {libraries : Libraries}

namespace PasswordTwins

variable {ex twin : Exchange}

theorem res (twins : PasswordTwins libraries secret other ex twin) : twin.res = ex.res := by
  rw [twins.request]
  rfl

/-- A later state of an exchange has a twin with the same body as before. -/
theorem evolve (twins : PasswordTwins libraries secret other ex twin) {ex' : Exchange}
    (evolves : ex.Evolves ex') :
    PasswordTwins libraries secret other ex' (ex'.withBody twin.req.body) := by
  obtain ⟨sid, -, same⟩ := evolves.request
  have body : ex'.req.body = ex.req.body := by rw [same]
  have type : ex'.req.contentType = ex.req.contentType := by rw [same]
  refine ⟨rfl, ?_, twins.shape, ?_, ?_, ?_, ?_⟩
  all_goals rw [body]
  · exact twins.empty
  · exact twins.json
  all_goals rw [type]
  · exact twins.verified
  · exact twins.username
  · exact twins.password

/-- The responses change in the same way. -/
theorem respond (twins : PasswordTwins libraries secret other ex twin)
    (change : Response → Response) :
    PasswordTwins libraries secret other { ex with res := change ex.res }
      { twin with res := change twin.res } := by
  refine ⟨?_, twins.empty, twins.shape, twins.json, twins.verified, twins.username,
    twins.password⟩
  rw [twins.res]
  exact congrArg (fun req => ({ req := req, res := change ex.res } : Exchange))
    (congrArg Exchange.req twins.request)

theorem setStatus (twins : PasswordTwins libraries secret other ex twin) (status : Int) :
    PasswordTwins libraries secret other (WrapperResponse.setStatus status ex)
      (WrapperResponse.setStatus status twin) :=
  twins.respond fun res => { res with status := status }

theorem setContentType (twins : PasswordTwins libraries secret other ex twin)
    (type : ContentTypeEnum) :
    PasswordTwins libraries secret other (WrapperResponse.setContentType type ex)
      (WrapperResponse.setContentType type twin) :=
  twins.respond fun res => { res with contentType := type }

theorem setBody (twins : PasswordTwins libraries secret other ex twin) (body : Bytes) :
    PasswordTwins libraries secret other (WrapperResponse.setBody body ex)
      (WrapperResponse.setBody body twin) :=
  twins.respond fun res => { res with content := body, contentLength := decimal body.length }

end PasswordTwins

/-- The results agree, and the exchanges are twins. -/
def TwinResults {γ : Type} (libraries : Libraries) (secret other : Bytes)
    (result result' : γ × Exchange) : Prop :=
  result'.1 = result.1 ∧ PasswordTwins libraries secret other result.2 result'.2

/-! ### Sessions -/

theorem OnSession.unhashed {γ : Type} {verbs : List Bytes} {post : γ → Prop} {program : Backend γ}
    (onSession : OnSession verbs post program) :
    Within (fun command => ¬ command.IsHashing) post program := by
  refine Within.mono onSession ?_ fun _ holds => holds
  intro command call hashing
  cases command <;> first | exact hashing | exact call

/-- A session function of an exchange and of its twin. -/
theorem IgnoresBody.twins {γ : Type} {f : Exchange → Backend (γ × Exchange)}
    (ignores : IgnoresBody f) {verbs : List Bytes} {post : γ × Exchange → Prop} {ex twin : Exchange}
    (onSession : OnSession verbs post (f ex))
    (evolves : ∀ result, post result → ex.Evolves result.2)
    (twins : PasswordTwins libraries secret other ex twin) :
    Twins (passwordRenaming secret other) (TwinResults libraries secret other) (f ex) (f twin) := by
  rw [twins.request, ignores twin.req.body ex]
  refine (twins_map_of_within (Prod.map id (Exchange.withBody twin.req.body))
    (fixes_within onSession.unhashed)).mono ?_
  rintro result _ ⟨rfl, holds⟩
  exact ⟨rfl, twins.evolve (evolves result holds)⟩

theorem twins_isAuthImpl {ex twin : Exchange}
    (twins : PasswordTwins libraries secret other ex twin) :
    Twins (passwordRenaming secret other) (TwinResults libraries secret other) (isAuthImpl ex)
      (isAuthImpl twin) :=
  ignoresBody_isAuthImpl.twins (onSession_isAuthImpl ex) (fun _ => .of_renews) twins

theorem twins_setSessionUserImpl (rounds : Nat) (user : User) {ex twin : Exchange}
    (twins : PasswordTwins libraries secret other ex twin) :
    Twins (passwordRenaming secret other) (TwinResults libraries secret other)
      (setSessionUserImpl libraries rounds user ex)
      (setSessionUserImpl libraries rounds user twin) := by
  refine (ignoresBody_setSessionUserImpl libraries rounds user).twins
    (onSession_setSessionUserImpl libraries rounds user ex) ?_ twins
  rintro ⟨_, set⟩ ⟨sid, spelt, rfl⟩
  have renewed : ex.Renews (ex.withSession sid) := ⟨sid, .inr spelt, rfl⟩
  exact (Exchange.Evolves.of_renews renewed).trans (.pushCookie 3600 (.inr spelt))

theorem twins_getSessionUserImpl {ex twin : Exchange}
    (twins : PasswordTwins libraries secret other ex twin) :
    Twins (passwordRenaming secret other) (TwinResults libraries secret other)
      (getSessionUserImpl libraries ex) (getSessionUserImpl libraries twin) :=
  (ignoresBody_getSessionUserImpl libraries).twins (onSession_getSessionUserImpl libraries ex)
    (fun _ => .of_renews) twins

theorem twins_clearSessionUserImpl {ex twin : Exchange}
    (twins : PasswordTwins libraries secret other ex twin) :
    Twins (passwordRenaming secret other) (TwinResults libraries secret other)
      (clearSessionUserImpl ex) (clearSessionUserImpl twin) := by
  refine ignoresBody_clearSessionUserImpl.twins (onSession_clearSessionUserImpl ex) ?_ twins
  rintro ⟨cleared, last⟩ ⟨renewed, renews, same⟩
  obtain rfl : last = if cleared then pushCookie renewed (sessionCookie [] 0) else renewed := same
  cases cleared with
  | true => exact (Exchange.Evolves.of_renews renews).trans (.pushCookie 0 (.inl rfl))
  | false => exact .of_renews renews

/-! ### Login -/

theorem unhashed_perform {command : Command} (apart : ¬ command.IsHashing) :
    Within (fun command => ¬ command.IsHashing) (fun _ => True)
      (perform command : Backend command.Response) :=
  within_perform apart

theorem unhashed_dereference {γ : Type} (pointer : Option γ) :
    Within (fun command => ¬ command.IsHashing) (fun _ => True) (dereference pointer) := by
  refine (within_dereference pointer).mono ?_ fun _ _ => trivial
  rintro command rfl
  exact id

theorem unhashed_query (statement : PostgresStatement) (values : List Bytes) (formats : List Int) :
    Within (fun command => ¬ command.IsHashing) (fun _ => True)
      (Postgres.query statement values formats) := by
  refine (Postgres.onDatabase_query statement values formats).mono ?_ fun _ _ => trivial
  intro command call hashing
  cases command <;> first | exact hashing | exact call

theorem unhashed_getUserByUsernameImpl (userDb : UserPostgres) (username : Bytes) :
    Within (fun command => ¬ command.IsHashing) (fun _ => True)
      (userDb.getUserByUsernameImpl username) := by
  apply (unhashed_query _ _ _).bind
  intro answer _
  cases answer with
  | error log => exact within_pure trivial
  | ok result =>
      dsimp only
      split
      · exact (unhashed_perform id).bind fun _ _ => within_pure trivial
      · refine (unhashed_dereference _).bind fun rowId _ => ?_
        refine (unhashed_dereference _).bind fun hashed _ => ?_
        exact (unhashed_perform id).bind fun _ _ => within_pure trivial

theorem unhashed_addUserImpl (userDb : UserPostgres) (user : User) :
    Within (fun command => ¬ command.IsHashing) (fun _ => True) (userDb.addUserImpl user) := by
  apply (unhashed_query _ _ _).bind
  intro answer _
  cases answer with
  | error log => exact within_pure trivial
  | ok result =>
      refine (unhashed_dereference _).bind fun rowId _ => ?_
      exact (unhashed_perform id).bind fun _ _ => within_pure trivial

theorem twins_verifyPassword (user : User) :
    Twins (passwordRenaming secret other) (fun value twin => twin = value)
      (user.verifyPassword libraries secret) (user.verifyPassword libraries other) := by
  apply (twins_argon2idVerify _).bind
  rintro _ err rfl
  split
  · exact twins_pure rfl
  · split
    · exact twins_pure rfl
    · exact twins_pure rfl

theorem twins_checkUser (app : Application) (username : Bytes) :
    Twins (passwordRenaming secret other) (fun value twin => twin = value)
      (LoginAuthUseCase.checkUser app { username := username, password := secret })
      (LoginAuthUseCase.checkUser app { username := username, password := other }) := by
  apply (twins_same (unhashed_getUserByUsernameImpl app.userDb username)).bind
  rintro ⟨found, name⟩ _ rfl
  cases found with
  | error log => exact twins_pure rfl
  | ok user =>
      apply (twins_verifyPassword user).bind
      rintro _ verdict rfl
      rcases verdict with log | _ | _
      · exact twins_pure rfl
      · exact twins_pure rfl
      · exact twins_pure rfl

/-- The passwords of the flatbuffers are only written to the log. -/
theorem twins_logUnverified {body body' : Bytes}
    (verified : libraries.loginRequestVerify body = libraries.loginRequestVerify body')
    (password : StringTwins secret other (libraries.loginRequestPassword body)
      (libraries.loginRequestPassword body')) :
    Twins (passwordRenaming secret other) (fun value twin => twin = value)
      (LoginAuthUseCase.logUnverified libraries body)
      (LoginAuthUseCase.logUnverified libraries body') := by
  rw [LoginAuthUseCase.logUnverified, LoginAuthUseCase.logUnverified, ← verified]
  generalize libraries.loginRequestPassword body = text,
    libraries.loginRequestPassword body' = text' at password ⊢
  split
  · exact twins_pure rfl
  · cases password with
    | none => exact (twins_same (unhashed_dereference none)).bind fun _ _ _ => twins_pure rfl
    | some first second => exact twins_pure rfl

theorem twins_parseBody {ex twin : Exchange}
    (twins : PasswordTwins libraries secret other ex twin) :
    Twins (passwordRenaming secret other) (BodyTwins secret other)
      (LoginAuthUseCase.parseBody libraries ex.req)
      (LoginAuthUseCase.parseBody libraries twin.req) := by
  have type : twin.req.contentType = ex.req.contentType := by
    rw [twins.request]
    rfl
  rw [LoginAuthUseCase.parseBody, LoginAuthUseCase.parseBody, type]
  by_cases empty : ex.req.body = []
  · rw [if_pos empty, if_pos (twins.empty.mp empty)]
    exact twins_pure (.error _)
  · rw [if_neg empty, if_neg (fun none => empty (twins.empty.mpr none))]
    by_cases flatbuffer : ex.req.contentType = ascii "application/flatbuffer"
    · rw [if_pos flatbuffer, if_pos flatbuffer]
      apply (twins_logUnverified (twins.verified flatbuffer) (twins.password flatbuffer)).bind
      intro _ _ _
      have password := twins.password flatbuffer
      rw [← twins.username flatbuffer]
      generalize libraries.loginRequestPassword ex.req.body = text,
        libraries.loginRequestPassword twin.req.body = text' at password ⊢
      cases libraries.loginRequestUsername ex.req.body with
      | none => exact twins_pure (.error _)
      | some name =>
          cases password with
          | none => exact twins_pure (.error _)
          | some first second =>
              subst first second
              exact twins_pure (.ok _)
    · rw [if_neg flatbuffer, if_neg flatbuffer]
      exact twins_pure twins.json

theorem twins_authenticate {app : Application} {ex twin : Exchange}
    (twins : PasswordTwins app.libraries secret other ex twin) :
    Twins (passwordRenaming secret other) (TwinResults app.libraries secret other)
      (LoginAuthUseCase.authenticate app ex) (LoginAuthUseCase.authenticate app twin) := by
  apply (twins_isAuthImpl twins).bind
  rintro ⟨_, tested⟩ ⟨auth, tested'⟩ ⟨rfl, twins⟩
  cases auth with
  | true => exact twins_pure ⟨rfl, twins.setStatus _⟩
  | false =>
      apply (twins_parseBody twins).bind
      intro parsed parsed' bodies
      cases bodies with
      | error log => exact twins_pure ⟨rfl, twins.setStatus _⟩
      | ok username =>
          have same : username = [] ∨ secret = [] ↔ username = [] ∨ other = [] :=
            or_congr_right twins.shape.empty
          dsimp only
          by_cases missing : username = [] ∨ secret = []
          · rw [if_pos missing, if_pos (same.mp missing)]
            exact twins_pure ⟨rfl, twins.setStatus _⟩
          · rw [if_neg missing, if_neg (fun absent => missing (same.mpr absent))]
            apply (twins_checkUser app username).bind
            rintro _ found rfl
            cases found with
            | none => exact twins_pure ⟨rfl, twins.setStatus _⟩
            | some user => exact twins_pure ⟨rfl, twins⟩

theorem twins_login {app : Application} {ex twin : Exchange} (rounds : Nat)
    (twins : PasswordTwins app.libraries secret other ex twin) :
    Twins (passwordRenaming secret other) (PasswordTwins app.libraries secret other)
      (LoginAuthUseCase.execute app rounds ex) (LoginAuthUseCase.execute app rounds twin) := by
  apply (twins_authenticate twins).bind
  rintro ⟨_, checked⟩ ⟨found, checked'⟩ ⟨rfl, twins⟩
  cases found with
  | none => exact twins_pure twins
  | some user =>
      apply (twins_setSessionUserImpl rounds user twins).bind
      rintro ⟨_, set⟩ ⟨log, set'⟩ ⟨rfl, twins⟩
      exact twins_pure (twins.setStatus _)

/-! ### Logout and user -/

theorem twins_logout {app : Application} {ex twin : Exchange}
    (twins : PasswordTwins app.libraries secret other ex twin) :
    Twins (passwordRenaming secret other) (PasswordTwins app.libraries secret other)
      (LogoutAuthUseCase.execute app ex) (LogoutAuthUseCase.execute app twin) := by
  apply (twins_isAuthImpl twins).bind
  rintro ⟨_, tested⟩ ⟨auth, tested'⟩ ⟨rfl, twins⟩
  cases auth with
  | false => exact twins_pure (twins.setStatus _)
  | true =>
      apply (twins_clearSessionUserImpl twins).bind
      rintro ⟨_, cleared⟩ ⟨logout, cleared'⟩ ⟨rfl, twins⟩
      cases logout with
      | true => exact twins_pure (twins.setStatus _)
      | false =>
          apply (twins_getSessionUserImpl twins).bind
          rintro ⟨_, last⟩ ⟨user, last'⟩ ⟨rfl, twins⟩
          exact twins_pure (twins.setStatus _)

theorem twins_user {app : Application} {ex twin : Exchange}
    (twins : PasswordTwins app.libraries secret other ex twin) :
    Twins (passwordRenaming secret other) (PasswordTwins app.libraries secret other)
      (UserAuthUseCase.execute app ex) (UserAuthUseCase.execute app twin) := by
  apply (twins_isAuthImpl twins).bind
  rintro ⟨_, tested⟩ ⟨auth, tested'⟩ ⟨rfl, twins⟩
  cases auth with
  | false => exact twins_pure (twins.setStatus _)
  | true =>
      apply (twins_getSessionUserImpl twins).bind
      rintro ⟨_, got⟩ ⟨user, got'⟩ ⟨rfl, twins⟩
      cases user with
      | none => exact twins_pure (twins.setStatus _)
      | some user =>
          dsimp only
          cases app.libraries.jsonDump (userJson user.id user.username) with
          | none => exact twins_terminate
          | some body => exact twins_pure (((twins.setBody body).setContentType _).setStatus _)

/-! ### Registration -/

theorem twins_hashPassword {app : Application} (user : User) :
    Twins (passwordRenaming secret other)
      (fun hashed hashed' => hashed' = (hashed.1, { hashed.2 with password := other }))
      (({ user with password := secret } : User).hashPassword app.libraries app.crypto)
      (({ user with password := other } : User).hashPassword app.libraries app.crypto) := by
  have hashed : Twins (passwordRenaming secret other) (fun value twin => twin = value)
      (app.crypto.hashImpl app.libraries secret) (app.crypto.hashImpl app.libraries other) := by
    apply (twins_argon2idHashEncoded app.crypto).bind
    rintro _ answer rfl
    dsimp only
    split
    · exact twins_pure rfl
    · exact twins_pure rfl
  apply hashed.bind
  rintro _ result rfl
  cases result with
  | error log => exact twins_pure rfl
  | ok hash => exact twins_pure rfl

theorem twins_addUser {app : Application} {ex twin : Exchange} (username : Bytes)
    (twins : PasswordTwins app.libraries secret other ex twin) :
    Twins (passwordRenaming secret other) (PasswordTwins app.libraries secret other)
      (RegisterAuthUseCase.addUser app { username := username, password := secret } ex)
      (RegisterAuthUseCase.addUser app { username := username, password := other } twin) := by
  rw [RegisterAuthUseCase.addUser, RegisterAuthUseCase.addUser]
  cases (makeUser username).1 with
  | error log => exact twins_pure ((twins.setBody _).setStatus _)
  | ok user =>
      simp only [User.setPassword, ← twins.shape.short, ← twins.shape.long]
      by_cases short : toUint32 secret.length < passwordMin
      · simp only [if_pos short]
        exact twins_pure ((twins.setBody _).setStatus _)
      · by_cases long : toUint32 secret.length > passwordMax
        · simp only [if_neg short, if_pos long]
          exact twins_pure ((twins.setBody _).setStatus _)
        · simp only [if_neg short, if_neg long]
          apply (twins_hashPassword user).bind
          rintro ⟨failure, hashed⟩ _ rfl
          cases failure with
          | some log => exact twins_pure ((twins.setBody _).setStatus _)
          | none =>
              apply (twins_same (unhashed_addUserImpl app.userDb hashed)).bind
              rintro _ id rfl
              cases id with
              | ok id => exact twins_pure ((twins.setBody _).setStatus _)
              | error error =>
                  dsimp only
                  split
                  · exact twins_pure ((twins.setBody _).setStatus _)
                  · exact twins_pure ((twins.setBody _).setStatus _)

theorem twins_register {app : Application} {ex twin : Exchange}
    (twins : PasswordTwins app.libraries secret other ex twin) :
    Twins (passwordRenaming secret other) (PasswordTwins app.libraries secret other)
      (RegisterAuthUseCase.execute app ex) (RegisterAuthUseCase.execute app twin) := by
  apply (twins_isAuthImpl twins).bind
  rintro ⟨_, tested⟩ ⟨auth, tested'⟩ ⟨rfl, twins⟩
  cases auth with
  | true => exact twins_pure (twins.setStatus _)
  | false =>
      have bodies : BodyTwins secret other
          (RegisterAuthUseCase.parseBody app.libraries tested.req)
          (RegisterAuthUseCase.parseBody app.libraries tested'.req) := by
        rw [RegisterAuthUseCase.parseBody, RegisterAuthUseCase.parseBody]
        by_cases empty : tested.req.body = []
        · rw [if_pos empty, if_pos (twins.empty.mp empty)]
          exact .error _
        · rw [if_neg empty, if_neg (fun none => empty (twins.empty.mpr none))]
          exact twins.json
      dsimp only
      generalize RegisterAuthUseCase.parseBody app.libraries tested.req = parsed,
        RegisterAuthUseCase.parseBody app.libraries tested'.req = parsed' at bodies ⊢
      cases bodies with
      | error log => exact twins_pure ((twins.setBody _).setStatus _)
      | ok username =>
          have same : username = [] ∨ secret = [] ↔ username = [] ∨ other = [] :=
            or_congr_right twins.shape.empty
          dsimp only
          by_cases missing : username = [] ∨ secret = []
          · rw [if_pos missing, if_pos (same.mp missing)]
            exact twins_pure ((twins.setBody _).setStatus _)
          · rw [if_neg missing, if_neg (fun absent => missing (same.mpr absent))]
            exact twins_addUser username twins

theorem twins_handle {app : Application} {ex twin : Exchange} (rounds : Nat) (endpoint : Endpoint)
    (twins : PasswordTwins app.libraries secret other ex twin) :
    Twins (passwordRenaming secret other) (PasswordTwins app.libraries secret other)
      (endpoint.handle app rounds ex) (endpoint.handle app rounds twin) := by
  cases endpoint with
  | user => exact twins_user twins
  | login => exact twins_login rounds twins
  | logout => exact twins_logout twins
  | register => exact twins_register twins

end UseCases

/-! ## Any number of requests -/

/-- Argon2 answers a call alike for both passwords. -/
def AnswersAlike {σ : Type} (h : BackendHandler σ) (secret other : Bytes) (s : σ) : Command → Prop
  | .argon2idHashEncoded crypto _ =>
      h (.argon2idHashEncoded crypto secret) s = h (.argon2idHashEncoded crypto other) s
  | .argon2idVerify encoded _ =>
      h (.argon2idVerify encoded secret) s = h (.argon2idVerify encoded other) s
  | _ => True

theorem AnswersAlike.blinds {σ : Type} {h : BackendHandler σ} {secret other : Bytes} {s : σ}
    {command : Command} (alike : AnswersAlike h secret other s command) :
    (passwordRenaming secret other).Blinds h command s := by
  have plain : ∀ command, h command s = (h command s).map (Prod.map id id) := by
    intro command
    rw [Prod.map_id, Option.map_id, id]
  cases command with
  | argon2idHashEncoded crypto password =>
      have answered : h (.argon2idHashEncoded crypto password) s =
          h (.argon2idHashEncoded crypto (if password = secret then other else password)) s := by
        let hash (password : Bytes) : Option ((Int × Bytes) × σ) :=
          h (.argon2idHashEncoded crypto password) s
        by_cases same : password = secret
        · have given : hash password = hash other := same ▸ alike
          exact given.trans (congrArg hash (if_pos same).symm)
        · exact congrArg hash (if_neg same).symm
      exact answered.trans (plain _)
  | argon2idVerify encoded password =>
      have answered : h (.argon2idVerify encoded password) s =
          h (.argon2idVerify encoded (if password = secret then other else password)) s := by
        let verify (password : Bytes) : Option (Int × σ) := h (.argon2idVerify encoded password) s
        by_cases same : password = secret
        · have given : verify password = verify other := same ▸ alike
          exact given.trans (congrArg verify (if_pos same).symm)
        · exact congrArg verify (if_neg same).symm
      exact answered.trans (plain _)
  | _ => exact plain _

section Requests

variable {ι σ : Type} [DecidableEq ι]

/-- Requests to endpoints, each before its first call. -/
def startRequests (app : Application) (rounds : Nat) (endpoints : ι → Endpoint)
    (exchanges : ι → Exchange) (start : σ) :
    Threads Command Command.Response Exchange Unit σ ι where
  programs i := (endpoints i).handle app rounds (exchanges i)
  phases _ := ()
  shared := start

/-- In any interleaving of requests, other passwords that argon2 answers alike make the same
calls of the same threads but for the passwords that argon2 is given, leave every server as it
is left, and are answered the same.  An empty password is replaced by an empty one only, and
the others by ones that the length checks treat alike. -/
theorem passwords_hidden {app : Application} {rounds : Nat} {endpoints : ι → Endpoint}
    {exchanges twins : ι → Exchange} {secret other : ι → Bytes}
    (differ : ∀ i, PasswordTwins app.libraries (secret i) (other i) (exchanges i) (twins i))
    {h : BackendHandler σ} {start : σ} {schedule : List ι}
    {turns : List (Turn Command Command.Response Exchange Unit σ ι)}
    {last : Threads Command Command.Response Exchange Unit σ ι}
    (ran : (interleaving (fun _ => anyCall) h).run
      (startRequests app rounds endpoints exchanges start) schedule = .ok (last, turns))
    (alike : ∀ turn ∈ turns, AnswersAlike h (secret turn.thread) (other turn.thread)
      turn.before.shared turn.command) :
    ∃ last' turns', (interleaving (fun _ => anyCall) h).run
        (startRequests app rounds endpoints twins start) schedule = .ok (last', turns') ∧
      last'.shared = last.shared ∧
      List.Forall₂ (fun turn turn' => turn'.thread = turn.thread ∧
        turn'.command =
          turn.command.withPassword (secret turn.thread) (other turn.thread)) turns turns' ∧
      ∀ i ex, last.programs i = .done ex →
        ∃ ex', last'.programs i = .done ex' ∧ ex'.res = ex.res := by
  have started : TwinThreads (fun i => passwordRenaming (secret i) (other i))
      (fun i => PasswordTwins app.libraries (secret i) (other i))
      (startRequests app rounds endpoints exchanges start)
      (startRequests app rounds endpoints twins start) :=
    ⟨fun i => twins_handle rounds (endpoints i) (differ i), rfl⟩
  obtain ⟨last', turns', ran', finished, same⟩ :=
    started.run ran fun turn member => (alike turn member).blinds
  refine ⟨last', turns', ran', finished.shared, same, fun i ex done => ?_⟩
  have twin := finished.programs i
  rw [done] at twin
  obtain ⟨ex', done', twins⟩ := twin.of_done
  exact ⟨ex', done', twins.res⟩

end Requests

/-! ## Two requests with wrong passwords -/

def sampleEndpoints : Bool → Endpoint
  | false => .login
  | true => .register

def sampleNames : Bool → Bytes
  | false => sampleRow.username
  | true => ascii "somebody"

/-- A wrong password, and one that is too short. -/
def sampleSecrets : Bool → Bytes
  | false => ascii "passw0rd"
  | true => ascii "abc"

def sampleOthers : Bool → Bytes
  | false => ascii "something else"
  | true => ascii "xy"

theorem passwordTwins_sample (i : Bool) :
    PasswordTwins sampleApplication.libraries (sampleSecrets i) (sampleOthers i)
      (sampleExchange (sampleNames i) (sampleSecrets i))
      (sampleExchange (sampleNames i) (sampleOthers i)) := by
  have filled : ∀ password, (sampleExchange (sampleNames i) password).req.body ≠ [] :=
    fun _ => List.cons_ne_nil _ _
  have parsed : ∀ password, parseJsonBody sampleApplication.libraries
      (sampleExchange (sampleNames i) password).req.body =
        .ok { username := sampleNames i, password := password } := by
    intro password
    have whole := parseBody_sampleExchange (sampleNames i) password
    rwa [RegisterAuthUseCase.parseBody, if_neg (filled password)] at whole
  refine ⟨rfl, by simp only [filled], ?_, ?_, ?_, ?_, ?_⟩
  · cases i <;> exact ⟨by decide, by decide, by decide⟩
  · rw [parsed, parsed]
    exact .ok _
  all_goals exact fun _ => by first | rfl | exact .none

/-- Whether the sample environment verifies the two passwords alike. -/
def verifiedAlike (i : Bool) : Command → Bool
  | .argon2idVerify encoded _ =>
      sampleEnvironment.verify encoded (sampleSecrets i) =
        sampleEnvironment.verify encoded (sampleOthers i)
  | .argon2idHashEncoded _ _ => false
  | _ => true

theorem answersAlike_of_verifiedAlike {i : Bool} {command : Command}
    (alike : verifiedAlike i command = true) (w : World) :
    AnswersAlike (World.handler sampleEnvironment) (sampleSecrets i) (sampleOthers i) w
      command := by
  cases command with
  | argon2idVerify encoded password =>
      have same := of_decide_eq_true alike
      exact congrArg (fun answer => some (answer, w)) same
  | argon2idHashEncoded crypto password => cases alike
  | _ => exact trivial

/-- The requests take turns until the registration is answered. -/
def sampleTurns : List Bool :=
  (List.replicate 7 [false, true]).flatten ++ List.replicate 11 false

/-- With the other wrong password the login is answered 401 too. -/
theorem passwords_hidden_sample : ∃ last turns,
    (interleaving (fun _ => anyCall) (World.handler sampleEnvironment)).run
      (startRequests sampleApplication 1 sampleEndpoints
        (fun i => sampleExchange (sampleNames i) (sampleOthers i)) (sampleWorld [sampleRow]))
      sampleTurns = .ok (last, turns) ∧
      ∃ ex, last.programs false = .done ex ∧ ex.res.status = statusUnauthorized := by
  have ran : ((interleaving (fun _ => anyCall) (World.handler sampleEnvironment)).run
      (startRequests sampleApplication 1 sampleEndpoints
        (fun i => sampleExchange (sampleNames i) (sampleSecrets i)) (sampleWorld [sampleRow]))
      sampleTurns).map
      (fun ended => ((ended.1.programs false).result?.map fun ex => ex.res.status,
        ended.2.all fun turn => verifiedAlike turn.thread turn.command)) =
      .ok (some statusUnauthorized, true) := by
    decide +kernel
  obtain ⟨last, turns, ended, seen⟩ := EventMachine.exists_of_view ran
  obtain ⟨status, checked⟩ := Prod.mk.inj seen
  obtain ⟨ex, done, unauthorized⟩ := Option.map_eq_some_iff.mp status
  have alike : ∀ turn ∈ turns, AnswersAlike (World.handler sampleEnvironment)
      (sampleSecrets turn.thread) (sampleOthers turn.thread) turn.before.shared turn.command :=
    fun turn member =>
      answersAlike_of_verifiedAlike (List.all_eq_true.mp checked turn member) turn.before.shared
  obtain ⟨last', turns', ran', -, -, answers⟩ :=
    passwords_hidden passwordTwins_sample ended alike
  obtain ⟨ex', done', same⟩ := answers false ex (result?_eq_some.mp done)
  exact ⟨last', turns', ran', ex', done', by rw [same, unauthorized]⟩

end CleanArchitecture
