import CleanArchitecture.ConcurrentRegistrations
import CleanArchitecture.StoreOperations
import CleanArchitecture.StoreProtocol

/-!
# Sessions and the passwords behind them

A thread's evidence is what it was told last: the result of its lookup, a password that
matched and the value of a session.  A session is written only on the evidence of a login.
Hence in every interleaving each session in the store, and each user that a request is
answered with, goes back to a login that was sent the password of a row.
-/

namespace CleanArchitecture

open Program Backend WrapperRequest WrapperResponse

/-! ## Evidence -/

/-- The last lookup by one parameter, with what the server read and its result, the encoded
hash and the password that matched after it, and the last value that was read from the
store. -/
structure Evidence where
  lookup : Option (List Bytes × Option PgResult) := none
  matched : Option (Bytes × Bytes) := none
  read : Option Bytes := none

/-- The evidence after a call. -/
def Evidence.next (evidence : Evidence) : (command : Command) → command.Response → Evidence
  | .pqExecPrepared _ _ nParams values lengths formats => fun result =>
      if nParams = 1 then
        { evidence with lookup := some (paramValues values lengths formats, result), matched := none }
      else evidence
  | .argon2idVerify encoded password => fun code =>
      if code = argon2Ok then { evidence with matched := some (encoded, password) } else evidence
  | .redisCommand _ args => fun reply =>
      if args.head? = some (ascii "GET") then
        { evidence with read := (reply.filter fun reply => reply.type = .string).map RedisReply.str }
      else evidence
  | _ => fun _ => evidence

/-- The evidence of a login with this body: the row that the lookup answered and the match
of its password. -/
structure Evidence.Proves (evidence : Evidence) (body : AuthBody) (user : User) : Prop where
  row : ∃ result id hashed, evidence.lookup = some ([cStr body.username], result) ∧
    pqGetvalue result 0 0 = some id ∧ pqGetvalue result 0 2 = some hashed ∧
    evidence.matched = some (cStr hashed, body.password) ∧ user.id = cStr id
  username : user.username = trim body.username

/-- A session is written by a login on its evidence, under a key that was drawn. -/
def WritesSession (libraries : Libraries) (request : Endpoint × Exchange) (evidence : Evidence)
    (args : List Bytes) : Prop :=
  request.1 = .login ∧ ∃ body user sid,
    LoginAuthUseCase.parseBody libraries request.2.req = pure (.ok body) ∧
      evidence.Proves body user ∧ Spelt sid ∧
      args = [ascii "SET", storeKey sid, libraries.createUser user.id user.username]

/-- The Redis commands of a request with this evidence. -/
def StoreAccess (libraries : Libraries) (request : Endpoint × Exchange) (evidence : Evidence)
    (args : List Bytes) : Prop :=
  args.head? = some (ascii "EXISTS") ∨ args.head? = some (ascii "DEL") ∨
    (∃ sid, args = [ascii "GET", storeKey sid]) ∨ WritesSession libraries request evidence args

theorem StoreAccess.of_get {libraries : Libraries} {request : Endpoint × Exchange}
    {evidence : Evidence} {args : List Bytes}
    (access : StoreAccess libraries request evidence args) (get : args.head? = some (ascii "GET")) :
    ∃ sid, args = [ascii "GET", storeKey sid] := by
  rcases access with head | head | found | ⟨-, _, _, _, -, -, -, rfl⟩
  · rw [get] at head
    exact absurd head (by decide)
  · rw [get] at head
    exact absurd head (by decide)
  · exact found
  · exact absurd get (by simp only [List.head?_cons]; decide)

/-- The protocol of a request. -/
def evidenceProtocol (libraries : Libraries) (request : Endpoint × Exchange) :
    Protocol Command Command.Response Evidence where
  allows evidence
    | .redisCommand _ args => StoreAccess libraries request evidence args
    | command => command.PreparesOwn
  next := Evidence.next

/-- A call that adds no evidence. -/
def Command.IsSilent : Command → Prop
  | .pqExecPrepared _ _ nParams _ _ _ => nParams ≠ 1
  | .argon2idVerify _ _ => False
  | .redisCommand _ args => args.head? = some (ascii "EXISTS") ∨ args.head? = some (ascii "DEL")
  | command => command.PreparesOwn

section Protocol

variable {α : Type} {libraries : Libraries} {request : Endpoint × Exchange} {evidence : Evidence}
  {post : α → Prop} {program : Backend α}

theorem Command.IsSilent.allowed {command : Command} (silent : command.IsSilent) :
    (evidenceProtocol libraries request).allows evidence command := by
  cases command with
  | redisCommand => exact silent.imp_right .inl
  | argon2idVerify => exact silent.elim
  | pqExecPrepared => exact trivial
  | _ => exact silent

theorem Command.IsSilent.next {command : Command} (silent : command.IsSilent)
    (response : command.Response) :
    (evidenceProtocol libraries request).next evidence command response = evidence := by
  cases command with
  | redisCommand context args =>
      apply if_neg
      rcases silent with head | head
      · rw [head]
        decide
      · rw [head]
        decide
  | argon2idVerify => exact silent.elim
  | pqExecPrepared => exact if_neg silent
  | _ => rfl

/-- A silent program leaves the evidence as it is. -/
theorem follows_silent (within : Within Command.IsSilent post program) :
    Follows (evidenceProtocol libraries request)
      (fun value reached => post value ∧ reached = evidence) evidence program :=
  Within.follows within (fun _ silent => silent.allowed) fun _ response silent =>
    silent.next response

theorem OnSession.silent {verb : Bytes} (onSession : OnSession [verb] post program)
    (silent : verb = ascii "EXISTS" ∨ verb = ascii "DEL") : Within Command.IsSilent post program := by
  refine Within.mono onSession ?_ fun _ holds => holds
  intro command call
  cases command with
  | redisCommand context args =>
      obtain ⟨other, member, head⟩ := call
      obtain rfl := List.mem_singleton.mp member
      rcases silent with rfl | rfl
      · exact .inl head
      · exact .inr head
  | pqPrepare => exact call.elim
  | pqExecPrepared => exact call.elim
  | argon2idVerify => exact call.elim
  | _ => exact trivial

theorem silent_dereference (pointer : Option α) :
    Within Command.IsSilent (fun value => pointer = some value) (dereference pointer) := by
  refine (within_dereference pointer).mono ?_ fun _ found => found
  rintro command rfl
  exact trivial

theorem ignores_evidence {statement : PostgresStatement}
    (own : cStr statement.query = UserPostgres.getUserQuery) :
    Postgres.Ignores (evidenceProtocol libraries request) statement := by
  intro phase command upkeep
  have silent : command.IsSilent := by
    cases command with
    | pqPrepare => exact .inl (upkeep.trans own)
    | pqExecPrepared => exact upkeep.elim
    | argon2idVerify => exact upkeep.elim
    | redisCommand => exact upkeep.elim
    | _ => exact trivial
  exact ⟨silent.allowed, silent.next⟩

end Protocol

/-! ## Store commands -/

namespace RedisStore

variable {libraries : Libraries} {request : Endpoint × Exchange} {evidence : Evidence}

/-- A command of the store, with the evidence after its reply. -/
theorem follows_evidence {args : List Bytes} (access : StoreAccess libraries request evidence args) :
    Follows (evidenceProtocol libraries request)
      (fun reply reached => ∃ ctx, reached = evidence.next (.redisCommand ctx args) (some reply))
      evidence (command args) := by
  have taken : Within Command.IsSilent (fun _ => True) getContext :=
    (within_perform (by exact trivial)).bind fun _ _ => within_perform (by exact trivial)
  have released : ∀ ctx, Within Command.IsSilent (fun _ => True) (releaseContext ctx) := fun ctx =>
    (within_perform (by exact trivial)).bind fun _ _ => within_perform (by exact trivial)
  have sent : ∀ ctx, Follows (evidenceProtocol libraries request)
      (fun reply reached => reached = evidence.next (.redisCommand ctx args) reply) evidence
      (redisCommand ctx args) :=
    fun ctx => follows_perform access fun _ => rfl
  apply (follows_silent taken).bind
  intro ctx _ kept
  obtain rfl := kept.2
  apply (sent ctx).bind
  intro reply reached answered
  apply (follows_silent (released ctx)).bind
  intro _ _ kept
  obtain rfl := kept.2
  refine (follows_silent (silent_dereference reply)).mono ?_
  rintro value _ ⟨rfl, rfl⟩
  exact ⟨ctx, answered⟩

/-- A value that is returned is the last one that was read. -/
theorem follows_getEvidence (sid : Bytes) :
    Follows (evidenceProtocol libraries request)
      (fun answer reached => ∀ data, answer = .ok (some data) → reached.read = some data) evidence
      (getByteArrayImpl (storeKey sid)) := by
  apply (follows_evidence (.inr (.inr (.inl ⟨sid, rfl⟩)))).bind
  rintro reply _ ⟨ctx, rfl⟩
  apply (follows_silent (within_perform (by exact trivial))).bind
  rintro _ _ ⟨-, rfl⟩
  split
  · rename_i string
    apply follows_pure
    rintro data ⟨⟩
    simp [Evidence.next, string]
  · split
    · apply follows_pure
      rintro data ⟨⟩
    · apply follows_pure
      rintro data ⟨⟩

theorem follows_setEvidence {key value : Bytes}
    (access : StoreAccess libraries request evidence [ascii "SET", key, value]) :
    Follows (evidenceProtocol libraries request) (fun _ _ => True) evidence
      (setByteArrayImpl key value) := by
  apply (follows_evidence access).bind
  intro reply reached _
  apply (follows_silent (within_perform (by exact trivial))).bind
  intro _ _ _
  exact follows_pure trivial

end RedisStore

/-! ## Logins -/

/-- A program that can only read a null pointer is done if it goes on. -/
theorem pure_of_aborts {α : Type} {post : α → Prop} {program : Backend α}
    (aborts : Within (· = Command.nullDereference) post program) :
    Within (· = Command.nullDereference) (fun value => program = pure value) program := by
  cases program with
  | done value => exact rfl
  | call command next =>
      obtain rfl := aborts.1
      exact ⟨rfl, fun response => response.elim⟩

section Login

variable {app : Application} {name : Bytes} (built : app.userDb.Built name)
  {request : Endpoint × Exchange} {evidence : Evidence}

/-- The user of the row that the last lookup answered. -/
structure Evidence.Shows (evidence : Evidence) (username : Bytes) (user : User) : Prop where
  row : ∃ result id hashed, evidence.lookup = some ([cStr username], result) ∧
    pqGetvalue result 0 0 = some id ∧ pqGetvalue result 0 2 = some hashed ∧
    user.id = cStr id ∧ user.hashed = cStr hashed
  username : user.username = trim username

include built

theorem UserPostgres.follows_lookup (username : Bytes) :
    Follows (evidenceProtocol app.libraries request)
      (fun found reached => ∀ user, found.1 = .ok user → reached.Shows username user) evidence
      (app.userDb.getUserByUsernameImpl username) := by
  have one : toInt32 ([username].length : Int) = 1 := toInt32_of_bounds (by simp) (by simp)
  have executes : ∀ client (evidence : Evidence), True →
      Follows (evidenceProtocol app.libraries request)
        (fun result reached => reached.lookup = some ([cStr username], result)) evidence
        (Postgres.execPrepared client app.userDb.getUserStatement [username] getUserTypes) := by
    intro client evidence _
    refine follows_perform trivial fun result => ?_
    simp only [evidenceProtocol, Evidence.next, if_pos one]
    rfl
  apply (Postgres.follows_query (ignores_evidence built.getUserText) executes
    (fun _ _ _ _ => trivial) trivial).bind
  rintro (log | result) reached ⟨last, looked, told⟩
  · apply follows_pure
    rintro user ⟨⟩
  · obtain ⟨rfl, -⟩ := told
    simp only
    have cleared : ∀ result, Within Command.IsSilent (fun _ => True) (pqClear result) :=
      fun _ => within_perform trivial
    split
    · apply (follows_silent (cleared _)).bind
      rintro _ _ ⟨-, rfl⟩
      apply follows_pure
      rintro user ⟨⟩
    · apply (follows_silent (silent_dereference _)).bind
      rintro id _ ⟨idCell, rfl⟩
      apply (follows_silent (silent_dereference _)).bind
      rintro hashed _ ⟨hashedCell, rfl⟩
      apply (follows_silent (cleared _)).bind
      rintro _ _ ⟨-, rfl⟩
      apply follows_pure
      intro user made
      obtain ⟨-, rfl, -⟩ := makeUserWith_ok.mp (Prod.ext made rfl)
      exact ⟨⟨result, id, hashed, looked, idCell, hashedCell, rfl, rfl⟩, rfl⟩

omit built in
/-- A password that matches leaves the lookup as it is. -/
theorem User.follows_verifyPassword (user : User) (password : Bytes) :
    Follows (evidenceProtocol app.libraries request)
      (fun same reached => reached.lookup = evidence.lookup ∧
        (same = .ok true → reached.matched = some (cStr user.hashed, password))) evidence
      (user.verifyPassword app.libraries password) := by
  have verified : Follows (evidenceProtocol app.libraries request)
      (fun code reached => reached.lookup = evidence.lookup ∧
        (code = argon2Ok → reached.matched = some (cStr user.hashed, password))) evidence
      (argon2idVerify (cStr user.hashed) password) := by
    refine follows_perform trivial fun code => ?_
    simp only [evidenceProtocol, Evidence.next]
    split
    · exact ⟨rfl, fun _ => rfl⟩
    · rename_i other
      exact ⟨rfl, fun ok => absurd ok other⟩
  apply verified.bind
  rintro code reached ⟨lookup, matched⟩
  split
  · rename_i ok
    exact follows_pure ⟨lookup, fun _ => matched ok⟩
  · split
    · refine follows_pure ⟨lookup, ?_⟩
      rintro ⟨⟩
    · refine follows_pure ⟨lookup, ?_⟩
      rintro ⟨⟩

/-- A login goes on with a user that its evidence proves. -/
theorem LoginAuthUseCase.follows_checkUser (body : AuthBody) :
    Follows (evidenceProtocol app.libraries request)
      (fun found reached => ∀ user, found = some user → reached.Proves body user) evidence
      (LoginAuthUseCase.checkUser app body) := by
  apply (UserPostgres.follows_lookup built body.username).bind
  rintro ⟨found, _⟩ reached shows
  cases found with
  | error log =>
      apply follows_pure
      rintro user ⟨⟩
  | ok user =>
      obtain ⟨⟨result, id, hashed, looked, idCell, hashedCell, sameId, sameHash⟩, username⟩ :=
        shows user rfl
      apply (User.follows_verifyPassword user body.password).bind
      rintro same reached ⟨lookup, matched⟩
      split
      · apply follows_pure
        rintro _ ⟨⟩
        have match' := matched rfl
        rw [sameHash, cStr_cStr] at match'
        exact ⟨⟨result, id, hashed, lookup.trans looked, idCell, hashedCell, match', sameId⟩,
          username⟩
      · apply follows_pure
        rintro _ ⟨⟩

theorem LoginAuthUseCase.follows_authenticate (ex : Exchange) :
    Follows (evidenceProtocol app.libraries request)
      (fun found reached => ∀ user, found.1 = some user →
        ∃ body, LoginAuthUseCase.parseBody app.libraries ex.req = pure (.ok body) ∧
          reached.Proves body user) evidence
      (LoginAuthUseCase.authenticate app ex) := by
  apply (follows_silent ((onSession_isAuthImpl ex).silent (.inl rfl))).bind
  rintro ⟨auth, keyed⟩ _ ⟨renews, rfl⟩
  obtain ⟨sid, -, rfl⟩ := renews
  cases auth with
  | true =>
      apply follows_pure
      rintro user ⟨⟩
  | false =>
      have parsed : Within Command.IsSilent
          (fun body => LoginAuthUseCase.parseBody app.libraries ex.req = pure body)
          (LoginAuthUseCase.parseBody app.libraries ex.req) := by
        refine (pure_of_aborts (LoginAuthUseCase.within_parseBody _ _)).mono ?_ fun _ same => same
        rintro command rfl
        exact trivial
      apply (follows_silent parsed).bind
      rintro body _ ⟨read, rfl⟩
      cases body with
      | error log =>
          apply follows_pure
          rintro user ⟨⟩
      | ok body =>
          simp only
          split
          · apply follows_pure
            rintro user ⟨⟩
          · apply (LoginAuthUseCase.follows_checkUser built body).bind
            rintro (_ | user) reached proves
            · apply follows_pure
              rintro user ⟨⟩
            · apply follows_pure
              rintro _ ⟨⟩
              exact ⟨body, read, proves user rfl⟩

theorem LoginAuthUseCase.follows_evidence (rounds : Nat) (ex : Exchange) :
    Follows (evidenceProtocol app.libraries (.login, ex)) (fun _ _ => True) evidence
      (LoginAuthUseCase.execute app rounds ex) := by
  apply (LoginAuthUseCase.follows_authenticate built ex).bind
  rintro ⟨found, authenticated⟩ reached proves
  cases found with
  | none => exact follows_pure trivial
  | some user =>
      obtain ⟨body, parsed, proof⟩ := proves user rfl
      have written : Follows (evidenceProtocol app.libraries (.login, ex)) (fun _ _ => True) reached
          (setSessionUserImpl app.libraries rounds user authenticated) := by
        apply (follows_silent ((onSession_getNewSessionIdImpl rounds authenticated).silent
          (.inl rfl))).bind
        rintro ⟨sid, renewed⟩ _ ⟨⟨spelt, same⟩, kept⟩
        rw [kept]
        obtain rfl : renewed = authenticated.withSession sid := same
        have nonempty : (authenticated.withSession sid).req.sessionId ≠ [] := spelt.ne_nil
        simp only [getSessionKey_of_session nonempty]
        have access : StoreAccess app.libraries (.login, ex) reached
            [ascii "SET", storeKey sid, app.libraries.createUser user.id user.username] :=
          .inr (.inr (.inr ⟨rfl, body, user, sid, parsed, proof, spelt, rfl⟩))
        exact (RedisStore.follows_setEvidence access).bind fun _ _ _ => follows_pure trivial
      exact written.bind fun _ _ _ => follows_pure trivial

end Login

/-! ## The other endpoints -/

section Endpoints

variable {app : Application} {name : Bytes} {request : Endpoint × Exchange} {evidence : Evidence}

/-- The user of a session is the one of the value that was read. -/
theorem follows_readUser (ex : Exchange) :
    Follows (evidenceProtocol app.libraries request)
      (fun got reached => ∀ user, got.1 = some user → ∃ data id username,
        reached.read = some data ∧ app.libraries.userId data = some id ∧
          app.libraries.userUsername data = some username ∧
          user = { id := cStr id, username := cStr username }) evidence
      (getSessionUserImpl app.libraries ex) := by
  apply (follows_silent ((onSession_getSessionKey ex).silent (.inl rfl))).bind
  rintro ⟨key, keyed⟩ _ ⟨⟨named, -⟩, rfl⟩
  obtain rfl : key = sessionPrefix ++ keyed.req.sessionId := named
  apply (RedisStore.follows_getEvidence keyed.req.sessionId).bind
  intro answer reached read
  split
  · rename_i data
    have seen := read data rfl
    split
    · apply (follows_silent (silent_dereference _)).bind
      rintro id _ ⟨idField, rfl⟩
      apply (follows_silent (silent_dereference _)).bind
      rintro username _ ⟨usernameField, rfl⟩
      apply follows_pure
      rintro user ⟨⟩
      exact ⟨data, id, username, seen, idField, usernameField, rfl⟩
    · apply follows_pure
      rintro user ⟨⟩
  · apply follows_pure
    rintro user ⟨⟩

/-- A request for the user is answered 200 with the user of the value that it read. -/
def ShowsRead (libraries : Libraries) (ex : Exchange) (evidence : Evidence) : Prop :=
  ex.res.status = statusOk → ∃ data id username, evidence.read = some data ∧
    libraries.userId data = some id ∧ libraries.userUsername data = some username ∧
      libraries.jsonDump (userJson (cStr id) (cStr username)) = some ex.res.content

theorem UserAuthUseCase.follows_evidence (ex : Exchange) :
    Follows (evidenceProtocol app.libraries request) (ShowsRead app.libraries) evidence
      (UserAuthUseCase.execute app ex) := by
  have unauthorized : statusUnauthorized ≠ statusOk := by decide
  have internal : statusInternalServerError ≠ statusOk := by decide
  apply (follows_silent ((onSession_isAuthImpl ex).silent (.inl rfl))).bind
  rintro ⟨auth, keyed⟩ _ ⟨-, rfl⟩
  cases auth with
  | false => exact follows_pure fun ok => absurd ok unauthorized
  | true =>
      apply (follows_readUser keyed).bind
      rintro ⟨found, read⟩ reached shows
      cases found with
      | none => exact follows_pure fun ok => absurd ok internal
      | some user =>
          obtain ⟨data, id, username, seen, idField, usernameField, rfl⟩ := shows user rfl
          simp only
          split
          · exact ⟨trivial, fun response => response.elim⟩
          · rename_i dumped
            exact follows_pure fun _ => ⟨data, id, username, seen, idField, usernameField, dumped⟩

theorem LogoutAuthUseCase.follows_evidence (ex : Exchange) :
    Follows (evidenceProtocol app.libraries request) (fun _ _ => True) evidence
      (LogoutAuthUseCase.execute app ex) := by
  apply (follows_silent ((onSession_isAuthImpl ex).silent (.inl rfl))).bind
  rintro ⟨auth, keyed⟩ _ ⟨-, rfl⟩
  cases auth with
  | false => exact follows_pure trivial
  | true =>
      apply (follows_silent ((onSession_clearSessionUserImpl keyed).silent (.inr rfl))).bind
      rintro ⟨logout, cleared⟩ _ ⟨-, rfl⟩
      cases logout with
      | true => exact follows_pure trivial
      | false => exact (follows_readUser cleared).bind fun _ _ _ => follows_pure trivial

/-- An insertion has two parameters, so that it is no lookup. -/
theorem UserPostgres.Built.silent_addUserImpl (built : app.userDb.Built name) (user : User) :
    Within Command.IsSilent (fun _ => True) (app.userDb.addUserImpl user) := by
  have queried : Within Command.IsSilent (fun _ => True)
      (Postgres.query app.userDb.addUserStatement [user.username, user.hashed]
        UserPostgres.addUserTypes) := by
    refine (Postgres.within_query _ _ _).mono ?_ fun _ _ => trivial
    intro command call
    cases command with
    | pqExecPrepared =>
        obtain ⟨-, two, -⟩ := call
        intro one
        rw [one, toInt32_of_bounds (by simp) (by simp)] at two
        exact absurd two (by simp)
    | pqPrepare =>
        obtain ⟨-, rfl⟩ := call
        exact .inr built.addUserText
    | redisCommand => exact call.elim
    | argon2idVerify => exact call.elim
    | _ => exact trivial
  apply queried.bind
  intro answer _
  cases answer with
  | error log => exact within_pure trivial
  | ok result =>
      apply (silent_dereference _).bind
      intro _ _
      exact (within_perform (by exact trivial)).bind fun _ _ => within_pure trivial

theorem RegisterAuthUseCase.silent_addUser (built : app.userDb.Built name) (body : AuthBody)
    (ex : Exchange) :
    Within Command.IsSilent (fun _ => True) (RegisterAuthUseCase.addUser app body ex) := by
  unfold RegisterAuthUseCase.addUser
  split
  · exact within_pure trivial
  · split
    · exact within_pure trivial
    · rename_i user _
      have hashing : Within Command.IsSilent (fun _ => True)
          (user.hashPassword app.libraries app.crypto) := by
        refine (User.within_hashPassword _ _ _).mono ?_ fun _ _ => trivial
        rintro command rfl
        exact trivial
      apply hashing.bind
      rintro ⟨log, hashed⟩ _
      cases log with
      | some log => exact within_pure trivial
      | none =>
          apply (built.silent_addUserImpl hashed).bind
          intro added _
          cases added with
          | error log =>
              simp only
              split
              · exact within_pure trivial
              · exact within_pure trivial
          | ok id => exact within_pure trivial

theorem RegisterAuthUseCase.silent_execute (built : app.userDb.Built name) (ex : Exchange) :
    Within Command.IsSilent (fun _ => True) (RegisterAuthUseCase.execute app ex) := by
  apply ((onSession_isAuthImpl ex).silent (.inl rfl)).bind
  rintro ⟨auth, keyed⟩ _
  cases auth with
  | true => exact within_pure trivial
  | false =>
      simp only [Bool.false_eq_true, if_false]
      split
      · exact within_pure trivial
      · split
        · exact within_pure trivial
        · exact RegisterAuthUseCase.silent_addUser built _ keyed

theorem Endpoint.follows_evidence (built : app.userDb.Built name) (rounds : Nat)
    (request : Endpoint × Exchange) :
    Follows (evidenceProtocol app.libraries request)
      (fun ex reached => request.1 = .user → ShowsRead app.libraries ex reached) {}
      (request.1.handle app rounds request.2) := by
  obtain ⟨endpoint, ex⟩ := request
  cases endpoint with
  | user => exact (UserAuthUseCase.follows_evidence ex).mono fun _ _ shows _ => shows
  | login =>
      refine (LoginAuthUseCase.follows_evidence built rounds ex).mono fun _ _ _ => ?_
      rintro ⟨⟩
  | logout =>
      refine (LogoutAuthUseCase.follows_evidence ex).mono fun _ _ _ => ?_
      rintro ⟨⟩
  | register =>
      refine (follows_silent (RegisterAuthUseCase.silent_execute built ex)).mono fun _ _ _ => ?_
      rintro ⟨⟩

end Endpoints

/-! ## What the evidence is worth -/

/-- A backend whose lookups answer rows of the table, and whose verification accepts the
passwords that match a hash. -/
structure AuthenticatingBackend {σ : Type} (h : BackendHandler σ) (rows : σ → List UserRow)
    (view : σ → StoreMap) (prepared : σ → Nat → Bytes → Option Bytes)
    (Matches : Bytes → Bytes → Prop) : Prop
    extends InsertingBackend h rows view prepared, HealthyStore h view where
  looksUp : ∀ client name values lengths formats s result s', OwnTexts (prepared s) →
    h (.pqExecPrepared client name 1 values lengths formats) s = some (result, s') →
      ∀ id hashed, pqGetvalue result 0 0 = some id → pqGetvalue result 0 2 = some hashed →
        ∃ row ∈ rows s, paramValues values lengths formats = [row.username] ∧ row.id = id ∧
          row.password = hashed
  verifies : ∀ encoded password s s', h (.argon2idVerify encoded password) s = some (argon2Ok, s') →
    Matches encoded password

/-- A request is a login that was sent the password of a row, and the user is that of the
row. -/
structure Vouches (libraries : Libraries) (Matches : Bytes → Bytes → Prop) (rows : List UserRow)
    (request : Endpoint × Exchange) (user : User) : Prop where
  login : request.1 = .login
  proof : ∃ body, ∃ row ∈ rows,
    LoginAuthUseCase.parseBody libraries request.2.req = pure (.ok body) ∧
      row.username = cStr body.username ∧ Matches (cStr row.password) body.password ∧
      user.id = cStr row.id ∧ user.username = trim body.username

/-- The value of a session that some request vouches for. -/
def Issued {ι : Type} (libraries : Libraries) (Matches : Bytes → Bytes → Prop)
    (requests : ι → Endpoint × Exchange) (rows : List UserRow) (value : Bytes) : Prop :=
  ∃ j user, Vouches libraries Matches rows (requests j) user ∧
    value = libraries.createUser user.id user.username

/-- Evidence that holds of the table and of the values that were issued. -/
structure Evidence.Holds (Matches : Bytes → Bytes → Prop) (rows : List UserRow)
    (issued : Bytes → Prop) (evidence : Evidence) : Prop where
  looked : ∀ params result, evidence.lookup = some (params, result) → ∀ id hashed,
    pqGetvalue result 0 0 = some id → pqGetvalue result 0 2 = some hashed →
      ∃ row ∈ rows, params = [row.username] ∧ row.id = id ∧ row.password = hashed
  matched : ∀ encoded password, evidence.matched = some (encoded, password) →
    Matches encoded password
  read : ∀ value, evidence.read = some value → issued value

section Values

variable {ι : Type} {libraries : Libraries} {Matches : Bytes → Bytes → Prop}
  {requests : ι → Endpoint × Exchange} {rows more : List UserRow}

theorem Vouches.mono {request : Endpoint × Exchange} {user : User}
    (vouches : Vouches libraries Matches rows request user) (subset : rows ⊆ more) :
    Vouches libraries Matches more request user := by
  obtain ⟨login, body, row, member, proof⟩ := vouches
  exact ⟨login, body, row, subset member, proof⟩

theorem Issued.mono {value : Bytes} (issued : Issued libraries Matches requests rows value)
    (subset : rows ⊆ more) : Issued libraries Matches requests more value := by
  obtain ⟨j, user, vouches, same⟩ := issued
  exact ⟨j, user, vouches.mono subset, same⟩

theorem Evidence.Holds.mono {issued wider : Bytes → Prop} {evidence : Evidence}
    (holds : evidence.Holds Matches rows issued) (subset : rows ⊆ more)
    (widens : ∀ value, issued value → wider value) : evidence.Holds Matches more wider where
  looked params result seen id hashed idCell hashedCell := by
    obtain ⟨row, member, same⟩ := holds.looked params result seen id hashed idCell hashedCell
    exact ⟨row, subset member, same⟩
  matched := holds.matched
  read value seen := widens value (holds.read value seen)

/-- The evidence of a login is that its request was sent the password of a row. -/
theorem Evidence.Proves.vouches {issued : Bytes → Prop} {evidence : Evidence}
    {request : Endpoint × Exchange} {body : AuthBody} {user : User}
    (proves : evidence.Proves body user) (holds : evidence.Holds Matches rows issued)
    (login : request.1 = .login)
    (parsed : LoginAuthUseCase.parseBody libraries request.2.req = pure (.ok body)) :
    Vouches libraries Matches rows request user := by
  obtain ⟨result, id, hashed, looked, idCell, hashedCell, matched, sameId⟩ := proves.row
  obtain ⟨row, member, named, rfl, rfl⟩ := holds.looked _ _ looked id hashed idCell hashedCell
  obtain ⟨sameName, -⟩ := List.cons.inj named
  exact ⟨login, body, row, member, parsed, sameName.symm, holds.matched _ _ matched, sameId,
    proves.username⟩

end Values

theorem storeKey_eq_append (sid : Bytes) : storeKey sid = sessionPrefix ++ cStr sid :=
  List.takeWhile_append_of_pos (by decide +kernel)

/-- A command that is no `SET` adds no value. -/
theorem of_redisMap {args : List Bytes} {m : StoreMap} {key value : Bytes}
    (other : args.head? ≠ some (ascii "SET")) (held : redisMap args m key = some value) :
    m key = some value := by
  unfold redisMap at held
  split at held
  · split at held
    · rename_i name deleted _
      by_cases same : key = deleted
      · rw [same, Function.update_self] at held
        cases held
      · rwa [Function.update_of_ne same] at held
    · exact held
  · split at held
    · rename_i set
      exact absurd (congrArg some set) other
    · exact held
  · exact held

theorem preparesOwn_of_allowed {libraries : Libraries} {request : Endpoint × Exchange}
    {evidence : Evidence} {command : Command}
    (allowed : (evidenceProtocol libraries request).allows evidence command) :
    command.PreparesOwn := by
  cases command with
  | pqPrepare => exact allowed
  | _ => trivial

/-- No row is ever changed or removed. -/
theorem InsertingBackend.rows_subset {σ : Type} {h : BackendHandler σ} {rows : σ → List UserRow}
    {store : σ → StoreMap} {prepared : σ → Nat → Bytes → Option Bytes}
    (inserting : InsertingBackend h rows store prepared) {command : Command}
    (own : command.PreparesOwn) {s s' : σ} {response : command.Response}
    (texts : OwnTexts (prepared s)) (answered : h command s = some (response, s')) :
    rows s ⊆ rows s' := by
  by_cases none : command.AddsNoRow
  · rw [inserting.table_of_addsNoRow none texts answered]
    exact List.Subset.refl _
  · cases command with
    | pqExecPrepared client name nParams values lengths formats =>
        obtain rfl : nParams = 2 := by_contra fun other => none ⟨trivial, other⟩
        obtain ⟨answer, rfl, inserts⟩ := inserting.inserts _ _ _ _ _ _ _ _ texts answered
        generalize rows s' = after at inserts
        cases inserts with
        | refused => exact List.Subset.refl _
        | added => exact List.subset_append_left _ _
    | pqPrepare => exact absurd ⟨own, trivial⟩ none
    | _ => exact absurd ⟨trivial, trivial⟩ none

namespace AuthenticatingBackend

variable {σ ι : Type} {h : BackendHandler σ} {rows : σ → List UserRow} {view : σ → StoreMap}
  {prepared : σ → Nat → Bytes → Option Bytes} {Matches : Bytes → Bytes → Prop}
  (authenticating : AuthenticatingBackend h rows view prepared Matches) {libraries : Libraries}
  {request : Endpoint × Exchange} {evidence : Evidence} {issued : Bytes → Prop}
  {command : Command} {response : command.Response} {s s' : σ}

include authenticating

theorem holds_next
    (allowed : (evidenceProtocol libraries request).allows evidence command)
    (texts : OwnTexts (prepared s)) (holds : evidence.Holds Matches (rows s) issued)
    (sessions : ∀ sid value, view s (sessionPrefix ++ sid) = some value → issued value)
    (answered : h command s = some (response, s')) :
    (evidence.next command response).Holds Matches (rows s) issued := by
  cases command with
  | pqExecPrepared client name nParams values lengths formats =>
      simp only [Evidence.next]
      split
      · rename_i one
        subst one
        refine ⟨?_, ?_, holds.read⟩
        · rintro params result ⟨⟩
          exact authenticating.looksUp _ _ _ _ _ _ _ _ texts answered
        · rintro encoded password ⟨⟩
      · exact holds
  | argon2idVerify encoded password =>
      simp only [Evidence.next]
      split
      · rename_i ok
        subst ok
        refine ⟨holds.looked, ?_, holds.read⟩
        rintro _ _ ⟨⟩
        exact authenticating.verifies _ _ _ _ answered
      · exact holds
  | redisCommand context args =>
      simp only [Evidence.next]
      split
      · rename_i get
        refine ⟨holds.looked, holds.matched, ?_⟩
        intro value seen
        obtain ⟨sid, rfl⟩ := allowed.of_get get
        obtain ⟨handle, rfl, -⟩ := authenticating.toHealthyStore.of_redisCommand answered
        rw [redisReply_get, storeKey_eq_append] at seen
        split at seen
        · cases seen
        · rename_i found
          cases seen
          exact sessions _ _ found
      · exact holds
  | _ => exact holds

/-- A session that is in the store after a call was there before, or was written on the
evidence of a login. -/
theorem session_of_call
    (allowed : (evidenceProtocol libraries request).allows evidence command)
    (answered : h command s = some (response, s')) {sid value : Bytes}
    (held : view s' (sessionPrefix ++ sid) = some value) :
    view s (sessionPrefix ++ sid) = some value ∨
      request.1 = .login ∧ Spelt sid ∧ ∃ body user,
        LoginAuthUseCase.parseBody libraries request.2.req = pure (.ok body) ∧
          evidence.Proves body user ∧ value = libraries.createUser user.id user.username := by
  by_cases redis : command.IsRedisCommand
  · cases command with
    | redisCommand context args =>
        obtain ⟨handle, -, after⟩ := authenticating.toHealthyStore.of_redisCommand answered
        rw [after] at held
        rcases allowed with head | head | ⟨key, rfl⟩ | ⟨login, body, user, drawn, parsed, proves, spelt, rfl⟩
        · exact .inl (of_redisMap (by rw [head]; decide) held)
        · exact .inl (of_redisMap (by rw [head]; decide) held)
        · exact .inl (of_redisMap (by simp only [List.head?_cons]; decide) held)
        · rw [redisMap_set, storeKey_eq spelt.zero_notMem] at held
          by_cases same : sid = drawn
          · subst same
            rw [Function.update_self] at held
            exact .inr ⟨login, spelt, body, user, parsed, proves, (Option.some.inj held).symm⟩
          · rw [Function.update_of_ne (fun equal => same (List.append_cancel_left equal))] at held
            exact .inl held
    | _ => exact redis.elim
  · rw [authenticating.toHealthyStore.frame command s response s' redis answered] at held
    exact .inl held

end AuthenticatingBackend

/-! ## Interleavings -/

/-- All evidence holds, and every session in the store was issued. -/
structure Authenticated {ι : Type} (libraries : Libraries) (Matches : Bytes → Bytes → Prop)
    (requests : ι → Endpoint × Exchange) (evidence : ι → Evidence) (rows : List UserRow)
    (m : StoreMap) : Prop where
  holds : ∀ i, (evidence i).Holds Matches rows (Issued libraries Matches requests rows)
  sessions : ∀ sid value, m (sessionPrefix ++ sid) = some value →
    Spelt sid ∧ Issued libraries Matches requests rows value

/-- Threads without evidence and a store without sessions. -/
theorem authenticated_start {ι : Type} {libraries : Libraries} {Matches : Bytes → Bytes → Prop}
    {requests : ι → Endpoint × Exchange} {rows : List UserRow} {m : StoreMap}
    (noSessions : ∀ sid, m (sessionPrefix ++ sid) = none) :
    Authenticated libraries Matches requests (fun _ => {}) rows m := by
  refine ⟨fun _ => ⟨?_, ?_, ?_⟩, ?_⟩
  · rintro params result ⟨⟩
  · rintro encoded password ⟨⟩
  · rintro value ⟨⟩
  · intro sid value held
    rw [noSessions] at held
    cases held

namespace AuthenticatingBackend

variable {σ ι : Type} {h : BackendHandler σ} {rows : σ → List UserRow} {view : σ → StoreMap}
  {prepared : σ → Nat → Bytes → Option Bytes} {Matches : Bytes → Bytes → Prop}
  (authenticating : AuthenticatingBackend h rows view prepared Matches) {libraries : Libraries}
  {requests : ι → Endpoint × Exchange}

/-- The requests before their first calls. -/
def threads (app : Application) (rounds : Nat) (requests : ι → Endpoint × Exchange) (start : σ) :
    Threads Command Command.Response Exchange Evidence σ ι where
  programs i := (requests i).1.handle app rounds (requests i).2
  phases _ := {}
  shared := start

variable [DecidableEq ι]

include authenticating

theorem step {evidence : ι → Evidence} {i : ι} {command : Command} {response : command.Response}
    {s s' : σ}
    (allowed : (evidenceProtocol libraries (requests i)).allows (evidence i) command)
    (texts : OwnTexts (prepared s))
    (authenticated : Authenticated libraries Matches requests evidence (rows s) (view s))
    (answered : h command s = some (response, s')) :
    OwnTexts (prepared s') ∧
      Authenticated libraries Matches requests
        (Function.update evidence i ((evidenceProtocol libraries (requests i)).next (evidence i)
          command response)) (rows s') (view s') := by
  have own := preparesOwn_of_allowed allowed
  have subset := authenticating.toInsertingBackend.rows_subset own texts answered
  refine ⟨authenticating.ownTexts_of_call own answered texts, ?_, ?_⟩
  · apply (Function.forall_update_iff evidence fun _ known => known.Holds Matches (rows s')
      (Issued libraries Matches requests (rows s'))).mpr
    have issued := fun sid value held => (authenticated.sessions sid value held).2
    exact ⟨(authenticating.holds_next allowed texts (authenticated.holds i) issued answered).mono
        subset fun _ known => known.mono subset,
      fun j _ => (authenticated.holds j).mono subset fun _ known => known.mono subset⟩
  · intro sid value held
    rcases authenticating.session_of_call allowed answered held with
      before | ⟨login, spelt, body, user, parsed, proves, same⟩
    · obtain ⟨spelt, issued⟩ := authenticated.sessions sid value before
      exact ⟨spelt, issued.mono subset⟩
    · have vouches := proves.vouches (authenticated.holds i) login parsed
      exact ⟨spelt, i, user, vouches.mono subset, same⟩

/-- Sessions and passwords.  In every interleaving of requests from a store without
sessions, each session in the store has an id that the random source can spell and the user of
a login that was sent the password of a row whose username is the one of its body up to the
first NUL, and each user that a request is answered 200 with is the user of such a login. -/
theorem sessions_authenticated {app : Application} {pg : Postgres}
    (constructed : UserPostgres.construct pg = .ok app.userDb)
    (lawful : LawfulLibraries app.libraries) (rounds : Nat) {start : σ}
    (fresh : ∀ client name, prepared start client name = none)
    (noSessions : ∀ sid, view start (sessionPrefix ++ sid) = none) {schedule : List ι}
    {turns : List (Turn Command Command.Response Exchange Evidence σ ι)}
    {last : Threads Command Command.Response Exchange Evidence σ ι}
    (ran : (interleaving (fun i => evidenceProtocol app.libraries (requests i)) h).run
      (threads app rounds requests start) schedule = .ok (last, turns)) :
    (∀ sid value, view last.shared (sessionPrefix ++ sid) = some value →
        Spelt sid ∧ Issued app.libraries Matches requests (rows last.shared) value) ∧
      ∀ i ex, (requests i).1 = .user → last.programs i = .done ex → ex.res.status = statusOk →
        ∃ j user, Vouches app.libraries Matches (rows last.shared) (requests j) user ∧
          app.libraries.jsonDump (userJson user.id (cStr user.username)) = some ex.res.content := by
  have built := UserPostgres.built_of_construct constructed
  have follows : (threads app rounds requests start).Follow
      (fun i => evidenceProtocol app.libraries (requests i))
      fun i ex reached => (requests i).1 = .user → ShowsRead app.libraries ex reached :=
    fun i => Endpoint.follows_evidence built rounds (requests i)
  obtain ⟨follow, -, authenticated⟩ := Threads.invariant_of_run
    (fun evidence s => OwnTexts (prepared s) ∧
      Authenticated app.libraries Matches requests evidence (rows s) (view s))
    (fun _ => True)
    (fun s i command response shared allowed _ held answered =>
      authenticating.step allowed held.1 held.2 answered)
    follows ⟨ownTexts_of_fresh fresh, authenticated_start noSessions⟩ ran fun _ _ => trivial
  refine ⟨authenticated.sessions, fun i ex isUser finished ok => ?_⟩
  obtain ⟨data, id, username, read, idField, usernameField, dumped⟩ :=
    follow.post_of_done finished isUser ok
  obtain ⟨j, user, vouches, rfl⟩ := (authenticated.holds i).read data read
  rw [lawful.user_id] at idField
  rw [lawful.user_username] at usernameField
  cases idField
  cases usernameField
  refine ⟨j, user, vouches, ?_⟩
  obtain ⟨-, body, row, -, -, -, -, sameId, -⟩ := vouches
  rwa [sameId, cStr_cStr, ← sameId] at dumped

end AuthenticatingBackend

/-! ## The world -/

theorem looksUp_usersEngine (newId : List UserRow → Bytes) {params : List Bytes}
    {rows : List UserRow} {id hashed : Bytes}
    (idCell : pqGetvalue
      (some ((usersEngine newId).execute UserPostgres.getUserQuery params rows).1) 0 0 = some id)
    (hashedCell : pqGetvalue
      (some ((usersEngine newId).execute UserPostgres.getUserQuery params rows).1) 0 2 =
        some hashed) :
    ∃ row ∈ rows, params = [row.username] ∧ row.id = id ∧ row.password = hashed := by
  simp only [usersEngine, if_neg UserPostgres.addUserQuery_ne.symm, if_true] at idCell hashedCell
  split at idCell
  · dsimp only at hashedCell
    cases found : findRow rows _ with
    | none =>
        rw [found] at idCell
        cases idCell
    | some row =>
        rw [found] at idCell hashedCell
        cases idCell
        cases hashedCell
        obtain ⟨member, named⟩ := World.of_findRow found
        exact ⟨row, member, by rw [named], rfl, rfl⟩
  · cases idCell
  · cases idCell

theorem World.authenticating (env : Environment) :
    AuthenticatingBackend (World.handler env) (fun w => w.postgres.tables) World.store
      (fun w => w.postgres.prepared) fun encoded password => env.verify encoded password = argon2Ok where
  toInsertingBackend := World.inserting env
  toHealthyStore := World.healthy env
  looksUp client name values lengths formats w result w' _ answered id hashed idCell hashedCell := by
    cases answered
    simp only [PgServer.execPrepared] at idCell hashedCell
    cases found : w.postgres.prepared client name with
    | none =>
        rw [found] at idCell
        cases idCell
    | some text =>
        rw [found] at idCell hashedCell
        simp only at idCell hashedCell
        split at idCell
        · rename_i arity
          obtain rfl := (usersEngine_parameters_eq_one env.newId).mp arity.symm
          rw [if_pos arity] at hashedCell
          exact looksUp_usersEngine env.newId idCell hashedCell
        · cases idCell
  verifies encoded password w w' answered := (Prod.mk.inj (Option.some.inj answered)).1

/-- A login, and a request with the session id that it is about to be issued. -/
def loginAndUser : Bool → Endpoint × Exchange
  | false => (.login, sampleExchange (ascii "username") (ascii "password"))
  | true => (.user, { req := { sessionId := spellId fun _ => 1 } })

/-- The request is answered before the login, but after the session was written. -/
theorem sessions_authenticated_sample : ∃ last turns ex j user,
    (interleaving (fun i : Bool => evidenceProtocol sampleLibraries (loginAndUser i))
        (World.handler sampleEnvironment)).run
        (AuthenticatingBackend.threads sampleApplication 1 loginAndUser (sampleWorld [sampleRow]))
        (List.replicate 28 false ++ List.replicate 12 true) = .ok (last, turns) ∧
      last.programs true = .done ex ∧
      Vouches sampleLibraries (fun encoded password =>
          sampleEnvironment.verify encoded password = argon2Ok) last.shared.postgres.tables
        (loginAndUser j) user ∧
      sampleLibraries.jsonDump (userJson user.id (cStr user.username)) = some ex.res.content := by
  have ran : ((interleaving (fun i : Bool => evidenceProtocol sampleLibraries (loginAndUser i))
        (World.handler sampleEnvironment)).run
        (AuthenticatingBackend.threads sampleApplication 1 loginAndUser (sampleWorld [sampleRow]))
        (List.replicate 28 false ++ List.replicate 12 true)).map
      (fun ended => (answerOf ended.1 true).map Prod.fst) = .ok (some statusOk) := by
    decide +kernel
  obtain ⟨last, turns, ended, shown⟩ := EventMachine.exists_of_view ran
  obtain ⟨⟨status, content⟩, answered, ok⟩ := Option.map_eq_some_iff.mp shown
  obtain ⟨ex, finished, same, -⟩ := of_answerOf answered
  obtain ⟨-, users⟩ := (World.authenticating sampleEnvironment).sessions_authenticated
    construct_sampleUserDb lawful_sampleLibraries 1 (fun _ _ => rfl) (fun _ => rfl) ended
  obtain ⟨j, user, vouches, dumped⟩ := users true ex rfl finished (same.trans ok)
  exact ⟨last, turns, ex, j, user, ended, finished, vouches, dumped⟩

end CleanArchitecture
