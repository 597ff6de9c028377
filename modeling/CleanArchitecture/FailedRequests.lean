import CleanArchitecture.CommandProtocol
import CleanArchitecture.SessionAuthenticity
import CleanArchitecture.SessionFrame

/-!
# Failed requests change nothing

A call that reports failure has no effect.  The phase of a request is whether it
is still untouched, that is whether every call so far left the users table and the
session store alone.  Every endpoint either ends untouched or answers 2xx.
-/

namespace CleanArchitecture

open Program Backend WrapperRequest WrapperResponse

/-! ## Effects of calls -/

/-- The result of an execution that failed, by its status or by its message. -/
def ReportsFailure (result : Option PgResult) : Prop :=
  pqResultStatus result = .fatalError ∨ cStr (pqResultErrorMessage result) ≠ []

/-- The reply to a Redis command that changed nothing: a read, a failed command or
a deletion that counts no key. -/
def KeepsStore (args : List Bytes) : Option RedisReply → Prop
  | none => True
  | some reply =>
      args.head? = some (ascii "EXISTS") ∨ args.head? = some (ascii "GET") ∨
        reply.type = .error ∨
        args.head? = some (ascii "DEL") ∧ ¬ (reply.type = .integer ∧ 0 < reply.integer)

/-- Calls that report failure have no effect.  A name on a connection stands for no
text but one that was prepared; the lookup changes no table, and no name is executed
with another number of parameters than its text has. -/
structure TruthfulBackend {σ τ : Type} (h : BackendHandler σ) (table : σ → τ)
    (store : σ → StoreMap) (prepared : σ → Nat → Bytes → Option Bytes) : Prop where
  quiet : ∀ command s response s', command.IsQuiet → h command s = some (response, s') →
    table s' = table s ∧ store s' = store s ∧ prepared s' = prepared s
  redis : ∀ context args s reply s', h (.redisCommand context args) s = some (reply, s') →
    table s' = table s ∧ prepared s' = prepared s ∧ (KeepsStore args reply → store s' = store s)
  prepare : ∀ client name text nParams types s result s',
    h (.pqPrepare client name text nParams types) s = some (result, s') →
      table s' = table s ∧ store s' = store s ∧
        ∀ c n t, prepared s' c n = some t → prepared s c n = some t ∨ t = text
  execute : ∀ client name nParams values lengths formats s result s',
    h (.pqExecPrepared client name nParams values lengths formats) s = some (result, s') →
      store s' = store s ∧ prepared s' = prepared s ∧
        (ReportsFailure result ∨ prepared s client name = none ∨
          prepared s client name = some UserPostgres.getUserQuery ∨
          prepared s client name = some UserPostgres.addUserQuery ∧ nParams ≠ 2 →
            table s' = table s)

/-! ## The protocol of effects -/

/-- Only the two texts of the users table are prepared. -/
def Command.PreparesOwn : Command → Prop
  | .pqPrepare _ _ text _ _ => text = UserPostgres.getUserQuery ∨ text = UserPostgres.addUserQuery
  | _ => True

/-- A response after which the table and the store are as before the command. -/
def Command.Keeps : (command : Command) → command.Response → Prop
  | .redisCommand _ args, reply => KeepsStore args reply
  | .pqExecPrepared _ _ nParams _ _ _, result => nParams = 2 → ReportsFailure result
  | _, _ => True

/-- The phase is whether every command so far kept the table and the store. -/
def effects : Protocol Command Command.Response Prop where
  allows _ command := command.PreparesOwn
  next untouched command response := untouched ∧ command.Keeps response

section Soundness

variable {σ τ : Type} {h : BackendHandler σ} {table : σ → τ} {store : σ → StoreMap}
  {prepared : σ → Nat → Bytes → Option Bytes}

/-- Every name on a connection stands for a text of the users table. -/
def OwnTexts (prepared : Nat → Bytes → Option Bytes) : Prop :=
  ∀ client name text, prepared client name = some text →
    text = UserPostgres.getUserQuery ∨ text = UserPostgres.addUserQuery

theorem TruthfulBackend.ownTexts_of_call (truthful : TruthfulBackend h table store prepared)
    {command : Command} (own : command.PreparesOwn) {s s' : σ} {response : command.Response}
    (answered : h command s = some (response, s')) (texts : OwnTexts (prepared s)) :
    OwnTexts (prepared s') := by
  by_cases quiet : command.IsQuiet
  · rwa [(truthful.quiet command s response s' quiet answered).2.2]
  · cases command with
    | redisCommand => rwa [(truthful.redis _ _ _ _ _ answered).2.1]
    | pqExecPrepared => rwa [(truthful.execute _ _ _ _ _ _ _ _ _ answered).2.1]
    | pqPrepare client name text nParams types =>
        intro c n t present
        rcases (truthful.prepare _ _ _ _ _ _ _ _ answered).2.2 c n t present with before | rfl
        · exact texts c n t before
        · exact own
    | _ => exact absurd trivial quiet

/-- A call whose response tells of no effect has none. -/
theorem TruthfulBackend.unchanged_of_call (truthful : TruthfulBackend h table store prepared)
    {command : Command} {s s' : σ} {response : command.Response} (texts : OwnTexts (prepared s))
    (answered : h command s = some (response, s')) (keeps : command.Keeps response) :
    table s' = table s ∧ store s' = store s := by
  by_cases quiet : command.IsQuiet
  · have same := truthful.quiet command s response s' quiet answered
    exact ⟨same.1, same.2.1⟩
  · cases command with
    | redisCommand =>
        have answer := truthful.redis _ _ _ _ _ answered
        exact ⟨answer.1, answer.2.2 keeps⟩
    | pqPrepare =>
        have answer := truthful.prepare _ _ _ _ _ _ _ _ answered
        exact ⟨answer.1, answer.2.1⟩
    | pqExecPrepared client name nParams values lengths formats =>
        have answer := truthful.execute _ _ _ _ _ _ _ _ _ answered
        refine ⟨answer.2.2 ?_, answer.1⟩
        by_cases two : nParams = 2
        · exact .inl (keeps two)
        · cases found : prepared s client name with
          | none => exact .inr (.inl rfl)
          | some text =>
              rcases texts client name text found with rfl | rfl
              · exact .inr (.inr (.inl rfl))
              · exact .inr (.inr (.inr ⟨rfl, two⟩))
    | _ => exact absurd trivial quiet

/-- A program that ends untouched changed neither the table nor the store. -/
theorem TruthfulBackend.unchanged_of_run (truthful : TruthfulBackend h table store prepared)
    {α : Type} {post : α → Prop → Prop} {program : Backend α}
    (follows : Follows effects post True program) {s last : σ} {result : α}
    (texts : OwnTexts (prepared s)) (ran : run h program s = some (result, last)) :
    OwnTexts (prepared last) ∧
      ∃ untouched, (untouched → table last = table s ∧ store last = store s) ∧
        post result untouched := by
  have kept : ∀ untouched command s₁ response s₂, effects.allows untouched command →
      (OwnTexts (prepared s₁) ∧ (untouched → table s₁ = table s ∧ store s₁ = store s)) →
      h command s₁ = some (response, s₂) →
      OwnTexts (prepared s₂) ∧
        (effects.next untouched command response → table s₂ = table s ∧ store s₂ = store s) := by
    rintro untouched command s₁ response s₂ allowed ⟨own, same⟩ answered
    refine ⟨truthful.ownTexts_of_call allowed answered own, ?_⟩
    rintro ⟨before, keeps⟩
    have step := truthful.unchanged_of_call own answered keeps
    exact ⟨step.1.trans (same before).1, step.2.trans (same before).2⟩
  obtain ⟨untouched, ⟨own, same⟩, holds⟩ := follows.of_run
    (fun untouched s' => OwnTexts (prepared s') ∧
      (untouched → table s' = table s ∧ store s' = store s)) kept ⟨texts, fun _ => ⟨rfl, rfl⟩⟩ ran
  exact ⟨own, untouched, same, holds⟩

end Soundness

/-! ## Programs that leave everything alone -/

/-- A call that has no effect whatever its response. -/
def Command.IsHarmless (command : Command) : Prop :=
  command.PreparesOwn ∧ ∀ response, command.Keeps response

abbrev Harmless {α : Type} (post : α → Prop) (program : Backend α) : Prop :=
  Within Command.IsHarmless post program

variable {α : Type} {post : α → Prop} {program : Backend α} {untouched : Prop}

theorem Harmless.follows (harmless : Harmless post program) :
    Follows effects (fun value reached => post value ∧ reached = untouched) untouched program := by
  refine Within.follows harmless (fun _ call => call.1) ?_
  intro command response call
  exact propext (and_iff_left (call.2 response))

/-- A program that prepares only the texts of the users table. -/
theorem follows_of_preparesOwn (within : Within Command.PreparesOwn post program) :
    Follows effects (fun value _ => post value) untouched program := by
  induction program generalizing untouched with
  | done value => exact within
  | call command rest ih => exact ⟨within.1, fun response => ih response (within.2 response)⟩

theorem harmless_call {command : Command} (harmless : command.IsHarmless) :
    Harmless (fun _ => True) (perform command) :=
  within_perform harmless

theorem harmless_dereference {α : Type} (pointer : Option α) :
    Harmless (fun _ => True) (dereference pointer) := by
  refine (within_dereference pointer).mono ?_ fun _ _ => trivial
  rintro command rfl
  exact ⟨trivial, fun response => response.elim⟩

theorem OnSession.preparesOwn {verbs : List Bytes} (onSession : OnSession verbs post program) :
    Within Command.PreparesOwn post program := by
  refine Within.mono onSession ?_ fun _ holds => holds
  intro command call
  cases command with
  | pqPrepare => exact call.elim
  | _ => trivial

theorem OnSession.harmless {verb : Bytes} (onSession : OnSession [verb] post program)
    (reads : verb = ascii "EXISTS" ∨ verb = ascii "GET") : Harmless post program := by
  refine Within.mono onSession ?_ fun _ holds => holds
  intro command call
  cases command with
  | redisCommand context args =>
      obtain ⟨other, member, first⟩ := call
      obtain rfl := List.mem_singleton.mp member
      refine ⟨trivial, fun reply => ?_⟩
      cases reply with
      | none => trivial
      | some reply =>
          rcases reads with rfl | rfl
          · exact .inl first
          · exact .inr (.inl first)
  | pqPrepare => exact call.elim
  | pqExecPrepared => exact call.elim
  | _ => exact ⟨trivial, fun _ => trivial⟩

/-! ## Queries -/

namespace UserPostgres

variable {userDb : UserPostgres} {name : Bytes} (built : userDb.Built name)

include built

/-- A lookup has one parameter, so that it adds no row whatever its name stands for. -/
theorem Built.harmless_getUserByUsernameImpl (username : Bytes) :
    Harmless (fun _ => True) (userDb.getUserByUsernameImpl username) := by
  have queried : Harmless (fun _ => True)
      (Postgres.query userDb.getUserStatement [username] getUserTypes) := by
    refine (Postgres.within_query _ _ _).mono ?_ fun _ _ => trivial
    intro command call
    cases command with
    | pqExecPrepared =>
        obtain ⟨-, one, -⟩ := call
        refine ⟨trivial, fun result two => ?_⟩
        rw [two, List.length_singleton, toInt32_of_bounds (by omega) (by omega)] at one
        omega
    | pqPrepare =>
        obtain ⟨-, rfl⟩ := call
        exact ⟨.inl built.getUserText, fun _ => trivial⟩
    | redisCommand => exact call.elim
    | _ => exact ⟨trivial, fun _ => trivial⟩
  have cleared : ∀ result, Harmless (fun _ => True) (pqClear result) := fun _ =>
    harmless_call ⟨trivial, fun _ => trivial⟩
  apply queried.bind
  intro answer _
  cases answer with
  | error log => exact within_pure trivial
  | ok result =>
      simp only
      split
      · exact (cleared result).bind fun _ _ => within_pure trivial
      · refine (harmless_dereference _).bind fun _ _ => (harmless_dereference _).bind fun _ _ => ?_
        exact (cleared result).bind fun _ _ => within_pure trivial

/-- A result that reports failure leaves the users table untouched if it was so
before. -/
abbrev FailsUntouched (untouched : Prop) (result : Option PgResult) (reached : Prop) : Prop :=
  ReportsFailure result → untouched → reached

omit built in
theorem follows_execPrepared (client : Nat) (values : List Bytes) {phase : Prop}
    (same : untouched → phase) :
    Follows effects (FailsUntouched untouched) phase
      (Postgres.execPrepared client userDb.addUserStatement values addUserTypes) :=
  follows_perform trivial fun _ failed before => ⟨same before, fun _ => failed⟩

/-- Every attempt to add a row that reports failure left the table alone. -/
theorem Built.follows_attempts (client : Nat) (values : List Bytes) :
    Follows effects (FailsUntouched untouched) untouched
      (Postgres.attempts client userDb.addUserStatement values addUserTypes) := by
  have cleared : ∀ result, Harmless (fun _ => True) (pqClear result) := fun _ =>
    harmless_call ⟨trivial, fun _ => trivial⟩
  have bound : Harmless (fun _ => True) (pqPrepare client (cStr userDb.addUserStatement.name)
      (cStr userDb.addUserStatement.query) (toInt32 userDb.addUserStatement.numParams)
      userDb.addUserStatement.paramTypes) :=
    harmless_call ⟨.inr built.addUserText, fun _ => trivial⟩
  apply (follows_execPrepared client values id).bind
  intro first reached failing
  split
  · rename_i fatal
    have same : untouched → reached := failing (.inl fatal)
    apply bound.follows.bind
    intro rtmp _ kept
    obtain rfl := kept.2
    split
    · apply (cleared first).follows.bind
      intro _ _ kept
      obtain rfl := kept.2
      apply (follows_execPrepared client values same).bind
      intro second reached failing
      apply (cleared rtmp).follows.bind
      intro _ _ kept
      obtain rfl := kept.2
      exact follows_pure failing
    · apply (cleared rtmp).follows.bind
      intro _ _ kept
      obtain rfl := kept.2
      exact follows_pure fun _ => same
  · exact follows_pure failing

/-- An insertion that is answered with an error left the table alone. -/
theorem Built.follows_addUserImpl (user : User) :
    Follows effects (fun answer reached => ∀ log, answer = .error log → untouched → reached)
      untouched (userDb.addUserImpl user) := by
  have taken : Harmless (fun _ => True) Postgres.getClient :=
    (harmless_call (by exact ⟨trivial, fun _ => trivial⟩)).bind fun _ _ =>
      harmless_call (by exact ⟨trivial, fun _ => trivial⟩)
  have released : ∀ client, Harmless (fun _ => True) (Postgres.releaseClient client) := fun client =>
    (harmless_call (by exact ⟨trivial, fun _ => trivial⟩)).bind fun _ _ =>
      harmless_call (by exact ⟨trivial, fun _ => trivial⟩)
  have cleared : ∀ result, Harmless (fun _ => True) (pqClear result) := fun _ =>
    harmless_call ⟨trivial, fun _ => trivial⟩
  have served : Follows effects (FailsUntouched untouched) untouched
      (Postgres.queryWithFallback userDb.addUserStatement [user.username, user.hashed]
        addUserTypes) := by
    apply taken.follows.bind
    intro client _ kept
    obtain rfl := kept.2
    apply (built.follows_attempts client _).bind
    intro result reached failing
    apply (released client).follows.bind
    intro _ _ kept
    obtain rfl := kept.2
    exact follows_pure failing
  have queried : Follows effects
      (fun answer reached => ∀ log, answer = .error log → untouched → reached) untouched
      (Postgres.query userDb.addUserStatement [user.username, user.hashed] addUserTypes) := by
    apply served.bind
    intro result reached failing
    split
    · rename_i message
      apply (cleared result).follows.bind
      intro _ _ kept
      obtain rfl := kept.2
      exact follows_pure fun _ _ => failing (.inr message)
    · apply follows_pure
      rintro log ⟨⟩
  apply queried.bind
  intro answer reached failing
  cases answer with
  | error log => exact follows_pure fun _ _ => failing log rfl
  | ok result =>
      apply (harmless_dereference _).follows.bind
      intro id _ _
      apply (cleared result).follows.bind
      intro _ _ _
      apply follows_pure
      rintro log ⟨⟩

end UserPostgres

/-! ## The end of a session -/

theorem RedisStore.follows_command (args : List Bytes) :
    Follows effects (fun reply reached => KeepsStore args (some reply) → untouched → reached)
      untouched (RedisStore.command args) := by
  have taken : Harmless (fun _ => True) getContext :=
    (harmless_call (by exact ⟨trivial, fun _ => trivial⟩)).bind fun _ _ =>
      harmless_call (by exact ⟨trivial, fun _ => trivial⟩)
  have released : ∀ ctx, Harmless (fun _ => True) (releaseContext ctx) := fun ctx =>
    (harmless_call (by exact ⟨trivial, fun _ => trivial⟩)).bind fun _ _ =>
      harmless_call (by exact ⟨trivial, fun _ => trivial⟩)
  have sent : ∀ ctx, Follows effects
      (fun reply reached => KeepsStore args reply → untouched → reached) untouched
      (redisCommand ctx args) :=
    fun ctx => follows_perform trivial fun _ keeps before => ⟨before, keeps⟩
  apply taken.follows.bind
  intro ctx _ kept
  obtain rfl := kept.2
  apply (sent ctx).bind
  intro reply reached keeping
  apply (released ctx).follows.bind
  intro _ _ kept
  obtain rfl := kept.2
  cases reply with
  | none => exact ⟨trivial, fun response => response.elim⟩
  | some reply => exact follows_pure keeping

theorem RedisStore.follows_delImpl (key : Bytes) :
    Follows effects (fun deleted reached => deleted = false → untouched → reached) untouched
      (RedisStore.delImpl key) := by
  apply (RedisStore.follows_command _).bind
  intro reply reached keeping
  split
  · have freed : Harmless (fun _ => True) (freeReplyObject reply) :=
      harmless_call ⟨trivial, fun _ => trivial⟩
    apply freed.follows.bind
    intro _ _ kept
    obtain rfl := kept.2
    refine follows_pure fun none => keeping ?_
    refine .inr (.inr (.inr ⟨rfl, fun counted => ?_⟩))
    exact absurd counted.2 (of_decide_eq_false none)
  · rename_i other
    exact follows_pure fun _ => keeping (.inr (.inr (.inr ⟨rfl, fun counted => other counted.1⟩)))

theorem WrapperRequest.follows_clearSessionUserImpl (ex : Exchange) :
    Follows effects
      (fun cleared reached => cleared.1 = false → (untouched → reached) ∧ cleared.2.res = ex.res)
      untouched (clearSessionUserImpl ex) := by
  have keyed : Harmless (fun keyed => ex.Renews keyed.2) (getSessionKey ex) :=
    ((onSession_getSessionKey ex).harmless (.inl rfl)).mono (fun _ call => call)
      fun _ outcome => outcome.2
  apply keyed.follows.bind
  rintro ⟨key, renewed⟩ _ kept
  obtain ⟨renews, rfl⟩ := kept
  apply (RedisStore.follows_delImpl _).bind
  intro deleted reached keeping
  cases deleted with
  | true =>
      apply follows_pure
      rintro ⟨⟩
  | false => exact follows_pure fun _ => ⟨keeping rfl, renews.res⟩

/-! ## Use cases -/

def IsSuccess (status : Int) : Prop :=
  200 ≤ status ∧ status < 300

/-- A request is answered 2xx, or ends untouched and without a new cookie. -/
def Settles (ex ex' : Exchange) (untouched : Prop) : Prop :=
  IsSuccess ex'.res.status ∨ untouched ∧ ex'.res.cookies = ex.res.cookies

theorem isSuccess_noContent : IsSuccess statusNoContent := by
  simp [IsSuccess, statusNoContent]

theorem isSuccess_created : IsSuccess statusCreated := by
  simp [IsSuccess, statusCreated]

theorem harmless_isAuthImpl (ex : Exchange) :
    Harmless (fun tested => ex.Renews tested.2) (isAuthImpl ex) :=
  (onSession_isAuthImpl ex).harmless (.inl rfl)

theorem harmless_getSessionUserImpl (libraries : Libraries) (ex : Exchange) :
    Harmless (fun got => ex.Renews got.2) (getSessionUserImpl libraries ex) :=
  (onSession_getSessionUserImpl libraries ex).harmless (.inr rfl)

section UseCases

variable {app : Application} {name : Bytes} (built : app.userDb.Built name)

include built

theorem LoginAuthUseCase.harmless_checkUser (body : AuthBody) :
    Harmless (fun _ => True) (LoginAuthUseCase.checkUser app body) := by
  apply (built.harmless_getUserByUsernameImpl body.username).bind
  rintro ⟨found, _⟩ _
  cases found with
  | error log => exact within_pure trivial
  | ok user =>
      have verified : Harmless (fun _ => True)
          (User.verifyPassword app.libraries user body.password) := by
        refine (MainCrypto.within_verifyImpl _ _ _).mono ?_ fun _ _ => trivial
        rintro command rfl
        exact ⟨trivial, fun _ => trivial⟩
      apply verified.bind
      intro same _
      split
      · exact within_pure trivial
      · exact within_pure trivial

theorem LoginAuthUseCase.harmless_authenticate (ex : Exchange) :
    Harmless (fun found => found.2.res.cookies = ex.res.cookies)
      (LoginAuthUseCase.authenticate app ex) := by
  apply (harmless_isAuthImpl ex).bind
  rintro ⟨auth, keyed⟩ renews
  have same : keyed.res.cookies = ex.res.cookies := congrArg Response.cookies renews.res
  cases auth with
  | true => exact within_pure same
  | false =>
      have parsed : Harmless (fun _ => True)
          (LoginAuthUseCase.parseBody app.libraries keyed.req) := by
        refine (LoginAuthUseCase.within_parseBody _ _).mono ?_ fun _ _ => trivial
        rintro command rfl
        exact ⟨trivial, fun response => response.elim⟩
      apply parsed.bind
      intro body _
      cases body with
      | error log => exact within_pure same
      | ok body =>
          simp only
          split
          · exact within_pure same
          · apply (LoginAuthUseCase.harmless_checkUser built body).bind
            intro user _
            cases user with
            | none => exact within_pure same
            | some user => exact within_pure same

/-- A login that gets as far as its session is answered 204. -/
theorem LoginAuthUseCase.follows_execute (rounds : Nat) (ex : Exchange) :
    Follows effects (Settles ex) True (LoginAuthUseCase.execute app rounds ex) := by
  refine (LoginAuthUseCase.harmless_authenticate built ex).follows.bind
    fun (found, authenticated) reached kept => ?_
  obtain ⟨same, rfl⟩ := kept
  cases found with
  | none => exact follows_pure (.inr ⟨trivial, same⟩)
  | some user =>
      refine (follows_of_preparesOwn (onSession_setSessionUserImpl _ _ _ _).preparesOwn).bind
        fun _ _ _ => ?_
      exact follows_pure (.inl isSuccess_noContent)

omit built in
theorem LogoutAuthUseCase.follows_execute (ex : Exchange) :
    Follows effects (Settles ex) True (LogoutAuthUseCase.execute app ex) := by
  apply (harmless_isAuthImpl ex).follows.bind
  rintro ⟨auth, keyed⟩ reached kept
  obtain ⟨renews, rfl⟩ := kept
  have same : keyed.res = ex.res := renews.res
  have cookies : keyed.res.cookies = ex.res.cookies := congrArg Response.cookies same
  cases auth with
  | false => exact follows_pure (.inr ⟨trivial, cookies⟩)
  | true =>
      apply (follows_clearSessionUserImpl keyed).bind
      rintro ⟨logout, cleared⟩ reached keeping
      cases logout with
      | true => exact follows_pure (.inl isSuccess_noContent)
      | false =>
          obtain ⟨untouched, res⟩ := keeping rfl
          apply (harmless_getSessionUserImpl _ _).follows.bind
          rintro ⟨user, read⟩ _ kept
          obtain ⟨reads, rfl⟩ := kept
          have again : read.res.cookies = ex.res.cookies :=
            congrArg Response.cookies (reads.res.trans (res.trans same))
          exact follows_pure (.inr ⟨untouched trivial, again⟩)

omit built in
/-- A request for the user only reads. -/
theorem UserAuthUseCase.harmless_execute (ex : Exchange) :
    Harmless (fun ex' => ex'.res.cookies = ex.res.cookies) (UserAuthUseCase.execute app ex) := by
  apply (harmless_isAuthImpl ex).bind
  rintro ⟨auth, keyed⟩ renews
  have same : keyed.res = ex.res := renews.res
  have cookies : keyed.res.cookies = ex.res.cookies := congrArg Response.cookies same
  cases auth with
  | false => exact within_pure cookies
  | true =>
      apply (harmless_getSessionUserImpl _ _).bind
      rintro ⟨user, read⟩ reads
      have again : read.res.cookies = ex.res.cookies :=
        congrArg Response.cookies (reads.res.trans same)
      cases user with
      | none => exact within_pure again
      | some user =>
          simp only
          split
          · exact ⟨⟨trivial, fun response => response.elim⟩, fun response => response.elim⟩
          · exact within_pure again

/-- A registration is answered 201 once its row may have been added. -/
theorem RegisterAuthUseCase.follows_addUser (body : AuthBody) (ex : Exchange) :
    Follows effects (Settles ex) True (RegisterAuthUseCase.addUser app body ex) := by
  unfold RegisterAuthUseCase.addUser
  split
  · exact follows_pure (.inr ⟨trivial, rfl⟩)
  · split
    · exact follows_pure (.inr ⟨trivial, rfl⟩)
    · rename_i user _
      have hashing : Harmless (fun _ => True) (user.hashPassword app.libraries app.crypto) := by
        refine (User.within_hashPassword _ _ _).mono ?_ fun _ _ => trivial
        rintro command rfl
        exact ⟨trivial, fun _ => trivial⟩
      apply hashing.follows.bind
      rintro ⟨log, hashed⟩ _ kept
      obtain rfl := kept.2
      cases log with
      | some log => exact follows_pure (.inr ⟨trivial, rfl⟩)
      | none =>
          apply (built.follows_addUserImpl hashed).bind
          intro added reached failing
          cases added with
          | error log =>
              have untouched := failing log rfl trivial
              simp only
              split
              · exact follows_pure (.inr ⟨untouched, rfl⟩)
              · exact follows_pure (.inr ⟨untouched, rfl⟩)
          | ok id => exact follows_pure (.inl isSuccess_created)

theorem RegisterAuthUseCase.follows_execute (ex : Exchange) :
    Follows effects (Settles ex) True (RegisterAuthUseCase.execute app ex) := by
  apply (harmless_isAuthImpl ex).follows.bind
  rintro ⟨auth, keyed⟩ reached kept
  obtain ⟨renews, rfl⟩ := kept
  have same : keyed.res.cookies = ex.res.cookies := congrArg Response.cookies renews.res
  cases auth with
  | true => exact follows_pure (.inr ⟨trivial, same⟩)
  | false =>
      simp only [Bool.false_eq_true, if_false]
      split
      · exact follows_pure (.inr ⟨trivial, same⟩)
      · split
        · exact follows_pure (.inr ⟨trivial, same⟩)
        · apply (RegisterAuthUseCase.follows_addUser built _ keyed).mono
          intro ex' reached settles
          rcases settles with success | ⟨untouched, cookies⟩
          · exact .inl success
          · exact .inr ⟨untouched, cookies.trans same⟩

theorem Endpoint.follows_handle (rounds : Nat) (endpoint : Endpoint) (ex : Exchange) :
    Follows effects
      (fun ex' untouched => Settles ex ex' untouched ∧ (endpoint = .user → untouched)) True
      (endpoint.handle app rounds ex) := by
  cases endpoint with
  | user =>
      apply (UserAuthUseCase.harmless_execute ex).follows.mono
      intro ex' reached kept
      obtain ⟨cookies, rfl⟩ := kept
      exact ⟨.inr ⟨trivial, cookies⟩, fun _ => trivial⟩
  | login =>
      refine (LoginAuthUseCase.follows_execute built rounds ex).mono fun _ _ settles => ⟨settles, ?_⟩
      rintro ⟨⟩
  | logout =>
      refine (LogoutAuthUseCase.follows_execute ex).mono fun _ _ settles => ⟨settles, ?_⟩
      rintro ⟨⟩
  | register =>
      refine (RegisterAuthUseCase.follows_execute built ex).mono fun _ _ settles => ⟨settles, ?_⟩
      rintro ⟨⟩

end UseCases

/-! ## Runs of requests -/

section Runs

variable {σ τ : Type} {h : BackendHandler σ} {table : σ → τ} {store : σ → StoreMap}
  {prepared : σ → Nat → Bytes → Option Bytes} {app : Application} {rounds : Nat}

theorem TruthfulBackend.settles_of_step (truthful : TruthfulBackend h table store prepared)
    {name : Bytes} (built : app.userDb.Built name) {s s' : σ} {request : Endpoint × Exchange}
    {answer : Answer} (texts : OwnTexts (prepared s))
    (stepped : (service h app rounds).step s request = .ok (s', answer)) :
    OwnTexts (prepared s') ∧
      (¬ IsSuccess answer.exchange.res.status → table s' = table s ∧ store s' = store s ∧
        answer.exchange.res.cookies = request.2.res.cookies) ∧
      (request.1 = .user → table s' = table s ∧ store s' = store s) := by
  obtain ⟨ex', ran, rfl⟩ := run_of_service_step h app rounds stepped
  obtain ⟨texts', untouched, same, settles, reads⟩ :=
    truthful.unchanged_of_run (Endpoint.follows_handle built rounds request.1 request.2) texts ran
  refine ⟨texts', fun failed => ?_, fun user => same (reads user)⟩
  rcases settles with success | ⟨kept, cookies⟩
  · exact absurd success failed
  · exact ⟨(same kept).1, (same kept).2, cookies⟩

/-- After any run of requests over connections on which nothing was prepared, a
request that is not answered 2xx leaves the users table and the session store as
they were and adds no cookie; a request for the user of a session never changes
them. -/
theorem TruthfulBackend.failed_requests_change_nothing
    (truthful : TruthfulBackend h table store prepared) {pg : Postgres}
    (constructed : UserPostgres.construct pg = .ok app.userDb) {start s s' : σ}
    (fresh : ∀ client name, prepared start client name = none)
    {requests : List (Endpoint × Exchange)} {answers : List Answer}
    (ran : (service h app rounds).run start requests = .ok (s, answers))
    {request : Endpoint × Exchange} {answer : Answer}
    (stepped : (service h app rounds).step s request = .ok (s', answer)) :
    (¬ IsSuccess answer.exchange.res.status → table s' = table s ∧ store s' = store s ∧
        answer.exchange.res.cookies = request.2.res.cookies) ∧
      (request.1 = .user → table s' = table s ∧ store s' = store s) := by
  have built := UserPostgres.built_of_construct constructed
  have texts : OwnTexts (prepared s) := by
    refine EventMachine.run_invariant (fun _ _ s => OwnTexts (prepared s)) ?_ ?_ ran
    · intro client name text present
      rw [fresh] at present
      cases present
    · intro _ _ earlier request later answer _ own stepped
      exact (truthful.settles_of_step built own stepped).1
  exact (truthful.settles_of_step built texts stepped).2

end Runs

/-! ## The world is truthful -/

/-- A map that answers no successful write or deletion stays as it is. -/
theorem redisMap_of_keepsStore {args : List Bytes} {m : StoreMap}
    (keeps : KeepsStore args (some (redisReply args m))) : redisMap args m = m := by
  unfold redisMap
  split
  · rename_i name key
    split
    · rename_i deletion
      subst deletion
      rcases keeps with first | first | failed | ⟨-, uncounted⟩
      · cases first
      · cases first
      · cases failed
      · apply Function.update_eq_self_iff.mpr
        cases found : m key with
        | none => rfl
        | some value => exact absurd ⟨rfl, by simp [found]⟩ uncounted
    · rfl
  · rename_i name key value
    split
    · rename_i write
      subst write
      rcases keeps with first | first | failed | ⟨first, -⟩
      · cases first
      · cases first
      · cases failed
      · cases first
    · rfl
  · rfl

theorem usersEngine_execute_of_failure (newId : List UserRow → Bytes) {text : Bytes}
    {params : List Bytes} {rows : List UserRow}
    (failed : ReportsFailure (some ((usersEngine newId).execute text params rows).1)) :
    ((usersEngine newId).execute text params rows).2 = rows := by
  unfold usersEngine at failed ⊢
  simp only at failed ⊢
  split
  · split <;> rfl
  · split
    · rename_i insertion
      split
      · rename_i free
        simp only [if_pos insertion, if_pos free, ReportsFailure] at failed
        rcases failed with status | message
        · cases status
        · exact absurd rfl message
      · rfl
    · rfl
  · rfl

/-- The lookup is no insertion, whatever its parameters. -/
theorem usersEngine_getUser_keeps (newId : List UserRow → Bytes) (params : List Bytes)
    (rows : List UserRow) :
    ((usersEngine newId).execute UserPostgres.getUserQuery params rows).2 = rows := by
  unfold usersEngine
  simp only [if_neg UserPostgres.addUserQuery_ne.symm]
  split
  · split <;> rfl
  · rfl
  · rfl

theorem World.truthful (env : Environment) :
    TruthfulBackend (World.handler env) (fun w => w.postgres.tables) World.store
      fun w => w.postgres.prepared where
  quiet command w response w' quiet answered := by
    obtain ⟨store, tables, prepared⟩ := World.of_quiet env quiet answered
    exact ⟨tables, store, prepared⟩
  redis context args w reply w' answered := by
    cases answered
    exact ⟨rfl, rfl, redisMap_of_keepsStore⟩
  prepare client name text nParams types w result w' answered := by
    cases answered
    simp only [PgServer.prepareName]
    split
    · exact ⟨rfl, trivial, fun c n t present => PgServer.prepared_of_bindName present⟩
    · exact ⟨rfl, trivial, fun c n t present => .inl present⟩
  execute client name nParams values lengths formats w result w' answered := by
    cases answered
    simp only [PgServer.execPrepared]
    cases found : w.postgres.prepared client name with
    | none => exact ⟨trivial, rfl, fun _ => rfl⟩
    | some text =>
        simp only
        split
        · rename_i arity
          refine ⟨trivial, rfl, ?_⟩
          rintro (failed | absent | lookup | ⟨insertion, misfit⟩)
          · exact usersEngine_execute_of_failure env.newId failed
          · cases absent
          · cases lookup
            exact usersEngine_getUser_keeps env.newId _ _
          · cases insertion
            rw [(usersEngine_parameters_eq_two env.newId).mpr rfl] at arity
            exact absurd arity misfit
        · exact ⟨trivial, rfl, fun _ => rfl⟩

/-- A registration after a login: its statement's name stands for the lookup on the
one connection, so that it is answered 400. -/
theorem failed_requests_change_nothing_sample : ∃ s answers s' answer,
    (service (World.handler sampleEnvironment) sampleApplication 1).run
        { sampleWorld [sampleRow] with
          postgres := { (sampleWorld [sampleRow]).postgres with pool := [0] } }
        [(.login, sampleExchange (ascii "username") (ascii "password"))] = .ok (s, answers) ∧
      (service (World.handler sampleEnvironment) sampleApplication 1).step s
        (.register, sampleExchange (ascii "another1") (ascii "password")) = .ok (s', answer) ∧
      answer.exchange.res.status = statusBadRequest ∧
      s'.postgres.tables = s.postgres.tables ∧ s'.store = s.store ∧
      answer.exchange.res.cookies = [] := by
  have ran : ((service (World.handler sampleEnvironment) sampleApplication 1).run
      { sampleWorld [sampleRow] with
        postgres := { (sampleWorld [sampleRow]).postgres with pool := [0] } }
      ([(.login, sampleExchange (ascii "username") (ascii "password"))] ++
        [(.register, sampleExchange (ascii "another1") (ascii "password"))])).map
          (fun ended => ended.2.getLast?.map fun answer => answer.exchange.res.status) =
      .ok (some statusBadRequest) := by
    decide +kernel
  obtain ⟨s', outputs, answered, status⟩ := EventMachine.exists_of_view ran
  obtain ⟨s, answers, answer, before, stepped, rfl⟩ := EventMachine.run_concat_ok.mp answered
  rw [List.getLast?_concat, Option.map_some, Option.some.injEq] at status
  have failed : ¬ IsSuccess answer.exchange.res.status := by
    rw [status]
    simp [IsSuccess, statusBadRequest]
  obtain ⟨tables, store, cookies⟩ := ((World.truthful sampleEnvironment).failed_requests_change_nothing
    construct_sampleUserDb (fun _ _ => rfl) before stepped).1 failed
  exact ⟨s, answers, s', answer, before, stepped, status, tables, store, cookies⟩

end CleanArchitecture
