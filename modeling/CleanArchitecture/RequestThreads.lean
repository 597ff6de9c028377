import CleanArchitecture.BoundedPrograms
import CleanArchitecture.PoolSafety
import CleanArchitecture.StoreProtocol

/-!
# Requests that run at the same time

A request takes a permit of one pool at a time and never stops while it holds one.
Hence the requests of any number of threads do not wait for each other in a circle,
and since each of them makes a bounded number of calls, they all come to an end.
-/

namespace CleanArchitecture

open Program Backend

/-! ## One permit at a time -/

/-- The calls that are no step of a pool and that the process survives. -/
def Command.IsPlain (command : Command) : Prop :=
  command.IsUnpooled ∧ ¬ command.IsAbort

/-- Where a request stands: between its calls, or in a call on one of the pools. -/
inductive RequestPhase
  | idle
  | permitted (pool : Pool)
  | holding (pool : Pool) (connection : Nat)
  | returned (pool : Pool)
  deriving DecidableEq

/-- The phase of a request as a caller of one pool. -/
def RequestPhase.on (pool : Pool) : RequestPhase → CallerPhase
  | .idle => .idle
  | .permitted used => CallerPhase.permitted.during used pool
  | .holding used connection => (CallerPhase.holding connection).during used pool
  | .returned used => CallerPhase.returned.during used pool

/-- A request asks for a permit, or ends the process, only between its calls. -/
def requestProtocol : Protocol Command Command.Response RequestPhase where
  allows phase
    | .acquire _ => phase = .idle
    | .popFront used => phase = .permitted used
    | .pushBack used connection => phase = .holding used connection
    | .release used => phase = .returned used
    | .nullDereference => phase = .idle
    | .terminate => phase = .idle
    | .outOfRounds => phase = .idle
    | _ => True
  next phase
    | .acquire used => fun _ => .permitted used
    | .popFront used => fun connection => .holding used connection
    | .pushBack used _ => fun _ => .returned used
    | .release _ => fun _ => .idle
    | _ => fun _ => phase

section Protocol

variable {phase : RequestPhase} {command : Command} {pool : Pool} {α β : Type}

/-- Whatever a request may call it may call as a caller of each pool. -/
theorem RequestPhase.allows_on (allowed : requestProtocol.allows phase command) :
    (poolProtocol pool).allows (phase.on pool) command := by
  cases command with
  | acquire used =>
      rintro rfl
      obtain rfl : phase = .idle := allowed
      rfl
  | popFront used =>
      rintro rfl
      obtain rfl : phase = .permitted used := allowed
      exact CallerPhase.during_of_eq rfl
  | pushBack used connection =>
      rintro rfl
      obtain rfl : phase = .holding used connection := allowed
      exact CallerPhase.during_of_eq rfl
  | release used =>
      rintro rfl
      obtain rfl : phase = .returned used := allowed
      exact CallerPhase.during_of_eq rfl
  | _ => exact trivial

theorem RequestPhase.next_on (allowed : requestProtocol.allows phase command)
    (response : command.Response) :
    (requestProtocol.next phase command response).on pool =
      (poolProtocol pool).next (phase.on pool) command response := by
  cases command with
  | acquire used =>
      obtain rfl : phase = .idle := allowed
      rfl
  | popFront used =>
      obtain rfl : phase = .permitted used := allowed
      simp only [requestProtocol, poolProtocol, on, CallerPhase.during]
      split <;> rfl
  | pushBack used connection =>
      obtain rfl : phase = .holding used connection := allowed
      simp only [requestProtocol, poolProtocol, on, CallerPhase.during]
      split <;> rfl
  | release used =>
      obtain rfl : phase = .returned used := allowed
      simp only [requestProtocol, poolProtocol, on, CallerPhase.during]
      split <;> rfl
  | _ => rfl

/-- Plain calls leave the request where it is. -/
theorem follows_plain {post : α → Prop} {program : Backend α}
    (plain : Within Command.IsPlain post program) :
    Follows requestProtocol (fun value reached => post value ∧ reached = phase) phase program := by
  apply plain.follows
  · rintro command ⟨apart, going⟩
    cases command <;> first | exact trivial | exact apart.elim | exact absurd trivial going
  · rintro command response ⟨apart, -⟩
    cases command <;> first | rfl | exact apart.elim

/-- A request that ends in the phase between its calls, if it begins there. -/
def StaysIdle (program : Backend α) : Prop :=
  Follows requestProtocol (fun _ reached => reached = .idle) .idle program

theorem staysIdle_pure (value : α) : StaysIdle (pure value) :=
  follows_pure rfl

theorem staysIdle_perform (unpooled : command.IsUnpooled) : StaysIdle (perform command) := by
  apply follows_perform
  · cases command <;> first | exact trivial | rfl | exact unpooled.elim
  · intro response
    cases command <;> first | rfl | exact unpooled.elim

theorem staysIdle_dereference (pointer : Option α) : StaysIdle (dereference pointer) := by
  cases pointer with
  | none => exact ⟨rfl, fun never => never.elim⟩
  | some value => exact staysIdle_pure value

/-- A connection is taken and given back, whatever is done with it in between. -/
theorem staysIdle_pooled (used : Pool) {use : Nat → Backend α} {finish : α → Backend β}
    (calls : ∀ connection, Within Command.IsPlain (fun _ => True) (use connection))
    (rest : ∀ value, StaysIdle (finish value)) :
    StaysIdle (do
      let connection ← (do acquire used; popFront used)
      let value ← use connection
      (do pushBack used connection; release used)
      finish value) := by
  refine ⟨rfl, fun _ => ⟨rfl, fun connection => ?_⟩⟩
  apply (follows_plain (calls connection)).bind
  intro value _ kept
  obtain ⟨-, rfl⟩ := kept
  exact ⟨rfl, fun _ => ⟨rfl, fun _ => rest value⟩⟩

theorem staysIdle_query (statement : PostgresStatement) (values : List Bytes)
    (formats : List Int) : StaysIdle (Postgres.query statement values formats) := by
  have served : StaysIdle (Postgres.queryWithFallback statement values formats) :=
    staysIdle_pooled .postgres
      (fun client => Postgres.within_attempts _ _ _ client ⟨trivial, id⟩ ⟨trivial, id⟩
        fun _ => ⟨trivial, id⟩)
      staysIdle_pure
  apply served.bind
  intro result _ idle
  obtain rfl := idle
  split
  · have cleared : StaysIdle (pqClear result) := staysIdle_perform trivial
    exact cleared.bind fun _ _ idle => follows_pure idle
  · exact staysIdle_pure _

theorem staysIdle_body (call : PoolCall) : StaysIdle call.body := by
  cases call with
  | command args =>
      have plain : ∀ context, (Command.redisCommand context args).IsPlain :=
        fun _ => ⟨trivial, id⟩
      exact staysIdle_pooled .redis (fun context => within_perform (plain context))
        staysIdle_dereference
  | query statement values formats => exact staysIdle_query statement values formats
  | other command unpooled => exact staysIdle_perform unpooled

end Protocol

/-! ## The calls of the endpoints -/

section Calls

variable {α β : Type}

/-- A program of at most this many calls of a caller. -/
abbrev Calls (bound : Nat) (program : Backend α) : Prop :=
  MadeOf PoolCall.body bound program

theorem calls_perform {command : Command} (unpooled : command.IsUnpooled) :
    Calls 1 (perform command) :=
  madeOf_body (PoolCall.other command unpooled)

theorem calls_abort {command : Command} (unpooled : command.IsUnpooled)
    (never : command.Response → Empty) : Calls 1 (abort command never : Backend α) := by
  change Calls (1 + 0) (perform command >>= fun response => (never response).elim)
  exact (calls_perform unpooled).bind fun response => (never response).elim

theorem calls_dereference (pointer : Option α) : Calls 1 (dereference pointer) := by
  cases pointer with
  | none =>
      apply calls_abort
      exact trivial
  | some value => exact madeOf_pure 1 value

theorem calls_command (args : List Bytes) : Calls 1 (RedisStore.command args) :=
  madeOf_body (PoolCall.command args)

theorem calls_query (statement : PostgresStatement) (values : List Bytes) (formats : List Int) :
    Calls 1 (Postgres.query statement values formats) :=
  madeOf_body (PoolCall.query statement values formats)

theorem calls_freeReplyObject (reply : RedisReply) : Calls 1 (freeReplyObject reply) :=
  calls_perform trivial

theorem calls_pqClear (result : Option PgResult) : Calls 1 (pqClear result) :=
  calls_perform trivial

theorem calls_getrandom : Calls 1 getrandom :=
  calls_perform trivial

theorem callsAtMost_dereference (pointer : Option α) : CallsAtMost 1 (dereference pointer) := by
  cases pointer with
  | none => exact fun never => never.elim
  | some value => exact callsAtMost_pure 1 value

/-- Taking a connection and giving it back are two calls each. -/
theorem callsAtMost_pooled (used : Pool) {inside after : Nat} {use : Nat → Backend α}
    {finish : α → Backend β} (bounded : ∀ connection, CallsAtMost inside (use connection))
    (rest : ∀ value, CallsAtMost after (finish value)) :
    CallsAtMost (2 + (inside + (2 + after))) (do
      let connection ← (do acquire used; popFront used)
      let value ← use connection
      (do pushBack used connection; release used)
      finish value) := by
  have taken : CallsAtMost 2 (do acquire used; popFront used) := fun _ _ => trivial
  have given : ∀ connection, CallsAtMost 2 (do pushBack used connection; release used) :=
    fun _ _ _ => trivial
  exact taken.bind fun connection => (bounded connection).bind fun value =>
    (given connection).bind fun _ => rest value

theorem callsAtMost_attempts (client : Nat) (statement : PostgresStatement)
    (values : List Bytes) (formats : List Int) :
    CallsAtMost 5 (Postgres.attempts client statement values formats) := by
  change CallsAtMost (1 + (1 + 3)) _
  refine (callsAtMost_perform _).bind fun result => ?_
  split
  · refine (callsAtMost_perform _).bind fun rtmp => ?_
    split
    · exact fun _ _ _ => trivial
    · exact fun _ => trivial
  · exact callsAtMost_pure _ _

/-- The call with the most commands is a query whose statement has to be prepared. -/
theorem callsAtMost_body (call : PoolCall) : CallsAtMost 10 call.body := by
  cases call with
  | command args =>
      have called : CallsAtMost (2 + (1 + (2 + 1))) (RedisStore.command args) :=
        callsAtMost_pooled .redis (fun _ => callsAtMost_perform _) callsAtMost_dereference
      exact called.mono (by decide)
  | query statement values formats =>
      have served : CallsAtMost (2 + (5 + (2 + 0)))
          (Postgres.queryWithFallback statement values formats) :=
        callsAtMost_pooled .postgres (fun _ => callsAtMost_attempts _ _ _ _)
          fun value => callsAtMost_pure 0 value
      change CallsAtMost (9 + 1) _
      refine served.bind fun result => ?_
      split
      · exact fun _ => trivial
      · exact callsAtMost_pure 1 _
  | other command unpooled => exact (callsAtMost_perform command).mono (by decide)

/-! ### The store -/

theorem calls_getValue (convert : Bytes → Except Log α) (function key : Bytes) :
    Calls 2 (RedisStore.getValue convert function key) := by
  change Calls (1 + (1 + 0)) _
  refine (calls_command _).bind fun reply => (calls_freeReplyObject reply).bind fun _ => ?_
  split_ifs <;> exact madeOf_pure 0 _

theorem calls_setValue (key value : Bytes) : Calls 2 (RedisStore.setValue key value) := by
  change Calls (1 + (1 + 0)) _
  exact (calls_command _).bind fun reply => (calls_freeReplyObject reply).bind fun _ =>
    madeOf_pure 0 _

theorem calls_countPositive (name key : Bytes) : Calls 2 (RedisStore.countPositive name key) := by
  change Calls (1 + (1 + 0)) _
  refine (calls_command _).bind fun reply => ?_
  split
  · exact (calls_freeReplyObject reply).bind fun _ => madeOf_pure 0 _
  · exact madeOf_pure 1 _

/-! ### The session -/

open WrapperRequest

theorem calls_getSessionKey (ex : Exchange) : Calls 1 (getSessionKey ex) := by
  have drawn : Calls 1 (getSessionIdImpl ex) := by
    unfold getSessionIdImpl
    split
    · exact madeOf_pure 1 _
    · change Calls (1 + 0) _
      exact calls_getrandom.bind fun _ => madeOf_pure 0 _
  change Calls (1 + 0) _
  exact drawn.bind fun _ => madeOf_pure 0 _

theorem calls_isAuthImpl (ex : Exchange) : Calls 3 (isAuthImpl ex) := by
  change Calls (1 + (2 + 0)) _
  exact (calls_getSessionKey ex).bind fun _ => (calls_countPositive _ _).bind fun _ =>
    madeOf_pure 0 _

/-- Every draw asks for random words, for the key and for a value under it. -/
theorem calls_getNewSessionIdImpl (rounds : Nat) (ex : Exchange) :
    Calls (4 * rounds + 1) (getNewSessionIdImpl rounds ex) := by
  induction rounds generalizing ex with
  | zero =>
      apply calls_abort
      exact trivial
  | succ rounds ih =>
      have total : 4 * (rounds + 1) + 1 = 1 + (1 + (2 + (4 * rounds + 1))) := by omega
      rw [total]
      refine calls_getrandom.bind fun _ => (calls_getSessionKey _).bind fun _ =>
        (calls_countPositive _ _).bind fun _ => ?_
      split
      · exact ih _
      · exact madeOf_pure _ _

theorem calls_setSessionUserImpl (libraries : Libraries) (rounds : Nat) (user : User)
    (ex : Exchange) : Calls (4 * rounds + 4) (setSessionUserImpl libraries rounds user ex) := by
  change Calls (4 * rounds + 1 + (1 + (2 + 0))) _
  exact (calls_getNewSessionIdImpl rounds ex).bind fun _ => (calls_getSessionKey _).bind fun _ =>
    (calls_setValue _ _).bind fun _ => madeOf_pure 0 _

theorem calls_getSessionUserImpl (libraries : Libraries) (ex : Exchange) :
    Calls 5 (getSessionUserImpl libraries ex) := by
  change Calls (1 + (2 + 2)) _
  refine (calls_getSessionKey ex).bind fun _ => (calls_getValue _ _ _).bind fun found => ?_
  split
  · split
    · change Calls (1 + (1 + 0)) _
      exact (calls_dereference _).bind fun _ => (calls_dereference _).bind fun _ =>
        madeOf_pure 0 _
    · exact madeOf_pure 2 _
  · exact madeOf_pure 2 _

theorem calls_clearSessionUserImpl (ex : Exchange) : Calls 3 (clearSessionUserImpl ex) := by
  change Calls (1 + (2 + 0)) _
  refine (calls_getSessionKey ex).bind fun _ => (calls_countPositive _ _).bind fun _ => ?_
  split <;> exact madeOf_pure 0 _

/-! ### The users table and the passwords -/

theorem calls_getUserByUsernameImpl (userDb : UserPostgres) (username : Bytes) :
    Calls 4 (userDb.getUserByUsernameImpl username) := by
  change Calls (1 + (1 + (1 + (1 + 0)))) _
  refine (calls_query _ _ _).bind fun found => ?_
  split
  · exact madeOf_pure 3 _
  · split
    · exact ((calls_pqClear _).bind fun _ => madeOf_pure 0 _).mono (by decide)
    · exact (calls_dereference _).bind fun _ => (calls_dereference _).bind fun _ =>
        (calls_pqClear _).bind fun _ => madeOf_pure 0 _

theorem calls_addUserImpl (userDb : UserPostgres) (user : User) :
    Calls 3 (userDb.addUserImpl user) := by
  change Calls (1 + (1 + (1 + 0))) _
  refine (calls_query _ _ _).bind fun added => ?_
  split
  · exact madeOf_pure 2 _
  · exact (calls_dereference _).bind fun _ => (calls_pqClear _).bind fun _ => madeOf_pure 0 _

theorem calls_hashPassword (libraries : Libraries) (crypto : MainCrypto) (user : User) :
    Calls 1 (user.hashPassword libraries crypto) := by
  have hashed : Calls 1 (crypto.hashImpl libraries user.password) := by
    change Calls (1 + 0) _
    have asked : Calls 1 (argon2idHashEncoded crypto user.password) := calls_perform trivial
    refine asked.bind fun (err, encoded) => ?_
    dsimp only
    split_ifs <;> exact madeOf_pure 0 _
  change Calls (1 + 0) _
  refine hashed.bind fun hash => ?_
  split <;> exact madeOf_pure 0 _

theorem calls_verifyPassword (libraries : Libraries) (user : User) (password : Bytes) :
    Calls 1 (user.verifyPassword libraries password) := by
  change Calls (1 + 0) _
  have asked : Calls 1 (argon2idVerify (cStr user.hashed) password) := calls_perform trivial
  refine asked.bind fun err => ?_
  split_ifs <;> exact madeOf_pure 0 _

/-! ### The use cases -/

theorem calls_parseBody (libraries : Libraries) (req : Request) :
    Calls 1 (LoginAuthUseCase.parseBody libraries req) := by
  unfold LoginAuthUseCase.parseBody
  split
  · exact madeOf_pure 1 _
  · split
    · have logged : Calls 1 (LoginAuthUseCase.logUnverified libraries req.body) := by
        unfold LoginAuthUseCase.logUnverified
        split
        · exact madeOf_pure 1 _
        · change Calls (1 + 0) _
          exact (calls_dereference _).bind fun _ => madeOf_pure 0 _
      change Calls (1 + 0) _
      refine logged.bind fun _ => ?_
      split <;> exact madeOf_pure 0 _
    · exact madeOf_pure 1 _

theorem calls_checkUser (app : Application) (body : AuthBody) :
    Calls 5 (LoginAuthUseCase.checkUser app body) := by
  change Calls (4 + (1 + 0)) _
  refine (calls_getUserByUsernameImpl _ _).bind fun (found, _) => ?_
  dsimp only
  split
  · exact madeOf_pure 1 _
  · refine (calls_verifyPassword _ _ _).bind fun verified => ?_
    split <;> exact madeOf_pure 0 _

theorem calls_authenticate (app : Application) (ex : Exchange) :
    Calls 9 (LoginAuthUseCase.authenticate app ex) := by
  change Calls (3 + (1 + (5 + 0))) _
  refine (calls_isAuthImpl ex).bind fun (auth, ex) => ?_
  dsimp only
  split
  · exact madeOf_pure 6 _
  · refine (calls_parseBody _ _).bind fun body => ?_
    split
    · exact madeOf_pure 5 _
    · split
      · exact madeOf_pure 5 _
      · refine (calls_checkUser _ _).bind fun user => ?_
        split <;> exact madeOf_pure 0 _

theorem calls_login (app : Application) (rounds : Nat) (ex : Exchange) :
    Calls (4 * rounds + 13) (LoginAuthUseCase.execute app rounds ex) := by
  have total : 4 * rounds + 13 = 9 + (4 * rounds + 4 + 0) := by omega
  rw [total]
  refine (calls_authenticate app ex).bind fun (found, ex) => ?_
  dsimp only
  split
  · exact madeOf_pure _ _
  · exact (calls_setSessionUserImpl _ _ _ _).bind fun _ => madeOf_pure 0 _

theorem calls_logout (app : Application) (ex : Exchange) :
    Calls 11 (LogoutAuthUseCase.execute app ex) := by
  change Calls (3 + (3 + (5 + 0))) _
  refine (calls_isAuthImpl ex).bind fun (auth, ex) => ?_
  dsimp only
  split
  · refine (calls_clearSessionUserImpl _).bind fun (logout, ex) => ?_
    dsimp only
    split
    · exact madeOf_pure 5 _
    · exact (calls_getSessionUserImpl _ _).bind fun _ => madeOf_pure 0 _
  · exact madeOf_pure 8 _

theorem calls_user (app : Application) (ex : Exchange) :
    Calls 9 (UserAuthUseCase.execute app ex) := by
  change Calls (3 + (5 + 1)) _
  refine (calls_isAuthImpl ex).bind fun (auth, ex) => ?_
  dsimp only
  split
  · refine (calls_getSessionUserImpl _ _).bind fun (user, ex) => ?_
    dsimp only
    split
    · exact madeOf_pure 1 _
    · split
      · apply calls_abort
        exact trivial
      · exact madeOf_pure 1 _
  · exact madeOf_pure 6 _

theorem calls_register (app : Application) (ex : Exchange) :
    Calls 7 (RegisterAuthUseCase.execute app ex) := by
  have added : ∀ body ex, Calls 4 (RegisterAuthUseCase.addUser app body ex) := by
    intro body ex
    unfold RegisterAuthUseCase.addUser
    split
    · exact madeOf_pure 4 _
    · split
      · exact madeOf_pure 4 _
      · change Calls (1 + (3 + 0)) _
        refine (calls_hashPassword _ _ _).bind fun hashed => ?_
        split
        · exact madeOf_pure 3 _
        · refine (calls_addUserImpl _ _).bind fun id => ?_
          split
          · split <;> exact madeOf_pure 0 _
          · exact madeOf_pure 0 _
  change Calls (3 + 4) _
  refine (calls_isAuthImpl ex).bind fun (auth, ex) => ?_
  dsimp only
  split
  · exact madeOf_pure 4 _
  · split
    · exact madeOf_pure 4 _
    · split
      · exact madeOf_pure 4 _
      · exact added _ _

/-- A request makes a bounded number of these calls; only the draws of a new session id depend
on how many rounds they are given. -/
theorem calls_handle (app : Application) (rounds : Nat) (endpoint : Endpoint) (ex : Exchange) :
    Calls (4 * rounds + 13) (endpoint.handle app rounds ex) := by
  cases endpoint with
  | user => exact (calls_user app ex).mono (by omega)
  | login => exact calls_login app rounds ex
  | logout => exact (calls_logout app ex).mono (by omega)
  | register => exact (calls_register app ex).mono (by omega)

theorem staysIdle_handle (app : Application) (rounds : Nat) (endpoint : Endpoint)
    (ex : Exchange) : StaysIdle (endpoint.handle app rounds ex) := by
  obtain ⟨caller, -, expanded⟩ := calls_handle app rounds endpoint ex
  rw [← expanded]
  exact follows_expand staysIdle_body caller

end Calls

/-! ## Threads that cannot go on -/

section Threads

variable {ι τ : Type} {environment : BackendHandler τ}

/-- The environment answers every plain call. -/
def Answering (environment : BackendHandler τ) : Prop :=
  ∀ command s, command.IsPlain → ∃ answer, environment command s = some answer

/-- A request that was answered, or that has come to the end of the process. -/
def Ended {α : Type} (program : Backend α) : Prop :=
  (∃ value, program = .done value) ∨
    ∃ command next, program = .call command next ∧ command.IsAbort

theorem Answering.pooled (answering : Answering environment) {command : Command}
    (plain : command.IsPlain) (s : Pooled τ) :
    ∃ answer, Pooled.handler environment command s = some answer := by
  obtain ⟨answer, answered⟩ := answering command s.rest plain
  have elsewhere : Pooled.handler environment command s =
      (environment command s.rest).map (Prod.map id fun rest => { s with rest := rest }) := by
    cases command <;> first | rfl | exact plain.1.elim
  exact ⟨_, by rw [elsewhere, answered]; rfl⟩

/-- The requests before their first calls. -/
def requestThreads (app : Application) (rounds : Nat) (requests : ι → Endpoint × Exchange)
    (start : Pooled τ) : Threads Command Command.Response Exchange RequestPhase (Pooled τ) ι where
  programs i := (requests i).1.handle app rounds (requests i).2
  phases _ := .idle
  shared := start

variable [Fintype ι] [DecidableEq ι] {α : Type} {opened : Pool → List Nat}
  {s s' : Threads Command Command.Response α RequestPhase (Pooled τ) ι}

/-- Both pools are accounted for by the requests that call on them. -/
def AccountedPools (opened : Pool → List Nat) (phases : ι → RequestPhase) (shared : Pooled τ) :
    Prop :=
  ∀ pool, Accounted (opened pool) (fun i => (phases i).on pool) (shared.pools pool)

theorem AccountedPools.step {phases : ι → RequestPhase} {shared shared' : Pooled τ} {i : ι}
    {command : Command} {response : command.Response}
    (allowed : requestProtocol.allows (phases i) command)
    (accounted : AccountedPools opened phases shared)
    (answered : Pooled.handler environment command shared = some (response, shared')) :
    AccountedPools opened
      (Function.update phases i (requestProtocol.next (phases i) command response)) shared' := by
  intro pool
  have permitted : (poolProtocol pool).allows ((RequestPhase.on pool ∘ phases) i) command :=
    RequestPhase.allows_on allowed
  have moved := Accounted.step permitted (accounted pool) answered
  rw [Function.comp_apply, ← RequestPhase.next_on allowed] at moved
  convert moved using 1
  exact Function.comp_update (RequestPhase.on pool) phases i _

/-- A request whose next call is not answered is at an end, or waits for a permit that
nobody has given back, and holds nothing meanwhile. -/
theorem idle_of_unanswered (answering : Answering environment)
    (follow : s.Follow (fun _ => requestProtocol) fun _ _ reached => reached = .idle)
    (accounted : AccountedPools opened s.phases s.shared) {i : ι}
    (stuck : ∀ next, (interleaving (fun _ => requestProtocol) (Pooled.handler environment)).step
      s i ≠ .ok next) :
    s.phases i = .idle ∧
      (Ended (s.programs i) ∨ ∃ pool, (s.shared.pools pool).semaphore = 0) := by
  have here := follow i
  cases program : s.programs i with
  | done value =>
      rw [program] at here
      exact ⟨here, .inl (.inl ⟨value, rfl⟩)⟩
  | call command next =>
      rw [program] at here
      have unanswered : ∀ answer,
          Pooled.handler environment command s.shared ≠ some answer := by
        intro answer answered
        exact stuck _ (Threads.step_of_answered program answered)
      by_cases plain : command.IsPlain
      · obtain ⟨answer, answered⟩ := answering.pooled plain s.shared
        exact absurd answered (unanswered answer)
      cases command with
      | acquire pool =>
          refine ⟨here.1, .inr ⟨pool, ?_⟩⟩
          by_contra positive
          exact unanswered _ (if_pos (Nat.pos_of_ne_zero positive))
      | popFront pool =>
          have permitted : (s.phases i).on pool = .permitted := by
            rw [show s.phases i = .permitted pool from here.1]
            exact CallerPhase.during_of_eq rfl
          obtain ⟨front, deque, pooled⟩ :=
            List.exists_cons_of_ne_nil ((accounted pool).deque_ne_nil permitted)
          have answered : Pooled.handler environment (.popFront pool) s.shared =
              some (front, s.shared.set pool { s.shared.pools pool with deque := deque }) := by
            simp only [Pooled.handler, pooled]
          exact absurd answered (unanswered _)
      | pushBack pool connection => exact absurd rfl (unanswered _)
      | release pool => exact absurd rfl (unanswered _)
      | nullDereference => exact ⟨here.1, .inl (.inr ⟨_, next, rfl, trivial⟩)⟩
      | terminate => exact ⟨here.1, .inl (.inr ⟨_, next, rfl, trivial⟩)⟩
      | outOfRounds => exact ⟨here.1, .inl (.inr ⟨_, next, rfl, trivial⟩)⟩
      | _ => exact absurd ⟨trivial, id⟩ plain

/-- Where no request can go on, all have ended and nothing is missing from the pools. -/
theorem ended_of_stuck (answering : Answering environment) (nonempty : ∀ pool, opened pool ≠ [])
    (follow : s.Follow (fun _ => requestProtocol) fun _ _ reached => reached = .idle)
    (accounted : AccountedPools opened s.phases s.shared)
    (stuck : ∀ i next, (interleaving (fun _ => requestProtocol)
      (Pooled.handler environment)).step s i ≠ .ok next) :
    (∀ i, Ended (s.programs i)) ∧
      ∀ pool, (s.shared.pools pool).deque.Perm (opened pool) ∧
        (s.shared.pools pool).semaphore = (opened pool).length := by
  have waits := fun i => idle_of_unanswered answering follow accounted (stuck i)
  have whole : ∀ pool, (s.shared.pools pool).deque.Perm (opened pool) ∧
      (s.shared.pools pool).semaphore = (opened pool).length := by
    intro pool
    apply (accounted pool).of_idle
    intro i
    rw [(waits i).1]
    rfl
  refine ⟨fun i => ?_, whole⟩
  rcases (waits i).2 with ended | ⟨pool, empty⟩
  · exact ended
  · rw [(whole pool).2] at empty
    exact absurd (List.length_eq_zero_iff.mp empty) (nonempty pool)

end Threads

theorem accounted_start {ι τ : Type} [Fintype ι] {numPool : Pool → Nat}
    {objects : Pool → PoolObject}
    (constructs : ∀ pool, Constructs pool (numPool pool) (objects pool))
    (succeeded : ∀ pool, (objects pool).error = none) {start : Pooled τ}
    (fresh : ∀ pool, start.pools pool = (objects pool).state) :
    AccountedPools (fun pool => (objects pool).created) (fun _ : ι => .idle) start := by
  intro pool
  obtain ⟨created, filled⟩ := (constructs pool).of_succeeded (succeeded pool)
  have size : (objects pool).created.length = numPool pool := by rw [created, List.length_range]
  rw [fresh, filled, ← size]
  exact accounted_idle _

/-- From pools that were opened on, the requests keep to their protocol and no connection or
permit is lost. -/
theorem accounted_of_run {ι τ : Type} [Fintype ι] [DecidableEq ι] {environment : BackendHandler τ}
    {numPool : Pool → Nat} {objects : Pool → PoolObject}
    (constructs : ∀ pool, Constructs pool (numPool pool) (objects pool))
    (succeeded : ∀ pool, (objects pool).error = none) {app : Application} {rounds : Nat}
    {requests : ι → Endpoint × Exchange} {start : Pooled τ}
    (fresh : ∀ pool, start.pools pool = (objects pool).state) {schedule : List ι}
    {turns : List (Turn Command Command.Response Exchange RequestPhase (Pooled τ) ι)}
    {last : Threads Command Command.Response Exchange RequestPhase (Pooled τ) ι}
    (ran : (interleaving (fun _ => requestProtocol) (Pooled.handler environment)).run
      (requestThreads app rounds requests start) schedule = .ok (last, turns)) :
    (last.Follow (fun _ => requestProtocol) fun _ _ reached => reached = .idle) ∧
      AccountedPools (fun pool => (objects pool).created) last.phases last.shared := by
  have follows : (requestThreads app rounds requests start).Follow (fun _ => requestProtocol)
      fun _ _ reached => reached = .idle :=
    fun i => staysIdle_handle app rounds (requests i).1 (requests i).2
  exact Threads.invariant_of_run (AccountedPools fun pool => (objects pool).created)
    (fun _ => True)
    (fun _ _ _ _ _ allowed _ accounted answered => AccountedPools.step allowed accounted answered)
    follows (accounted_start constructs succeeded fresh) ran fun _ _ => trivial

/-- Requests of any number of threads, on pools with at least one connection each and over an
environment that answers every call, make a bounded number of calls together, whatever the
interleaving, with at most `rounds` draws of a new session id for each login.  As long as one
of them is neither answered nor at an end of the process (a null pointer, an exception that
leaves a `noexcept` function, or its draws spent) one of them can go on, and when none is,
both pools hold their connections and permits again. -/
theorem requests_end {ι τ : Type} [Fintype ι] [DecidableEq ι] {environment : BackendHandler τ}
    (answering : Answering environment) {numPool : Pool → Nat} {objects : Pool → PoolObject}
    (constructs : ∀ pool, Constructs pool (numPool pool) (objects pool))
    (succeeded : ∀ pool, (objects pool).error = none) (positive : ∀ pool, 0 < numPool pool)
    (app : Application) (rounds : Nat) (requests : ι → Endpoint × Exchange) {start : Pooled τ}
    (fresh : ∀ pool, start.pools pool = (objects pool).state) {schedule : List ι}
    {turns : List (Turn Command Command.Response Exchange RequestPhase (Pooled τ) ι)}
    {last : Threads Command Command.Response Exchange RequestPhase (Pooled τ) ι}
    (ran : (interleaving (fun _ => requestProtocol) (Pooled.handler environment)).run
      (requestThreads app rounds requests start) schedule = .ok (last, turns)) :
    schedule.length ≤ Fintype.card ι * ((4 * rounds + 13) * 10) ∧
      ((∃ i next, (interleaving (fun _ => requestProtocol) (Pooled.handler environment)).step
          last i = .ok next) ∨
        (∀ i, Ended (last.programs i)) ∧
          ∀ pool, (last.shared.pools pool).deque.Perm (objects pool).created ∧
            (last.shared.pools pool).semaphore = numPool pool) := by
  have bounded : ∀ i, CallsAtMost ((4 * rounds + 13) * 10)
      ((requestThreads app rounds requests start).programs i) := by
    intro i
    obtain ⟨caller, made, expanded⟩ := calls_handle app rounds (requests i).1 (requests i).2
    have whole := made.expand callsAtMost_body
    rwa [expanded] at whole
  have short := Threads.length_le_of_run bounded ran
  rw [Finset.sum_const_nat fun _ _ => rfl, Finset.card_univ] at short
  obtain ⟨follow, accounted⟩ := accounted_of_run constructs succeeded fresh ran
  refine ⟨short, or_iff_not_imp_left.mpr fun stuck => ?_⟩
  have size : ∀ pool, (objects pool).created.length = numPool pool := by
    intro pool
    rw [((constructs pool).of_succeeded (succeeded pool)).1, List.length_range]
  have nonempty : ∀ pool, (objects pool).created ≠ [] := by
    intro pool
    rw [ne_eq, ← List.length_eq_zero_iff, size]
    exact (positive pool).ne'
  obtain ⟨ended, whole⟩ := ended_of_stuck answering nonempty follow accounted
    fun i next stepped => stuck ⟨i, next, stepped⟩
  exact ⟨ended, fun pool => ⟨(whole pool).1, (whole pool).2.trans (size pool)⟩⟩

/-! ## Two requests without a session -/

def sampleSizes : Pool → Nat
  | .redis => 1
  | .postgres => 2

/-- A store with one context and a database with two clients. -/
def sampleObjects : Pool → PoolObject
  | .redis => RedisStore.construct (fun _ => some { err := 0, errstr := [] }) (sampleSizes .redis)
  | .postgres =>
      Postgres.construct (fun _ => some { status := .connectionOk, errorMessage := [] })
        (sampleSizes .postgres)

def sampleServers : Pooled World where
  pools pool := (sampleObjects pool).state
  rest := sampleWorld []

def userRequests : Bool → Endpoint × Exchange :=
  fun _ => (.user, sampleExchange [] [])

theorem answering_world (env : Environment) : Answering (World.handler env) := by
  intro command w plain
  cases command with
  | acquire => exact plain.1.elim
  | popFront => exact plain.1.elim
  | pushBack => exact plain.1.elim
  | release => exact plain.1.elim
  | nullDereference => exact absurd trivial plain.2
  | terminate => exact absurd trivial plain.2
  | outOfRounds => exact absurd trivial plain.2
  | _ => exact ⟨_, rfl⟩

/-- The second request waits for the only context until the first one has returned it. -/
theorem requests_end_sample : ∃ last turns,
    (interleaving (fun _ : Bool => requestProtocol)
        (Pooled.handler (World.handler sampleEnvironment))).run
      (requestThreads sampleApplication 1 userRequests sampleServers)
        [false, true, false, false, false, false, false, true, true, true, true, true, false,
          true] = .ok (last, turns) ∧
      (∀ i, Ended (last.programs i)) ∧
      ∀ pool, (last.shared.pools pool).deque.Perm (sampleObjects pool).created := by
  have ran : ((interleaving (fun _ : Bool => requestProtocol)
        (Pooled.handler (World.handler sampleEnvironment))).run
      (requestThreads sampleApplication 1 userRequests sampleServers)
        [false, true, false, false, false, false, false, true, true, true, true, true, false,
          true]).map
      (fun ended => decide (∀ i, (ended.1.programs i).result?.isSome = true)) = .ok true := by
    decide
  obtain ⟨last, turns, ended, shown⟩ := EventMachine.exists_of_view ran
  have constructs : ∀ pool, Constructs pool (sampleSizes pool) (sampleObjects pool) := by
    rintro (_ | _)
    · exact .redis _ _
    · exact .postgres _ _
  obtain ⟨-, ⟨i, next, stepped⟩ | ⟨all, whole⟩⟩ :=
    requests_end (answering_world sampleEnvironment) constructs
      (by rintro (_ | _) <;> rfl) (by rintro (_ | _) <;> decide) sampleApplication 1
      userRequests (fun _ => rfl) ended
  · -- A request that was answered cannot go on.
    obtain ⟨command, rest, _, _, calls, -⟩ := Threads.step_cases stepped
    have answered := of_decide_eq_true shown i
    rw [calls] at answered
    cases answered
  · exact ⟨last, turns, ended, all, fun pool => (whole pool).1⟩

end CleanArchitecture
