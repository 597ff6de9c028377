import CleanArchitecture.BlockedPrograms
import CleanArchitecture.EnvFile
import CleanArchitecture.RequestThreads

/-!
# The start of the server

`main` reads the sizes of the pools from the environment, opens them and runs the server.
A size of zero is no error: the server starts, and its requests wait for ever.
-/

namespace CleanArchitecture

open Program Backend Env

/-! ## Numbers -/

/-- Behind blanks and a sign, the value of the longest run of digits. -/
def leadingValue (s : Bytes) : Nat :=
  digitsValue ((splitSign (s.dropWhile isspace)).2.takeWhile isdigit)

def isNegative (s : Bytes) : Bool :=
  (splitSign (s.dropWhile isspace)).1

/-- `std::strtoul` in base ten: without digits it answers zero, out of range the largest
number, and a minus sign negates modulo the range. -/
def strtoul (s : Bytes) : Nat :=
  if 2 ^ 64 ≤ leadingValue s then 2 ^ 64 - 1
  else if isNegative s then toSizeT (-leadingValue s) else leadingValue s

/-- `std::strtol` in base ten, which stays at the ends of its range. -/
def strtol (s : Bytes) : Int :=
  max (-2 ^ 63) (min (2 ^ 63 - 1)
    (if isNegative s then -(leadingValue s : Int) else leadingValue s))

/-- Read as a `uint`, the text is zero. -/
def ReadsZero (s : Bytes) : Prop :=
  leadingValue s < 2 ^ 64 ∧ 2 ^ 32 ∣ leadingValue s

theorem toUint32_strtoul_eq_zero_iff {s : Bytes} : toUint32 (strtoul s) = 0 ↔ ReadsZero s := by
  unfold strtoul toUint32 toSizeT ReadsZero
  split
  · omega
  · split <;> omega

example : strtoul (ascii " 12 clients") = 12 := by decide

/-! ## The configuration -/

structure PostgresConfig where
  host : Bytes
  port : Bytes
  user : Bytes
  password : Bytes
  db : Bytes
  pool : Nat

/-- What the constructor of `Postgres` connects to. -/
def PostgresConfig.connection (config : PostgresConfig) : Bytes :=
  ascii "host=" ++ config.host ++ ascii " port=" ++ config.port ++ ascii " dbname=" ++ config.db ++
    ascii " user=" ++ config.user ++ ascii " password=" ++ config.password

structure StoreConfig where
  host : Bytes
  port : Int
  pool : Nat

section Configuration

variable (env : ProcessEnv)

def postgresConfig : PostgresConfig where
  host := getEnv env (ascii "PG_HOST") (ascii "127.0.0.1")
  port := getEnv env (ascii "PG_PORT") (ascii "5432")
  user := getEnv env (ascii "PG_USER") (ascii "postgres")
  password := getEnv env (ascii "PG_PASS") (ascii "password")
  db := getEnv env (ascii "PG_DB") (ascii "postgres")
  pool := toUint32 (strtoul (getEnv env (ascii "PG_POOL") (ascii "1")))

def storeConfig : StoreConfig where
  host := getEnv env (ascii "REDIS_HOST") (ascii "127.0.0.1")
  port := toInt32 (strtol (getEnv env (ascii "REDIS_PORT") (ascii "6379")))
  pool := toUint32 (strtoul (getEnv env (ascii "REDIS_POOL") (ascii "1")))

/-- The text that the size of a pool is read from. -/
def poolText : Pool → Bytes
  | .redis => getEnv env (ascii "REDIS_POOL") (ascii "1")
  | .postgres => getEnv env (ascii "PG_POOL") (ascii "1")

/-- The number of threads that the server is asked for. -/
def serverPool : Nat :=
  toUint32 (strtoul (getEnv env (ascii "POOL") (ascii "1")))

end Configuration

/-! ## The program -/

/-- `Log::to_string`. -/
def Log.toString (log : Log) : Bytes :=
  (if log.file ≠ [] then ascii "\n> File: " ++ log.file else []) ++
    (if log.function ≠ [] then ascii "\n> Function: " ++ log.function else []) ++
    (if log.db ≠ [] then
      ascii "\n> Db: " ++ log.db ++
        (if log.dbContraint ≠ [] then ascii " -> Constraint: " ++ log.dbContraint else [])
    else []) ++
    (if log.errors ≠ [] then
      ascii "\n> Errors:" ++ log.errors.flatMap (ascii "\n==> " ++ ·)
    else []) ++
    (if log.msg ≠ [] then ascii "\n> Message: " ++ log.msg else [])

/-- What the process finds: the environment file and the variables, what its attempts to
connect give, the cores, and whether the server can listen on its address. -/
structure Surroundings where
  file : Option Bytes
  env : ProcessEnv
  pqConnectdb : Bytes → Nat → Option PgConn
  redisConnect : Bytes → Int → Nat → Option RedisContext
  hardwareConcurrency : Nat
  listens : Bytes → Bytes → Bool

/-- The process ends with a code and what was logged as fatal, or serves. -/
inductive Outcome
  | exits (code : Int) (fatal : Option Bytes)
  | serves (threads : Nat) (store postgres : PoolObject)

namespace Surroundings

variable (w : Surroundings)

def initPostgres (config : PostgresConfig) : PoolObject :=
  Postgres.construct (w.pqConnectdb (cStr config.connection)) config.pool

def initStore (config : StoreConfig) : PoolObject :=
  RedisStore.construct (w.redisConnect (cStr config.host) config.port) config.pool

/-- The server takes no more threads than there are cores. -/
def numThreads (env : ProcessEnv) : Nat :=
  if serverPool env > w.hardwareConcurrency then w.hardwareConcurrency else serverPool env

/-- The constructor of the server and its `run`, which returns at once when there is no
thread to run in.  An exception of the constructor is caught. -/
def runServer (env : ProcessEnv) (store postgres : PoolObject) : Outcome :=
  if w.listens (getEnv env (ascii "HOST") (ascii "127.0.0.1"))
      (getEnv env (ascii "PORT") (ascii "5000")) then
    if w.numThreads env = 0 then .exits 0 none else .serves (w.numThreads env) store postgres
  else .exits 0 none

def main : Except StdException Outcome := do
  let env ← initEnv w.file w.env
  let postgres := w.initPostgres (postgresConfig env)
  match postgres.error with
  | some err => return .exits (-1) (some err.toString)
  | none =>
      let store := w.initStore (storeConfig env)
      match store.error with
      | some err => return .exits (-1) (some err.toString)
      | none => return w.runServer env store postgres

variable {w}

theorem runServer_serves {env : ProcessEnv} {store postgres store' postgres' : PoolObject}
    {threads : Nat} (serves : w.runServer env store postgres = .serves threads store' postgres') :
    store' = store ∧ postgres' = postgres ∧ 0 < threads := by
  unfold runServer at serves
  split at serves
  · split at serves
    · cases serves
    · rename_i some_thread
      cases serves
      exact ⟨rfl, rfl, Nat.pos_of_ne_zero some_thread⟩
  · cases serves

/-- Before it serves, the process has opened both pools, of the sizes it was asked for, and
it has a thread. -/
theorem opened_of_serves {env : ProcessEnv} (read : initEnv w.file w.env = .ok env)
    {threads : Nat} {store postgres : PoolObject}
    (started : w.main = .ok (.serves threads store postgres)) :
    (store = w.initStore (storeConfig env) ∧ store.error = none) ∧
      (postgres = w.initPostgres (postgresConfig env) ∧ postgres.error = none) ∧ 0 < threads := by
  unfold main at started
  rw [read] at started
  dsimp only [Bind.bind, Except.bind, Pure.pure, Except.pure] at started
  split at started
  · cases started
  · rename_i connected
    split at started
    · cases started
    · rename_i stored
      obtain ⟨rfl, rfl, some_thread⟩ := runServer_serves (Except.ok.inj started)
      exact ⟨⟨rfl, stored⟩, ⟨rfl, connected⟩, some_thread⟩

end Surroundings

/-! ## Requests without connections -/

section Behind

variable {allowed : Command → Prop} {pool : Pool}

theorem behind_acquire :
    Behind allowed (· = .acquire pool) (fun _ => False) (acquire pool) :=
  behind_perform rfl

/-- No command is sent without a context. -/
theorem behind_command (args : List Bytes) :
    Behind allowed (· = .acquire .redis) (fun _ => False) (RedisStore.command args) := by
  have context : Behind allowed (· = .acquire .redis) (fun _ => False) RedisStore.getContext :=
    behind_acquire.blocks _
  exact context.blocks _

/-- No query is executed without a client. -/
theorem behind_query (statement : PostgresStatement) (values : List Bytes) (formats : List Int) :
    Behind allowed (· = .acquire .postgres) (fun _ => False)
      (Postgres.query statement values formats) := by
  have client : Behind allowed (· = .acquire .postgres) (fun _ => False) Postgres.getClient :=
    behind_acquire.blocks _
  have result : Behind allowed (· = .acquire .postgres) (fun _ => False)
      (Postgres.queryWithFallback statement values formats) := client.blocks _
  exact result.blocks _

end Behind

open WrapperRequest WrapperResponse

/-- Every request asks first whether its session is in the store. -/
theorem behind_isAuthImpl (ex : Exchange) :
    Behind (fun command => ¬ command.IsAbort) (· = .acquire .redis) (fun _ => False)
      (isAuthImpl ex) := by
  have key : Behind (fun command => ¬ command.IsAbort) (· = .acquire .redis) (fun _ => True)
      (getSessionKey ex) := by
    by_cases session : ex.req.sessionId ≠ []
    · rw [getSessionKey_of_session session]
      exact behind_pure trivial
    · rw [getSessionKey, getSessionIdImpl, if_neg session]
      exact .inr ⟨id, fun _ => trivial⟩
  refine key.bind fun keyed _ => ?_
  have replied : Behind (fun command => ¬ command.IsAbort) (· = .acquire .redis) (fun _ => False)
      (IStore.exists keyed.1) := (behind_command _).blocks _
  exact replied.blocks _

theorem behind_handle (app : Application) (rounds : Nat) (endpoint : Endpoint) (ex : Exchange) :
    Behind (fun command => ¬ command.IsAbort) (· = .acquire .redis) (fun _ => False)
      (endpoint.handle app rounds ex) := by
  cases endpoint with
  | login => exact ((behind_isAuthImpl ex).blocks _).blocks _
  | _ => exact (behind_isAuthImpl ex).blocks _

/-- A login without a database finds no user. -/
theorem behind_authenticate (app : Application) (ex : Exchange) :
    Behind (fun _ => True) (· = .acquire .postgres)
      (fun found => found.1 = none ∧ found.2.res.status ≠ statusNoContent)
      (LoginAuthUseCase.authenticate app ex) := by
  have unauthorized : statusUnauthorized ≠ statusNoContent := by decide
  apply (behind_anything (isAuthImpl ex)).bind
  rintro ⟨auth, keyed⟩ _
  cases auth with
  | true => exact behind_pure ⟨rfl, (by decide : statusForbidden ≠ statusNoContent)⟩
  | false =>
      apply (behind_anything (LoginAuthUseCase.parseBody app.libraries keyed.req)).bind
      intro body _
      cases body with
      | error log => exact behind_pure ⟨rfl, unauthorized⟩
      | ok body =>
          dsimp only
          split
          · exact behind_pure ⟨rfl, unauthorized⟩
          · have checked : Behind (fun _ => True) (· = .acquire .postgres) (fun _ => False)
                (LoginAuthUseCase.checkUser app body) :=
              ((behind_query _ _ _).blocks _).blocks _
            exact checked.blocks _

/-- A registration without a database adds no user. -/
theorem behind_addUser (app : Application) (body : AuthBody) (ex : Exchange) :
    Behind (fun _ => True) (· = .acquire .postgres) (fun ex' => ex'.res.status ≠ statusCreated)
      (RegisterAuthUseCase.addUser app body ex) := by
  have badRequest : statusBadRequest ≠ statusCreated := by decide
  unfold RegisterAuthUseCase.addUser
  split
  · exact behind_pure badRequest
  · split
    · exact behind_pure badRequest
    · apply (behind_anything _).bind
      rintro ⟨log, user⟩ _
      cases log with
      | some log => exact behind_pure badRequest
      | none =>
          have added : Behind (fun _ => True) (· = .acquire .postgres) (fun _ => False)
              (app.userDb.addUserImpl user) := (behind_query _ _ _).blocks _
          exact added.blocks _

theorem behind_register (app : Application) (ex : Exchange) :
    Behind (fun _ => True) (· = .acquire .postgres) (fun ex' => ex'.res.status ≠ statusCreated)
      (RegisterAuthUseCase.execute app ex) := by
  have badRequest : statusBadRequest ≠ statusCreated := by decide
  apply (behind_anything (isAuthImpl ex)).bind
  rintro ⟨auth, keyed⟩ _
  cases auth with
  | true => exact behind_pure (by decide : statusForbidden ≠ statusCreated)
  | false =>
      dsimp only
      rw [if_neg Bool.false_ne_true]
      split
      · exact behind_pure badRequest
      · split
        · exact behind_pure badRequest
        · exact behind_addUser app _ _

/-- The answers that take a query: a login's 204 and a registration's 201. -/
def NeedsDatabase (endpoint : Endpoint) (ex : Exchange) : Prop :=
  endpoint = .login ∧ ex.res.status = statusNoContent ∨
    endpoint = .register ∧ ex.res.status = statusCreated

theorem behind_needsDatabase (app : Application) (rounds : Nat) (endpoint : Endpoint)
    (ex : Exchange) :
    Behind (fun _ => True) (· = .acquire .postgres) (fun ex' => ¬ NeedsDatabase endpoint ex')
      (endpoint.handle app rounds ex) := by
  cases endpoint with
  | user => exact (behind_anything _).mono fun _ _ needs => by simp [NeedsDatabase] at needs
  | logout => exact (behind_anything _).mono fun _ _ needs => by simp [NeedsDatabase] at needs
  | login =>
      apply (behind_authenticate app ex).bind
      rintro ⟨found, authenticated⟩ ⟨rfl, rejected⟩
      exact behind_pure (by simpa [NeedsDatabase] using rejected)
  | register =>
      exact (behind_register app ex).mono fun _ failed => by simpa [NeedsDatabase] using failed

/-! ## What the sizes decide -/

/-- The pools of a process that serves. -/
def servedPools (store postgres : PoolObject) : Pool → PoolObject
  | .redis => store
  | .postgres => postgres

theorem constructs_of_serves {w : Surroundings} {env : ProcessEnv}
    (read : initEnv w.file w.env = .ok env) {threads : Nat} {store postgres : PoolObject}
    (started : w.main = .ok (.serves threads store postgres)) (pool : Pool) :
    Constructs pool (toUint32 (strtoul (poolText env pool))) (servedPools store postgres pool) ∧
      (servedPools store postgres pool).error = none := by
  obtain ⟨⟨rfl, stored⟩, ⟨rfl, connected⟩, -⟩ := Surroundings.opened_of_serves read started
  cases pool with
  | redis => exact ⟨.redis _ _, stored⟩
  | postgres => exact ⟨.postgres _ _, connected⟩

/-- A pool without connections gives no permit, whatever its callers do. -/
theorem AccountedPools.acquire_of_empty {ι τ : Type} [Fintype ι] {opened : Pool → List Nat}
    {phases : ι → RequestPhase} {shared : Pooled τ}
    (accounted : AccountedPools opened phases shared) {pool : Pool} (empty : opened pool = [])
    (environment : BackendHandler τ) :
    Pooled.handler environment (.acquire pool) shared = none := by
  have permits := (accounted pool).permits
  rw [empty, List.length_nil] at permits
  have none_left : (shared.pools pool).semaphore = 0 := by omega
  rw [Pooled.handler, none_left]
  rfl

/-- What the variables of the environment decide.  If the server starts and is serving, the
texts that the sizes of its pools are read from decide about all requests to the four endpoints
in all interleavings.  If neither is read as zero, no interleaving gets stuck before every
request has ended.  If that of the store is, no request to an endpoint is ever answered or
comes to an end of the process; and if that of the database is, no login and no registration
ever succeeds. -/
theorem sizes_decide {w : Surroundings} {env : ProcessEnv} (read : initEnv w.file w.env = .ok env)
    {threads : Nat} {store postgres : PoolObject}
    (started : w.main = .ok (.serves threads store postgres)) {ι τ : Type} [Fintype ι]
    [DecidableEq ι] {environment : BackendHandler τ} (answering : Answering environment)
    (app : Application) (rounds : Nat) (requests : ι → Endpoint × Exchange) {start : Pooled τ}
    (fresh : ∀ pool, start.pools pool = (servedPools store postgres pool).state)
    {schedule : List ι}
    {turns : List (Turn Command Command.Response Exchange RequestPhase (Pooled τ) ι)}
    {last : Threads Command Command.Response Exchange RequestPhase (Pooled τ) ι}
    (ran : (interleaving (fun _ => requestProtocol) (Pooled.handler environment)).run
      (requestThreads app rounds requests start) schedule = .ok (last, turns)) :
    ((∀ pool, ¬ ReadsZero (poolText env pool)) →
      (∃ i next, (interleaving (fun _ => requestProtocol) (Pooled.handler environment)).step
        last i = .ok next) ∨ ∀ i, Ended (last.programs i)) ∧
    (ReadsZero (poolText env .redis) → ∀ i, ¬ Ended (last.programs i)) ∧
    (ReadsZero (poolText env .postgres) → ∀ i ex, last.programs i = .done ex →
      ¬ NeedsDatabase (requests i).1 ex) := by
  have constructs := fun pool => (constructs_of_serves read started pool).1
  have succeeded := fun pool => (constructs_of_serves read started pool).2
  have created : ∀ pool,
      (servedPools store postgres pool).created = [] ↔ ReadsZero (poolText env pool) := by
    intro pool
    rw [((constructs pool).of_succeeded (succeeded pool)).1, List.range_eq_nil,
      toUint32_strtoul_eq_zero_iff]
  have initial := accounted_start (ι := ι) constructs succeeded fresh
  have follows : (requestThreads app rounds requests start).Follow (fun _ => requestProtocol)
      fun _ _ reached => reached = .idle :=
    fun i => staysIdle_handle app rounds (requests i).1 (requests i).2
  -- The threads stay behind the calls that ask an empty pool for a permit.
  have stays : ∀ {allowed : Command → Prop} {reached : ι → Exchange → Prop} (pool : Pool),
      ReadsZero (poolText env pool) →
      (∀ i, Behind allowed (· = .acquire pool) (reached i)
        ((requests i).1.handle app rounds (requests i).2)) →
      ∀ i, Behind allowed (· = .acquire pool) (reached i) (last.programs i) := by
    intro allowed reached pool zero behind
    refine Threads.behind_of_run
      (AccountedPools fun pool => (servedPools store postgres pool).created)
      (fun _ _ _ _ _ _ allowed accounted answered => AccountedPools.step allowed accounted answered)
      ?_ follows initial behind ran
    rintro phases shared command accounted rfl
    exact accounted.acquire_of_empty ((created pool).mpr zero) environment
  refine ⟨fun positive => ?_, fun zero i => ?_, fun zero i ex done => ?_⟩
  · obtain ⟨follow, accounted⟩ := accounted_of_run constructs succeeded fresh ran
    refine or_iff_not_imp_left.mpr fun stuck => ?_
    exact (ended_of_stuck answering (fun pool empty => positive pool ((created pool).mp empty))
      follow accounted fun i next stepped => stuck ⟨i, next, stepped⟩).1
  · have here := stays .redis zero (fun i => behind_handle app rounds _ _) i
    rintro (⟨ex, done⟩ | ⟨command, next, calls, aborts⟩)
    · rw [done] at here
      exact here
    · rw [calls] at here
      rcases here with rfl | ⟨survives, -⟩
      · exact aborts
      · exact survives aborts
  · have here := stays .postgres zero (fun i => behind_needsDatabase app rounds _ _) i
    rw [done] at here
    exact here

/-! ## A store without contexts -/

/-- Everything answers, but the size of the store's pool is no number. -/
def sampleSurroundings : Surroundings where
  file := some (ascii "PG_POOL=2\nREDIS_POOL=off\n")
  env := emptyEnv
  pqConnectdb _ _ := some { status := .connectionOk, errorMessage := [] }
  redisConnect _ _ _ := some { err := 0, errstr := [] }
  hardwareConcurrency := 4
  listens _ _ := true

def sampleVariables : ProcessEnv :=
  (initEnv sampleSurroundings.file sampleSurroundings.env).toOption.getD emptyEnv

def sampleStore : PoolObject :=
  sampleSurroundings.initStore (storeConfig sampleVariables)

def samplePostgres : PoolObject :=
  sampleSurroundings.initPostgres (postgresConfig sampleVariables)

def sampleServed : Pooled World where
  pools pool := (servedPools sampleStore samplePostgres pool).state
  rest := sampleWorld []

/-- The server starts, and two requests draw their session ids and wait. -/
theorem sizes_decide_sample : ∃ last turns,
    sampleSurroundings.main = .ok (.serves 1 sampleStore samplePostgres) ∧
      (interleaving (fun _ : Bool => requestProtocol)
          (Pooled.handler (World.handler sampleEnvironment))).run
        (requestThreads sampleApplication 1 userRequests sampleServed) [false, true] =
          .ok (last, turns) ∧
      ∀ i, ¬ Ended (last.programs i) := by
  have ran : ((interleaving (fun _ : Bool => requestProtocol)
      (Pooled.handler (World.handler sampleEnvironment))).run
        (requestThreads sampleApplication 1 userRequests sampleServed) [false, true]).map
      (fun _ => true) = .ok true := by
    decide +kernel
  obtain ⟨last, turns, ended, -⟩ := EventMachine.exists_of_view ran
  have read : initEnv sampleSurroundings.file sampleSurroundings.env = .ok sampleVariables := rfl
  have started : sampleSurroundings.main = .ok (.serves 1 sampleStore samplePostgres) := rfl
  have zero : ReadsZero (poolText sampleVariables .redis) := by
    unfold ReadsZero
    decide +kernel
  obtain ⟨-, unanswered, -⟩ := sizes_decide read started (answering_world sampleEnvironment)
    sampleApplication 1 userRequests (fun _ => rfl) ended
  exact ⟨last, turns, started, ended, unanswered zero⟩

end CleanArchitecture
