import CleanArchitecture.ConnectionPool
import CleanArchitecture.Interleaving
import CleanArchitecture.SampleWorld
import Mathlib.Algebra.Order.BigOperators.Group.Finset

/-!
# Callers of the pools

A caller takes a permit and then a connection, and puts the connection back before
the permit.  Between these steps other callers take theirs.  The connections in the
pool and in the callers' hands are those that were opened, and there are at least as
many of them in the pool as permits left.
-/

namespace CleanArchitecture

open Program Backend

/-! ## The pools -/

/-- The count of a pool's semaphore and its deque. -/
structure PoolState where
  semaphore : Nat
  deque : List Nat
  deriving DecidableEq

/-- Both pools, and the state of everything else. -/
structure Pooled (τ : Type) where
  pools : Pool → PoolState
  rest : τ

namespace Pooled

variable {τ : Type}

def set (s : Pooled τ) (pool : Pool) (state : PoolState) : Pooled τ :=
  { s with pools := Function.update s.pools pool state }

@[simp] theorem set_pools_self (s : Pooled τ) (pool : Pool) (state : PoolState) :
    (s.set pool state).pools pool = state :=
  Function.update_self ..

theorem set_pools_of_ne (s : Pooled τ) {pool used : Pool} (other : pool ≠ used)
    (state : PoolState) : (s.set used state).pools pool = s.pools pool :=
  Function.update_of_ne other ..

/-- The steps of the pools.  A caller without a permit waits, and a deque has no front
when it is empty.  Another environment answers all other calls. -/
def handler (environment : BackendHandler τ) : BackendHandler (Pooled τ)
  | .acquire pool, s =>
      if 0 < (s.pools pool).semaphore then
        some ((), s.set pool { s.pools pool with semaphore := (s.pools pool).semaphore - 1 })
      else none
  | .popFront pool, s =>
      match (s.pools pool).deque with
      | [] => none
      | front :: deque => some (front, s.set pool { s.pools pool with deque := deque })
  | .pushBack pool connection, s =>
      some ((), s.set pool { s.pools pool with deque := (s.pools pool).deque ++ [connection] })
  | .release pool, s =>
      some ((), s.set pool { s.pools pool with semaphore := (s.pools pool).semaphore + 1 })
  | command, s =>
      (environment command s.rest).map (Prod.map id fun rest => { s with rest := rest })

end Pooled

/-- The object that the constructor of a pool's class leaves. -/
inductive Constructs : Pool → Nat → PoolObject → Prop
  | redis (attempts : Nat → Option RedisContext) (numPool : Nat) :
      Constructs .redis numPool (RedisStore.construct attempts numPool)
  | postgres (attempts : Nat → Option PgConn) (numPool : Nat) :
      Constructs .postgres numPool (Postgres.construct attempts numPool)

def PoolObject.state (object : PoolObject) : PoolState :=
  { semaphore := object.semaphore, deque := object.pool }

theorem ConnectionClass.construct_of_succeeded {κ : Type} {cls : ConnectionClass κ}
    (null : cls.FailsNull) {attempts : Nat → Option κ} {numPool : Nat}
    (succeeded : (cls.construct attempts numPool).error = none) :
    cls.construct attempts numPool =
      { pool := List.range numPool, semaphore := numPool, created := List.range numPool } := by
  rcases construct_cases null attempts numPool with ⟨-, whole⟩ | ⟨k, -, -, -, stopped⟩
  · exact whole
  · rw [stopped] at succeeded
    cases succeeded

/-- A constructor that succeeds has opened as many connections as asked for, and all of
them are in the pool. -/
theorem Constructs.of_succeeded {pool : Pool} {numPool : Nat} {object : PoolObject}
    (constructs : Constructs pool numPool object) (succeeded : object.error = none) :
    object.created = List.range numPool ∧
      object.state = { semaphore := numPool, deque := object.created } := by
  cases constructs with
  | redis attempts =>
      rw [RedisStore.construct] at succeeded ⊢
      rw [ConnectionClass.construct_of_succeeded RedisStore.failsNull succeeded]
      exact ⟨rfl, rfl⟩
  | postgres attempts =>
      rw [Postgres.construct] at succeeded ⊢
      rw [ConnectionClass.construct_of_succeeded Postgres.failsNull succeeded]
      exact ⟨rfl, rfl⟩

/-! ## The callers -/

/-- Where a caller stands in a call. -/
inductive CallerPhase
  | idle
  | permitted
  | holding (connection : Nat)
  | returned
  deriving DecidableEq

def CallerPhase.held : CallerPhase → Multiset Nat
  | .holding connection => {connection}
  | _ => 0

def CallerPhase.permits : CallerPhase → Nat
  | .idle => 0
  | _ => 1

/-- The steps of a call on one pool, in their order. -/
def poolProtocol (pool : Pool) : Protocol Command Command.Response CallerPhase where
  allows phase
    | .acquire used => used = pool → phase = .idle
    | .popFront used => used = pool → phase = .permitted
    | .pushBack used connection => used = pool → phase = .holding connection
    | .release used => used = pool → phase = .returned
    | _ => True
  next phase
    | .acquire used => fun _ => if used = pool then .permitted else phase
    | .popFront used => fun connection => if used = pool then .holding connection else phase
    | .pushBack used _ => fun _ => if used = pool then .returned else phase
    | .release used => fun _ => if used = pool then .idle else phase
    | _ => fun _ => phase

/-- The calls that are no step of a pool. -/
def Command.IsUnpooled : Command → Prop
  | .acquire _ => False
  | .popFront _ => False
  | .pushBack _ _ => False
  | .release _ => False
  | _ => True

/-- What callers do: a command of the store, a query, or anything else. -/
inductive PoolCall
  | command (args : List Bytes)
  | query (statement : PostgresStatement) (values : List Bytes) (formats : List Int)
  | other (command : Command) (unpooled : command.IsUnpooled)

abbrev PoolCall.Answer : PoolCall → Type
  | .command _ => RedisReply
  | .query .. => Except Log (Option PgResult)
  | .other called _ => called.Response

def PoolCall.body : (call : PoolCall) → Backend call.Answer
  | .command args => RedisStore.command args
  | .query statement values formats => Postgres.query statement values formats
  | .other called _ => perform called

/-- A caller makes calls one after the other; each may depend on the answers so far. -/
abbrev Caller (α : Type) : Type :=
  Program PoolCall PoolCall.Answer α

section Protocol

variable {pool : Pool} {phase : CallerPhase} {α : Type}

/-- Calls that are no step of a pool leave the caller where it is. -/
theorem follows_unpooled {post : α → Prop} {program : Backend α}
    (unpooled : Within Command.IsUnpooled post program) :
    Follows (poolProtocol pool) (fun value reached => post value ∧ reached = phase) phase program := by
  apply unpooled.follows
  · intro command apart
    cases command <;> first | exact trivial | exact apart.elim
  · intro command response apart
    cases command <;> first | rfl | exact apart.elim

/-- The phase of a caller during a call on one of the pools: it is idle for the other. -/
def CallerPhase.during (phase : CallerPhase) (used pool : Pool) : CallerPhase :=
  if used = pool then phase else .idle

theorem CallerPhase.during_of_eq {used : Pool} (same : used = pool) :
    phase.during used pool = phase :=
  if_pos same

theorem follows_acquire (used : Pool) :
    Follows (poolProtocol pool) (fun _ reached => reached = CallerPhase.permitted.during used pool)
      .idle (acquire used) := by
  apply follows_perform
  · exact fun _ => rfl
  · exact fun _ => rfl

theorem follows_popFront (used : Pool) :
    Follows (poolProtocol pool)
      (fun connection reached => reached = (CallerPhase.holding connection).during used pool)
      (CallerPhase.permitted.during used pool) (popFront used) := by
  apply follows_perform
  · exact CallerPhase.during_of_eq
  · intro connection
    simp only [poolProtocol, CallerPhase.during]
    split <;> rfl

theorem follows_pushBack (used : Pool) (connection : Nat) :
    Follows (poolProtocol pool) (fun _ reached => reached = CallerPhase.returned.during used pool)
      ((CallerPhase.holding connection).during used pool) (pushBack used connection) := by
  apply follows_perform
  · exact CallerPhase.during_of_eq
  · intro response
    simp only [poolProtocol, CallerPhase.during]
    split <;> rfl

theorem follows_release (used : Pool) :
    Follows (poolProtocol pool) (fun _ reached => reached = .idle)
      (CallerPhase.returned.during used pool) (release used) := by
  apply follows_perform
  · exact CallerPhase.during_of_eq
  · intro response
    simp only [poolProtocol, CallerPhase.during]
    split <;> rfl

/-- Whatever is done with a connection between taking it and giving it back, the caller
is idle again afterwards if no step of a pool is made there. -/
theorem follows_pooled {β : Type} (used : Pool) {use : Nat → Backend α} {finish : α → Backend β}
    (unpooled : ∀ connection, Within Command.IsUnpooled (fun _ => True) (use connection))
    (rest : ∀ value,
      Follows (poolProtocol pool) (fun _ reached => reached = .idle) .idle (finish value)) :
    Follows (poolProtocol pool) (fun _ reached => reached = .idle) .idle
      (do
        let connection ← (do acquire used; popFront used)
        let value ← use connection
        (do pushBack used connection; release used)
        finish value) := by
  have taken : Follows (poolProtocol pool)
      (fun connection reached => reached = (CallerPhase.holding connection).during used pool) .idle
      (do acquire used; popFront used) := by
    apply (follows_acquire used).bind
    intro _ _ permitted
    exact permitted ▸ follows_popFront used
  have given : ∀ connection, Follows (poolProtocol pool) (fun _ reached => reached = .idle)
      ((CallerPhase.holding connection).during used pool)
      (do pushBack used connection; release used) := by
    intro connection
    apply (follows_pushBack used connection).bind
    intro _ _ returned
    exact returned ▸ follows_release used
  apply taken.bind
  intro connection _ held
  obtain rfl := held
  apply (follows_unpooled (unpooled connection)).bind
  intro value _ kept
  obtain ⟨-, rfl⟩ := kept
  apply (given connection).bind
  intro _ _ idle
  obtain rfl := idle
  exact rest value

theorem follows_dereference_idle (pointer : Option α) :
    Follows (poolProtocol pool) (fun _ reached => reached = .idle) .idle (dereference pointer) := by
  have read : Within Command.IsUnpooled (fun _ => True) (dereference pointer) := by
    refine (within_dereference pointer).mono ?_ fun _ _ => trivial
    rintro command rfl
    exact trivial
  exact (follows_unpooled read).mono fun _ _ kept => kept.2

theorem follows_storeCommand (args : List Bytes) :
    Follows (poolProtocol pool) (fun _ reached => reached = .idle) .idle
      (RedisStore.command args) :=
  follows_pooled .redis (fun _ => within_perform trivial) follows_dereference_idle

theorem follows_query (statement : PostgresStatement) (values : List Bytes) (formats : List Int) :
    Follows (poolProtocol pool) (fun _ reached => reached = .idle) .idle
      (Postgres.query statement values formats) := by
  have served : Follows (poolProtocol pool) (fun _ reached => reached = .idle) .idle
      (Postgres.queryWithFallback statement values formats) :=
    follows_pooled .postgres
      (fun client => Postgres.within_attempts _ _ _ client trivial trivial fun _ => trivial)
      fun _ => follows_pure rfl
  have cleared : ∀ result, Within Command.IsUnpooled (fun _ => True) (pqClear result) :=
    fun result => within_perform trivial
  apply served.bind
  intro result _ idle
  obtain rfl := idle
  split
  · exact (follows_unpooled (cleared result)).bind fun _ _ kept => follows_pure kept.2
  · exact follows_pure rfl

/-- Every caller takes the steps of its calls in order. -/
theorem follows_caller (caller : Caller α) :
    Follows (poolProtocol pool) (fun _ reached => reached = .idle) .idle
      (caller.expand PoolCall.body) := by
  refine follows_expand (fun call => ?_) caller
  cases call with
  | command args => exact follows_storeCommand args
  | query statement values formats => exact follows_query statement values formats
  | other command unpooled =>
      have called : Within Command.IsUnpooled (fun _ => True)
          (perform command : Backend command.Response) :=
        within_perform unpooled
      exact (follows_unpooled called).mono fun _ _ kept => kept.2

end Protocol

/-! ## The connections of a pool -/

section Safety

variable {ι : Type} [Fintype ι] {opened : List Nat} {phases : ι → CallerPhase} {state : PoolState}

/-- The opened connections are in the pool or in a caller's hands, and every caller that
is not idle has a permit. -/
structure Accounted (opened : List Nat) (phases : ι → CallerPhase) (state : PoolState) : Prop where
  connections : (state.deque : Multiset Nat) + ∑ i, (phases i).held = opened
  permits : state.semaphore + ∑ i, (phases i).permits = opened.length

theorem CallerPhase.card_held_le (phase : CallerPhase) : phase.held.card ≤ phase.permits := by
  cases phase <;> simp [held, permits]

theorem accounted_idle (opened : List Nat) :
    Accounted opened (fun _ : ι => .idle) { semaphore := opened.length, deque := opened } := by
  constructor
  · simp [CallerPhase.held]
  · simp [CallerPhase.permits]

namespace Accounted

/-- A caller with a permit and no connection finds one in the pool. -/
theorem deque_ne_nil (accounted : Accounted opened phases state) {i : ι}
    (permitted : phases i = .permitted) : state.deque ≠ [] := by
  intro empty
  have fewer : ∑ j, (phases j).held.card < ∑ j, (phases j).permits := by
    refine Finset.sum_lt_sum (fun j _ => (phases j).card_held_le) ⟨i, Finset.mem_univ i, ?_⟩
    rw [permitted]
    exact Nat.zero_lt_one
  have all := congrArg Multiset.card accounted.connections
  rw [Multiset.card_add, Multiset.card_sum, Multiset.coe_card, Multiset.coe_card, empty,
    List.length_nil] at all
  have permits := accounted.permits
  omega

theorem count_held (accounted : Accounted opened phases state) (connection : Nat) :
    state.deque.count connection + ∑ i, (phases i).held.count connection =
      opened.count connection := by
  have all := congrArg (Multiset.count connection) accounted.connections
  rwa [Multiset.count_add, Multiset.count_sum', Multiset.coe_count, Multiset.coe_count] at all

/-- A held connection is not in the pool. -/
theorem notMem_deque (accounted : Accounted opened phases state) (distinct : opened.Nodup) {i : ι}
    {connection : Nat} (holding : phases i = .holding connection) : connection ∉ state.deque := by
  intro pooled
  have total := accounted.count_held connection
  have once := List.nodup_iff_count_le_one.mp distinct connection
  have here : ∑ k ∈ {i}, (phases k).held.count connection ≤
      ∑ k, (phases k).held.count connection :=
    Finset.sum_le_sum_of_subset (Finset.subset_univ _)
  rw [Finset.sum_singleton, holding, CallerPhase.held, Multiset.count_singleton_self] at here
  have there := List.count_pos_iff.mpr pooled
  omega

/-- No two callers hold the same connection. -/
theorem holder_unique (accounted : Accounted opened phases state) (distinct : opened.Nodup)
    {i j : ι} {connection : Nat} (holding : phases i = .holding connection)
    (holding' : phases j = .holding connection) : i = j := by
  classical
  by_contra different
  have total := accounted.count_held connection
  have once := List.nodup_iff_count_le_one.mp distinct connection
  have both : ∑ k ∈ {i, j}, (phases k).held.count connection ≤
      ∑ k, (phases k).held.count connection :=
    Finset.sum_le_sum_of_subset (Finset.subset_univ _)
  rw [Finset.sum_pair different, holding, holding', CallerPhase.held,
    Multiset.count_singleton_self] at both
  omega

theorem of_idle (accounted : Accounted opened phases state) (idle : ∀ i, phases i = .idle) :
    state.deque.Perm opened ∧ state.semaphore = opened.length := by
  constructor
  · have all := accounted.connections
    simp only [idle, CallerPhase.held, Finset.sum_const_zero, add_zero] at all
    exact Multiset.coe_eq_coe.mp all
  · have permits := accounted.permits
    simpa only [idle, CallerPhase.permits, Finset.sum_const_zero, add_zero] using permits

variable [DecidableEq ι]

/-- A caller's step moves its connection between the pool and its hands, and its permit
between the semaphore and itself. -/
theorem update {i : ι} {phase : CallerPhase} {state' : PoolState}
    (accounted : Accounted opened phases state)
    (moved : (state'.deque : Multiset Nat) + phase.held = state.deque + (phases i).held)
    (passed : state'.semaphore + phase.permits = state.semaphore + (phases i).permits) :
    Accounted opened (Function.update phases i phase) state' := by
  have held := Threads.sum_update CallerPhase.held phases i phase
  have permits := Threads.sum_update CallerPhase.permits phases i phase
  constructor
  · rw [← accounted.connections]
    apply add_right_cancel (b := (phases i).held)
    calc
      (state'.deque : Multiset Nat) + ∑ j, (Function.update phases i phase j).held +
            (phases i).held =
          state'.deque + phase.held + ∑ j, (phases j).held := by rw [add_assoc, held]; abel
      _ = state.deque + (phases i).held + ∑ j, (phases j).held := by rw [moved]
      _ = state.deque + ∑ j, (phases j).held + (phases i).held := by abel
  · have before := accounted.permits
    omega

end Accounted

variable [DecidableEq ι] {τ : Type} {environment : BackendHandler τ} {pool : Pool}
  {s s' : Pooled τ}

/-- A call that is no step of the pool. -/
theorem Accounted.stay {i : ι} {phase : CallerPhase} (stays : phase = phases i)
    (kept : s'.pools pool = s.pools pool) (accounted : Accounted opened phases (s.pools pool)) :
    Accounted opened (Function.update phases i phase) (s'.pools pool) := by
  rwa [stays, Function.update_eq_self, kept]

theorem Pooled.pools_of_unpooled {command : Command} (unpooled : command.IsUnpooled)
    {response : command.Response}
    (answered : Pooled.handler environment command s = some (response, s')) :
    s'.pools = s.pools := by
  have elsewhere : (environment command s.rest).map
      (Prod.map id fun rest => { s with rest := rest }) = some (response, s') := by
    cases command <;> first | exact answered | exact unpooled.elim
  obtain ⟨answer, -, same⟩ := Option.map_eq_some_iff.mp elsewhere
  cases same
  rfl

/-- A step on the pool takes its caller to the next phase; a step on the other one leaves
the caller where it is. -/
theorem Accounted.move {i : ι} {used : Pool} {phase next : CallerPhase} {state : PoolState}
    (accounted : Accounted opened phases (s.pools pool)) (here : used = pool → phases i = phase)
    (moved : (state.deque : Multiset Nat) + next.held = (s.pools used).deque + phase.held)
    (passed : state.semaphore + next.permits = (s.pools used).semaphore + phase.permits) :
    Accounted opened (Function.update phases i (if used = pool then next else phases i))
      ((s.set used state).pools pool) := by
  by_cases same : used = pool
  · subst same
    rw [if_pos rfl, Pooled.set_pools_self]
    apply accounted.update
    · rw [here rfl]
      exact moved
    · rw [here rfl]
      exact passed
  · exact accounted.stay (if_neg same) (s.set_pools_of_ne (Ne.symm same) _)

/-- A step of a caller keeps the accounts of the pool. -/
theorem Accounted.step {i : ι} {command : Command} {response : command.Response}
    (allowed : (poolProtocol pool).allows (phases i) command)
    (accounted : Accounted opened phases (s.pools pool))
    (answered : Pooled.handler environment command s = some (response, s')) :
    Accounted opened
      (Function.update phases i ((poolProtocol pool).next (phases i) command response))
      (s'.pools pool) := by
  by_cases unpooled : command.IsUnpooled
  · refine accounted.stay ?_ (congrFun (Pooled.pools_of_unpooled unpooled answered) pool)
    cases command <;> first | rfl | exact unpooled.elim
  cases command with
  | acquire used =>
      simp only [Pooled.handler] at answered
      split at answered
      · rename_i positive
        cases answered
        apply accounted.move allowed
        · rfl
        · simp only [CallerPhase.permits]
          omega
      · cases answered
  | popFront used =>
      simp only [Pooled.handler] at answered
      split at answered
      · cases answered
      · rename_i front deque pooled
        cases answered
        apply accounted.move allowed
        · simp only [CallerPhase.held, pooled]
          rw [add_zero, ← Multiset.cons_coe, ← Multiset.singleton_add, add_comm]
        · rfl
  | pushBack used connection =>
      cases answered
      apply accounted.move allowed
      · simp only [CallerPhase.held]
        rw [add_zero, ← Multiset.coe_add, Multiset.coe_singleton]
      · rfl
  | release used =>
      cases answered
      apply accounted.move allowed
      · rfl
      · rfl
  | _ => exact absurd trivial unpooled

/-- The callers before their first calls. -/
def callers {α : Type} (programs : ι → Caller α) (start : Pooled τ) :
    Threads Command Command.Response α CallerPhase (Pooled τ) ι where
  programs i := (programs i).expand PoolCall.body
  phases _ := .idle
  shared := start

/-- In every interleaving of the callers' steps on a pool that was opened, a caller that
takes a connection finds one, no connection is held twice or both held and in the pool,
the pool and the callers have all of them, and all of them are in the pool when no call
is in progress. -/
theorem pool_safety {α : Type} {numPool : Nat} {object : PoolObject}
    (constructs : Constructs pool numPool object) (succeeded : object.error = none)
    {programs : ι → Caller α} {start : Pooled τ} (fresh : start.pools pool = object.state)
    {schedule : List ι} {turns : List (Turn Command Command.Response α CallerPhase (Pooled τ) ι)}
    {last : Threads Command Command.Response α CallerPhase (Pooled τ) ι}
    (ran : (interleaving (fun _ => poolProtocol pool) (Pooled.handler environment)).run
      (callers programs start) schedule = .ok (last, turns)) :
    object.created.Nodup ∧ object.created.length = numPool ∧
      (∀ i next, last.programs i = .call (.popFront pool) next →
        (last.shared.pools pool).deque ≠ []) ∧
      (∀ i connection, last.phases i = .holding connection →
        connection ∉ (last.shared.pools pool).deque ∧
          ∀ j, last.phases j = .holding connection → i = j) ∧
      ((last.shared.pools pool).deque : Multiset Nat) + ∑ i, (last.phases i).held =
        object.created ∧
      ((∀ i, last.phases i = .idle) →
        (last.shared.pools pool).deque.Perm object.created ∧
          (last.shared.pools pool).semaphore = numPool) := by
  obtain ⟨created, filled⟩ := constructs.of_succeeded succeeded
  have distinct : object.created.Nodup := created ▸ List.nodup_range
  have size : object.created.length = numPool := by rw [created, List.length_range]
  have initial : Accounted object.created (fun _ : ι => .idle) (start.pools pool) := by
    rw [fresh, filled, ← size]
    exact accounted_idle object.created
  obtain ⟨follow, accounted⟩ := Threads.invariant_of_run
    (fun phases s => Accounted object.created phases (s.pools pool)) (fun _ => True)
    (fun s i command response shared allowed _ accounted answered => accounted.step allowed answered)
    (fun i => follows_caller (programs i)) initial ran fun _ _ => trivial
  refine ⟨distinct, size, fun i next calls => ?_, fun i connection holding => ?_,
    accounted.connections, fun idle => ?_⟩
  · have here := follow i
    rw [calls] at here
    exact accounted.deque_ne_nil (here.1 rfl)
  · exact ⟨accounted.notMem_deque distinct holding, fun j => accounted.holder_unique distinct holding⟩
  · rw [← size]
    exact accounted.of_idle idle

end Safety

/-! ## Two callers of a pool -/

/-- A server with two contexts in its store's pool. -/
def sampleContexts : PoolObject :=
  RedisStore.construct (fun _ => some { err := 0, errstr := [] }) 2

def samplePools : Pooled World where
  pools _ := sampleContexts.state
  rest := sampleWorld []

/-- Each caller asks the store for its own key twice. -/
def sampleCaller (key : Bytes) : Caller RedisReply := do
  let _ ← perform (PoolCall.command [ascii "GET", key])
  perform (PoolCall.command [ascii "EXISTS", key])

def sampleCallers (caller : Bool) : Caller RedisReply :=
  sampleCaller (if caller then ascii "second" else ascii "first")

/-- Both callers take and return their contexts by turns. -/
theorem pool_safety_sample : ∃ last turns,
    (interleaving (fun _ : Bool => poolProtocol .redis)
        (Pooled.handler (World.handler sampleEnvironment))).run
      (callers sampleCallers samplePools) (List.replicate 10 [false, true]).flatten =
        .ok (last, turns) ∧
      (last.shared.pools .redis).deque.Perm [0, 1] ∧ (last.shared.pools .redis).semaphore = 2 := by
  have ran : ((interleaving (fun _ : Bool => poolProtocol .redis)
        (Pooled.handler (World.handler sampleEnvironment))).run
      (callers sampleCallers samplePools) (List.replicate 10 [false, true]).flatten).map
        (fun ended => decide (∀ i, ended.1.phases i = .idle)) = .ok true := by
    decide
  obtain ⟨last, turns, ended, idle⟩ := EventMachine.exists_of_view ran
  obtain ⟨-, -, -, -, -, whole⟩ :=
    pool_safety (.redis (fun _ => some { err := 0, errstr := [] }) 2) rfl rfl ended
  exact ⟨last, turns, ended, whole (of_decide_eq_true idle)⟩

end CleanArchitecture
