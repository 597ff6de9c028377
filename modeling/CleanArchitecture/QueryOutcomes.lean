import CleanArchitecture.PoolCalls
import CleanArchitecture.SampleWorld

/-!
# The outcomes of queries

A query executes its statement once or, after a fatal error and a preparation, twice.
Whatever succeeds and fails on the server, at most one of the executions succeeds, the
answer says whether one did, and every result is cleared once.
-/

namespace CleanArchitecture

open Program Backend

/-! ## Successes and results of a history -/

/-- An execution that took effect: its result has no error message. -/
def PgResult.Succeeded (result : PgResult) : Prop :=
  cStr result.errorMessage = [] ∧ result.status ≠ .fatalError

/-- An execution without effect. -/
def PgResult.Failed (result : PgResult) : Prop :=
  cStr result.errorMessage ≠ []

instance (result : PgResult) : Decidable result.Succeeded :=
  inferInstanceAs (Decidable (_ ∧ _))

/-- Whether a call is an execution that succeeded. -/
def executes : BackendEvent → Bool
  | ⟨.pqExecPrepared .., some result⟩ => decide result.Succeeded
  | _ => false

/-- The executions of a history that succeeded. -/
def successes (calls : List BackendEvent) : Nat :=
  calls.countP executes

/-- The results of libpq: what a call obtains and what it clears. -/
def pgResults : ResourceUse BackendEvent PgResult where
  gives
    | ⟨.pqExecPrepared .., result⟩ => result
    | ⟨.pqPrepare .., result⟩ => result
    | _ => none
  frees
    | ⟨.pqClear result, _⟩ => result
    | _ => none

/-! ## The two attempts -/

namespace Postgres

section Attempts

variable (client : Nat) (statement : PostgresStatement) (values : List Bytes) (formats : List Int)

def execCommand : Command :=
  .pqExecPrepared client (cStr statement.name) (toInt32 values.length) values
    (values.map fun value => toInt32 value.length) formats

def prepareCommand : Command :=
  .pqPrepare client (cStr statement.name) (cStr statement.query) (toInt32 statement.numParams)
    statement.paramTypes

/-- The calls on a client, and the result that is left of them. -/
inductive Attempted : List BackendEvent → PgResult → Prop
  | once {result : PgResult} (known : result.Succeeded ∨ result.Failed) :
      Attempted [⟨execCommand client statement values formats, some result⟩] result
  | unprepared {result : PgResult} {rtmp : Option PgResult} (failed : result.Failed) :
      Attempted
        [⟨execCommand client statement values formats, some result⟩,
          ⟨prepareCommand client statement, rtmp⟩, ⟨.pqClear rtmp, ()⟩] result
  | twice {first result : PgResult} {rtmp : Option PgResult} (failed : first.Failed)
      (known : result.Succeeded ∨ result.Failed) :
      Attempted
        [⟨execCommand client statement values formats, some first⟩,
          ⟨prepareCommand client statement, rtmp⟩, ⟨.pqClear (some first), ()⟩,
          ⟨execCommand client statement values formats, some result⟩, ⟨.pqClear rtmp, ()⟩] result

end Attempts

variable {client : Nat} {statement : PostgresStatement} {values : List Bytes} {formats : List Int}
  {calls : List BackendEvent} {result : PgResult}

theorem Attempted.known (attempted : Attempted client statement values formats calls result) :
    result.Succeeded ∨ result.Failed := by
  cases attempted with
  | once known => exact known
  | unprepared failed => exact .inr failed
  | twice _ known => exact known

theorem executes_exec (result : PgResult) :
    executes ⟨execCommand client statement values formats, some result⟩ = decide result.Succeeded :=
  rfl

/-- Only the last execution can have succeeded. -/
theorem Attempted.successes (attempted : Attempted client statement values formats calls result) :
    successes calls = if result.Succeeded then 1 else 0 := by
  have only : ∀ result : PgResult, CleanArchitecture.successes
      [⟨execCommand client statement values formats, some result⟩] =
        if result.Succeeded then 1 else 0 := by
    intro result
    by_cases succeeded : result.Succeeded
    · simp [CleanArchitecture.successes, executes_exec, succeeded]
    · simp [CleanArchitecture.successes, executes_exec, succeeded]
  cases attempted with
  | once known => exact only result
  | unprepared failed => exact only result
  | @twice first _ rtmp failed known =>
      have none : ¬ executes ⟨execCommand client statement values formats, some first⟩ := by
        rw [executes_exec, decide_eq_true_eq]
        exact fun succeeded => failed succeeded.1
      rw [CleanArchitecture.successes, List.countP_cons_of_neg none]
      exact only result

theorem erase_second (first second : PgResult) : [first, second].erase second = [first] := by
  by_cases same : first = second
  · rw [same, List.erase_cons_head]
  · rw [List.erase_cons_tail (by simpa using same), List.erase_cons_head]

/-- The result that is left is the only one that is not cleared. -/
theorem Attempted.live (attempted : Attempted client statement values formats calls result) :
    pgResults.live calls [] = some [result] := by
  cases attempted with
  | once known => rfl
  | @unprepared _ rtmp failed =>
      cases rtmp with
      | none => rfl
      | some prepared =>
          simp [ResourceUse.after, pgResults, execCommand, prepareCommand]
  | @twice first _ rtmp failed known =>
      cases rtmp with
      | none => simp [ResourceUse.after, pgResults, execCommand, prepareCommand]
      | some prepared =>
          simp [ResourceUse.after, pgResults, execCommand, prepareCommand, erase_second]

theorem successes_onConnection (client : Nat) (calls : List BackendEvent) :
    CleanArchitecture.successes (onConnection .postgres client calls) =
      CleanArchitecture.successes calls := by
  simp [CleanArchitecture.successes, onConnection, takeCalls, giveCalls, executes]

end Postgres

/-! ## Servers behind the pool -/

/-- Any pattern of successes and failures: an execution succeeds, or it fails without
effect; a preparation may fail; and the calls on the pool are answered as on a deque. -/
structure PgOutcomes {σ τ : Type} (h : BackendHandler σ) (pool : σ → List Nat) (tables : σ → τ) :
    Prop extends PoolCalls h .postgres pool tables where
  execute : ∀ client name nParams values lengths formats s, ∃ result s',
    h (.pqExecPrepared client name nParams values lengths formats) s = some (some result, s') ∧
      pool s' = pool s ∧ (result.Succeeded ∨ result.Failed ∧ tables s' = tables s)
  prepare : ∀ client name query nParams paramTypes s, ∃ rtmp s',
    h (.pqPrepare client name query nParams paramTypes) s = some (rtmp, s') ∧
      pool s' = pool s ∧ tables s' = tables s
  clear : ∀ result s, ∃ s', h (.pqClear result) s = some ((), s') ∧
    pool s' = pool s ∧ tables s' = tables s

namespace PgOutcomes

open Postgres

variable {σ τ : Type} {h : BackendHandler σ} {pool : σ → List Nat} {tables : σ → τ}
  (outcomes : PgOutcomes h pool tables)

include outcomes

theorem ran_execPrepared (client : Nat) (statement : PostgresStatement) (values : List Bytes)
    (formats : List Int) (s : σ) :
    ∃ result s', Ran h (execPrepared client statement values formats) s
        [⟨execCommand client statement values formats, some result⟩] (some result) s' ∧
      (result.Succeeded ∨ result.Failed) ∧ pool s' = pool s ∧
        (result.Failed → tables s' = tables s) := by
  obtain ⟨result, s', answered, samePool, known⟩ := outcomes.execute client (cStr statement.name)
    (toInt32 values.length) values (values.map fun value => toInt32 value.length) formats s
  refine ⟨result, s', ran_perform answered, ?_, samePool, ?_⟩
  · rcases known with succeeded | failed
    · exact .inl succeeded
    · exact .inr failed.1
  · intro failed
    rcases known with succeeded | ⟨-, same⟩
    · exact absurd succeeded.1 failed
    · exact same

/-- The calls between taking a client and giving it back. -/
theorem ran_attempts (client : Nat) (statement : PostgresStatement) (values : List Bytes)
    (formats : List Int) (s : σ) :
    ∃ calls result last,
      Ran h (attempts client statement values formats) s calls (some result) last ∧
        Attempted client statement values formats calls result ∧ pool last = pool s ∧
          (result.Failed → tables last = tables s) := by
  obtain ⟨first, s₁, ranFirst, known, pool₁, tables₁⟩ :=
    outcomes.ran_execPrepared client statement values formats s
  by_cases fatal : pqResultStatus (some first) = .fatalError
  · have failed : first.Failed := by
      rcases known with succeeded | failed
      · exact absurd fatal succeeded.2
      · exact failed
    obtain ⟨rtmp, s₂, prepared, pool₂, tables₂⟩ := outcomes.prepare client (cStr statement.name)
      (cStr statement.query) (toInt32 statement.numParams) statement.paramTypes s₁
    by_cases ready : pqResultStatus rtmp = .commandOk
    · obtain ⟨s₃, cleared, pool₃, tables₃⟩ := outcomes.clear (some first) s₂
      obtain ⟨result, s₄, ranSecond, known, pool₄, tables₄⟩ :=
        outcomes.ran_execPrepared client statement values formats s₃
      obtain ⟨s₅, clearedRtmp, pool₅, tables₅⟩ := outcomes.clear rtmp s₄
      refine ⟨_, result, s₅, ?_, @Attempted.twice _ _ _ _ _ _ rtmp failed known, ?_, ?_⟩
      · unfold attempts
        apply ranFirst.bind
        rw [if_pos fatal]
        unfold fallback
        apply (ran_perform prepared).bind
        rw [if_pos ready]
        apply (ran_perform cleared).bind
        apply ranSecond.bind
        exact (ran_perform clearedRtmp).bind (ran_pure _ _)
      · rw [pool₅, pool₄, pool₃, pool₂, pool₁]
      · intro again
        rw [tables₅, tables₄ again, tables₃, tables₂, tables₁ failed]
    · obtain ⟨s₃, cleared, pool₃, tables₃⟩ := outcomes.clear rtmp s₂
      refine ⟨_, first, s₃, ?_, @Attempted.unprepared _ _ _ _ _ rtmp failed, ?_, ?_⟩
      · unfold attempts
        apply ranFirst.bind
        rw [if_pos fatal]
        unfold fallback
        apply (ran_perform prepared).bind
        rw [if_neg ready]
        exact (ran_perform cleared).bind (ran_pure _ _)
      · rw [pool₃, pool₂, pool₁]
      · intro _
        rw [tables₃, tables₂, tables₁ failed]
  · refine ⟨_, first, s₁, ?_, .once known, pool₁, tables₁⟩
    unfold attempts
    apply ranFirst.bind
    rw [if_neg fatal]
    exact ran_pure _ _

end PgOutcomes

/-! ## Sequences of queries -/

structure QueryCall where
  statement : PostgresStatement
  values : List Bytes
  formats : List Int

def QueryCall.query (call : QueryCall) : Backend (Except Log (Option PgResult)) :=
  Postgres.query call.statement call.values call.formats

/-- A call in a run: the states around it, what it called and what it returned. -/
structure QueryRecord (σ : Type) where
  call : QueryCall
  before : σ
  calls : List BackendEvent
  value : Except Log (Option PgResult)
  after : σ

/-- One call after the other. -/
def queryRun {σ : Type} (h : BackendHandler σ) :
    List QueryCall → σ → Option (List (QueryRecord σ) × σ)
  | [], s => some ([], s)
  | first :: rest, s =>
      match run h first.query s with
      | none => none
      | some (value, s') =>
          (queryRun h rest s').map fun (records, last) =>
            ({ call := first, before := s, calls := history h first.query s, value := value,
               after := s' } :: records, last)

/-- `PostgresResult::~PostgresResult`. -/
def dropValue : Except Log (Option PgResult) → Backend Unit
  | .ok result => pqClear result
  | .error _ => return ()

section Settled

variable {σ τ : Type} (h : BackendHandler σ) (pool : σ → List Nat) (tables : σ → τ)

/-- The calls of a record and of the drop of its value, from any state. -/
def QueryRecord.callsDropped (record : QueryRecord σ) (s : σ) : List BackendEvent :=
  record.calls ++ history h (dropValue record.value) s

/-- At most one execution succeeds and the value tells of it, an error leaves the tables
as they were, every result is cleared once, and the client is back in the pool. -/
structure QueryRecord.Settled (record : QueryRecord σ) : Prop where
  atMostOnce : successes record.calls ≤ 1
  value_iff : (∃ result, record.value = .ok result) ↔ successes record.calls = 1
  error_iff : (∃ log, record.value = .error log) ↔ successes record.calls = 0
  unchanged : (∃ log, record.value = .error log) → tables record.after = tables record.before
  settled : ∀ s, pgResults.live (record.callsDropped h s) [] = some []
  clearedOnce : ∀ s, ((record.callsDropped h s).filterMap pgResults.gives).Perm
    ((record.callsDropped h s).filterMap pgResults.frees)
  clientBack : ∃ client rest, pool record.before = client :: rest ∧
    (⟨.popFront .postgres, client⟩ : BackendEvent) ∈ record.calls ∧
      pool record.after = rest ++ [client]

end Settled

namespace PgOutcomes

open Postgres

variable {σ τ : Type} {h : BackendHandler σ} {pool : σ → List Nat} {tables : σ → τ}
  (outcomes : PgOutcomes h pool tables)

include outcomes

theorem ran_queryWithFallback {client : Nat} {rest : List Nat} {s : σ}
    (front : pool s = client :: rest) (statement : PostgresStatement) (values : List Bytes)
    (formats : List Int) :
    ∃ calls result last,
      Ran h (queryWithFallback statement values formats) s
          (onConnection .postgres client calls) (some result) last ∧
        Attempted client statement values formats calls result ∧ pool last = rest ++ [client] ∧
          (result.Failed → tables last = tables s) := by
  obtain ⟨s₁, taken, pool₁, tables₁⟩ := outcomes.toPoolCalls.ran_take front
  obtain ⟨calls, result, s₂, ran, attempted, pool₂, tables₂⟩ :=
    outcomes.ran_attempts client statement values formats s₁
  obtain ⟨s₃, given, pool₃, tables₃⟩ := outcomes.toPoolCalls.ran_give client s₂
  refine ⟨calls, result, s₃, ?_, attempted, ?_, ?_⟩
  · have last : Ran h (do releaseClient client; return some result) s₂
        (giveCalls .postgres client ++ []) (some result) s₃ :=
      given.bind (ran_pure (some result) s₃)
    rw [List.append_nil] at last
    unfold queryWithFallback
    exact taken.bind (ran.bind last)
  · rw [pool₃, pool₂, pool₁]
  · intro failed
    rw [tables₃, tables₂ failed, tables₁]

/-- A result with an error message is cleared by the query. -/
theorem ran_query {client : Nat} {rest : List Nat} {s : σ} (front : pool s = client :: rest)
    (statement : PostgresStatement) (values : List Bytes) (formats : List Int) :
    ∃ calls value last, Ran h (query statement values formats) s calls value last ∧
      (⟨.popFront .postgres, client⟩ : BackendEvent) ∈ calls ∧ pool last = rest ++ [client] ∧
        ((∃ result, value = .ok (some result) ∧ successes calls = 1 ∧
            pgResults.live calls [] = some [result]) ∨
          (∃ log, value = .error log) ∧ successes calls = 0 ∧
            pgResults.live calls [] = some [] ∧ tables last = tables s) := by
  obtain ⟨attempts, result, s₁, ran, attempted, pool₁, tables₁⟩ :=
    outcomes.ran_queryWithFallback front statement values formats
  have left : pgResults.live (onConnection .postgres client attempts) [] = some [result] :=
    live_onConnection rfl rfl attempted.live
  have count := (successes_onConnection client attempts).trans attempted.successes
  rcases attempted.known with succeeded | failed
  · refine ⟨onConnection .postgres client attempts ++ [], .ok (some result), s₁, ?_,
      List.mem_append_left _ popFront_mem_onConnection, pool₁, .inl ⟨result, rfl, ?_⟩⟩
    · unfold query
      apply ran.bind
      rw [pqResultErrorMessage, if_neg (not_not_intro succeeded.1)]
      exact ran_pure _ _
    · rw [List.append_nil]
      rw [if_pos succeeded] at count
      exact ⟨count, left⟩
  · have notSucceeded : ¬ result.Succeeded := fun succeeded => failed succeeded.1
    obtain ⟨s₂, cleared, pool₂, tables₂⟩ := outcomes.clear (some result) s₁
    refine ⟨onConnection .postgres client attempts ++ [⟨.pqClear (some result), ()⟩],
      .error (queryLog (some result)), s₂, ?_, List.mem_append_left _ popFront_mem_onConnection,
      pool₂.trans pool₁, .inr ⟨⟨_, rfl⟩, ?_, ?_, ?_⟩⟩
    · have message : cStr result.errorMessage ≠ [] := failed
      unfold query
      apply ran.bind
      rw [pqResultErrorMessage, if_pos message]
      exact (ran_perform cleared).bind (ran_pure _ _)
    · rw [if_neg notSucceeded] at count
      rw [successes, List.countP_append, ← successes, count]
      rfl
    · rw [ResourceUse.live_append, left]
      simp [ResourceUse.after, pgResults]
    · rw [tables₂, tables₁ failed]

/-- A query leaves everything settled, whatever the server answers. -/
theorem query_settled {client : Nat} {rest : List Nat} {s : σ} (front : pool s = client :: rest)
    (request : QueryCall) :
    ∃ value last, run h request.query s = some (value, last) ∧ pool last = rest ++ [client] ∧
      QueryRecord.Settled h pool tables
        { call := request, before := s, calls := history h request.query s, value := value,
          after := last } := by
  obtain ⟨calls, value, last, ⟨ran, called⟩, taken, back, known⟩ :=
    outcomes.ran_query front request.statement request.values request.formats
  have settled : ∀ s', pgResults.live (calls ++ history h (dropValue value) s') [] = some [] := by
    intro s'
    rw [ResourceUse.live_append]
    rcases known with ⟨result, rfl, -, left⟩ | ⟨⟨log, rfl⟩, -, left, -⟩
    · obtain ⟨s'', cleared, -⟩ := outcomes.clear (some result) s'
      have dropped : history h (dropValue (.ok (some result))) s' =
          [⟨.pqClear (some result), ()⟩] :=
        (ran_perform cleared).2
      rw [left, dropped]
      simp [ResourceUse.after, pgResults]
    · rw [left]
      rfl
  refine ⟨value, last, ran, back, ?_⟩
  rw [QueryCall.query, called]
  constructor
  case atMostOnce =>
    dsimp only
    rcases known with ⟨result, rfl, count, -⟩ | ⟨⟨log, rfl⟩, count, -⟩ <;> omega
  case value_iff =>
    dsimp only
    rcases known with ⟨result, rfl, count, -⟩ | ⟨⟨log, rfl⟩, count, -⟩ <;> simp [count]
  case error_iff =>
    dsimp only
    rcases known with ⟨result, rfl, count, -⟩ | ⟨⟨log, rfl⟩, count, -⟩ <;> simp [count]
  case unchanged =>
    rintro ⟨log, same⟩
    rcases known with ⟨result, rfl, -⟩ | ⟨-, -, -, unchanged⟩
    · cases same
    · exact unchanged
  case settled => exact settled
  case clearedOnce =>
    intro s'
    have once := ResourceUse.perm_of_live (settled s')
    rwa [List.nil_append, List.nil_append] at once
  case clientBack => exact ⟨client, rest, front, taken, back⟩

/-- Every call of every sequence of queries on a pool with a connection. -/
theorem queries_settled (requests : List QueryCall) {s : σ} (connected : pool s ≠ []) :
    ∃ records last, queryRun h requests s = some (records, last) ∧
      records.map QueryRecord.call = requests ∧
        ∀ record ∈ records, record.Settled h pool tables := by
  induction requests generalizing s with
  | nil => exact ⟨[], s, rfl, rfl, List.forall_mem_nil _⟩
  | cons request requests ih =>
      obtain ⟨client, rest, front⟩ := List.exists_cons_of_ne_nil connected
      obtain ⟨value, s', ran, back, settled⟩ := outcomes.query_settled front request
      obtain ⟨records, last, ranLater, same, later⟩ := ih (s := s') (by simp [back])
      refine ⟨
        { call := request, before := s, calls := history h request.query s, value := value,
          after := s' } :: records, last, ?_, ?_, ?_⟩
      · rw [queryRun, ran]
        dsimp only
        rw [ranLater]
        rfl
      · rw [List.map_cons, same]
      · rw [List.forall_mem_cons]
        exact ⟨settled, later⟩

end PgOutcomes

/-! ## The server with prepared statements -/

/-- A text takes effect without an error message, or fails without effect. -/
def SqlEngine.FailsWithoutEffect {τ : Type} (engine : SqlEngine τ) : Prop :=
  ∀ text params tables, (engine.execute text params tables).1.Succeeded ∨
    (engine.execute text params tables).1.Failed ∧
      (engine.execute text params tables).2 = tables

theorem failedResult_failed {message : String} (nonempty : cStr (ascii message) ≠ []) :
    (failedResult message).Failed :=
  nonempty

/-- Whatever is prepared on its connections. -/
theorem PgServer.outcomes {τ : Type} {engine : SqlEngine τ} (fails : engine.FailsWithoutEffect) :
    PgOutcomes (PgServer.handler engine) PgServer.pool PgServer.tables where
  acquire server _ := ⟨server, rfl, rfl, rfl⟩
  popFront server client rest front := by
    refine ⟨{ server with pool := rest }, ?_, rfl, rfl⟩
    rw [PgServer.handler, front]
  pushBack client server := ⟨_, rfl, rfl, rfl⟩
  release server := ⟨server, rfl, rfl, rfl⟩
  execute client name nParams values lengths formats server := by
    refine ⟨_, _, rfl, ?_⟩
    rw [PgServer.execPrepared]
    split
    · exact ⟨rfl, .inr ⟨failedResult_failed (by decide), rfl⟩⟩
    · split
      · exact ⟨rfl, fails _ _ server.tables⟩
      · exact ⟨rfl, .inr ⟨failedResult_failed (by decide), rfl⟩⟩
  prepare client name query nParams paramTypes server := by
    refine ⟨_, _, rfl, ?_⟩
    rw [PgServer.prepareName]
    split
    · exact ⟨rfl, rfl⟩
    · exact ⟨rfl, rfl⟩
  clear _ server := ⟨server, rfl, rfl, rfl⟩

theorem usersEngine_failsWithoutEffect (newId : List UserRow → Bytes) :
    (usersEngine newId).FailsWithoutEffect := by
  intro text params rows
  have malformed : (failedResult "ERROR:  syntax error").Failed :=
    failedResult_failed (by decide)
  have taken : takenResult.Failed := by
    change cStr (ascii _) ≠ []
    decide
  have succeeded : PgStatus.tuplesOk ≠ .fatalError := by decide
  simp only [usersEngine]
  split
  · split
    · exact .inl ⟨rfl, succeeded⟩
    · exact .inr ⟨malformed, rfl⟩
  · split
    · split
      · exact .inl ⟨rfl, succeeded⟩
      · exact .inr ⟨taken, rfl⟩
    · exact .inr ⟨malformed, rfl⟩
  · exact .inr ⟨malformed, rfl⟩

/-- An insertion, the same one again, and a lookup whose name stands for the insertion. -/
def sampleQueries : List QueryCall :=
  let added := [ascii "username1", ascii "hash"]
  [⟨sampleUserDb.addUserStatement, added, [0, 0]⟩, ⟨sampleUserDb.addUserStatement, added, [0, 0]⟩,
    ⟨sampleUserDb.getUserStatement, [ascii "username1"], [0]⟩]

theorem sampleQueries_settled :
    (sampleWorld []).postgres.pool ≠ [] ∧
      ∃ records last,
        queryRun (PgServer.handler (usersEngine sampleEnvironment.newId)) sampleQueries
            (sampleWorld []).postgres = some (records, last) ∧
          records.map QueryRecord.call = sampleQueries ∧
            ∀ record ∈ records, record.Settled
              (PgServer.handler (usersEngine sampleEnvironment.newId)) PgServer.pool
                PgServer.tables :=
  ⟨List.cons_ne_nil _ _,
    PgOutcomes.queries_settled (PgServer.outcomes (usersEngine_failsWithoutEffect _)) sampleQueries
      (List.cons_ne_nil _ _)⟩

end CleanArchitecture
