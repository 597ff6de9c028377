import CleanArchitecture.Postgres
import Mathlib.Data.List.Basic

/-!
# A PostgreSQL server with prepared statements

Every connection maps names of prepared statements to SQL texts.  Preparing a
name that is present fails, and so does executing an absent name or one whose
text has another number of parameters; neither has an effect.  What a text does
to the tables is a parameter.
-/

namespace CleanArchitecture

open Program

/-- What the server makes of SQL texts: whether it can prepare one, given the
number and the types of the parameters, how many parameters it has, and what its
execution answers and does to the tables. -/
structure SqlEngine (τ : Type) where
  accepts : Bytes → Int → List Nat → Bool
  parameters : Bytes → Int
  execute : Bytes → List Bytes → τ → PgResult × τ

/-- The clients in the pool, the statements prepared on each client and the
tables, with the texts executed so far. -/
structure PgServer (τ : Type) where
  pool : List Nat
  prepared : Nat → Bytes → Option Bytes
  tables : τ
  executed : List Bytes

/-- libpq sends a value in text format up to its NUL and one in binary format
with the given length. -/
def paramValues (values : List Bytes) (lengths formats : List Int) : List Bytes :=
  values.mapIdx fun i value =>
    if formats.getD i 0 = 0 then cStr value else value.take (lengths.getD i 0).toNat

/-- The result of a command that failed without effect. -/
def failedResult (message : String) : PgResult :=
  { status := .fatalError, errorMessage := ascii message }

namespace PgServer

variable {τ : Type} (engine : SqlEngine τ)

def execPrepared (client : Nat) (name : Bytes) (nParams : Int) (params : List Bytes)
    (server : PgServer τ) : PgResult × PgServer τ :=
  match server.prepared client name with
  | none => (failedResult "ERROR:  prepared statement does not exist", server)
  | some text =>
      if nParams = engine.parameters text then
        let answer := engine.execute text params server.tables
        (answer.1, { server with tables := answer.2, executed := server.executed ++ [text] })
      else
        (failedResult "ERROR:  bind message supplies a different number of parameters", server)

/-- The server after a text is prepared under a name. -/
def bindName (client : Nat) (name text : Bytes) (server : PgServer τ) : PgServer τ :=
  { server with
    prepared := Function.update server.prepared client
      (Function.update (server.prepared client) name (some text)) }

def prepareName (client : Nat) (name text : Bytes) (nParams : Int) (paramTypes : List Nat)
    (server : PgServer τ) : PgResult × PgServer τ :=
  if (server.prepared client name).isNone ∧ engine.accepts text nParams paramTypes = true then
    ({ status := .commandOk }, server.bindName client name text)
  else
    (failedResult "ERROR:  statement could not be prepared", server)

/-- The server answers libpq's calls; the pool's semaphore is never exhausted by
calls that are made one at a time. -/
def handler : BackendHandler (PgServer τ)
  | .acquire .postgres, server => some ((), server)
  | .popFront .postgres, server =>
      match server.pool with
      | [] => none
      | client :: rest => some (client, { server with pool := rest })
  | .pushBack .postgres client, server => some ((), { server with pool := server.pool ++ [client] })
  | .release .postgres, server => some ((), server)
  | .pqExecPrepared client name nParams values lengths formats, server =>
      let answer := server.execPrepared engine client name nParams
        (paramValues values lengths formats)
      some (some answer.1, answer.2)
  | .pqPrepare client name text nParams paramTypes, server =>
      let answer := server.prepareName engine client name text nParams paramTypes
      some (some answer.1, answer.2)
  | .pqClear _, server => some ((), server)
  | _, _ => none

@[simp] theorem bindName_prepared (client : Nat) (name text : Bytes) (server : PgServer τ) :
    (server.bindName client name text).prepared client name = some text := by
  simp [bindName]

/-- A name stands for a text that it stood for before, or for the new one. -/
theorem prepared_of_bindName {client c : Nat} {name n text t : Bytes} {server : PgServer τ}
    (present : (server.bindName client name text).prepared c n = some t) :
    server.prepared c n = some t ∨ t = text := by
  simp only [bindName] at present
  by_cases there : c = client
  · subst there
    rw [Function.update_self] at present
    by_cases named : n = name
    · subst named
      rw [Function.update_self] at present
      exact .inr (Option.some.inj present).symm
    · rw [Function.update_of_ne named] at present
      exact .inl present
  · rw [Function.update_of_ne there] at present
    exact .inl present

/-- What a query's statement is called on the server. -/
def prepareAbsent (client : Nat) (statement : PostgresStatement) (server : PgServer τ) :
    PgServer τ :=
  (server.prepareName engine client (cStr statement.name) (cStr statement.query)
    (toInt32 statement.numParams) statement.paramTypes).2

/-- One query by a client: its name is prepared if it is absent, then executed. -/
def answerQuery (client : Nat) (statement : PostgresStatement) (values : List Bytes)
    (formats : List Int) (server : PgServer τ) : PgResult × PgServer τ :=
  (server.prepareAbsent engine client statement).execPrepared engine client (cStr statement.name)
    (toInt32 values.length)
    (paramValues values (values.map fun value => toInt32 value.length) formats)

variable {engine}

@[simp] theorem failedResult_status (message : String) :
    (failedResult message).status = .fatalError :=
  rfl

theorem run_fallback (client : Nat) (statement : PostgresStatement) (values : List Bytes)
    (formats : List Int) (first : PgResult) (server : PgServer τ) :
    run (handler engine) (Postgres.fallback client statement values formats (some first)) server =
      if (server.prepared client (cStr statement.name)).isNone ∧
          engine.accepts (cStr statement.query) (toInt32 statement.numParams)
            statement.paramTypes = true then
        some (some (server.answerQuery engine client statement values formats).1,
          (server.answerQuery engine client statement values formats).2)
      else some (some first, server) := by
  simp only [Postgres.fallback, Postgres.execPrepared, run_bind, Backend.run_pqPrepare, handler,
    answerQuery, prepareAbsent, prepareName]
  split
  · simp [pqResultStatus, run_bind, handler]
  · simp [pqResultStatus, handler]

/-- A name that is absent fails first, and is executed after it is prepared. -/
theorem answerQuery_of_absent {client : Nat} {statement : PostgresStatement} {server : PgServer τ}
    (values : List Bytes) (formats : List Int)
    (absent : server.prepared client (cStr statement.name) = none)
    (refused : ¬ engine.accepts (cStr statement.query) (toInt32 statement.numParams)
      statement.paramTypes = true) :
    server.answerQuery engine client statement values formats =
      (failedResult "ERROR:  prepared statement does not exist", server) := by
  simp [answerQuery, prepareAbsent, prepareName, execPrepared, absent, refused]

/-- A name that is present is executed as it is. -/
theorem answerQuery_of_present {client : Nat} {statement : PostgresStatement} {server : PgServer τ}
    {text : Bytes} (values : List Bytes) (formats : List Int)
    (present : server.prepared client (cStr statement.name) = some text) :
    server.answerQuery engine client statement values formats =
      server.execPrepared engine client (cStr statement.name) (toInt32 values.length)
        (paramValues values (values.map fun value => toInt32 value.length) formats) := by
  simp [answerQuery, prepareAbsent, prepareName, present]

/-- A name that is absent, or stands for the statement's own text, executes that
text when the values fit it. -/
theorem answerQuery_of_own {client : Nat} {statement : PostgresStatement} {server : PgServer τ}
    {values : List Bytes} (formats : List Int)
    (own : server.prepared client (cStr statement.name) = none ∨
      server.prepared client (cStr statement.name) = some (cStr statement.query))
    (accepted : engine.accepts (cStr statement.query) (toInt32 statement.numParams)
      statement.paramTypes = true)
    (fits : toInt32 values.length = engine.parameters (cStr statement.query)) :
    (server.answerQuery engine client statement values formats).1 =
        (engine.execute (cStr statement.query)
          (paramValues values (values.map fun value => toInt32 value.length) formats)
          server.tables).1 ∧
      (server.answerQuery engine client statement values formats).2.tables =
        (engine.execute (cStr statement.query)
          (paramValues values (values.map fun value => toInt32 value.length) formats)
          server.tables).2 := by
  rcases own with absent | present
  · have prepared : server.prepareAbsent engine client statement =
        server.bindName client (cStr statement.name) (cStr statement.query) := by
      simp [prepareAbsent, prepareName, absent, accepted]
    simp only [answerQuery, prepared, execPrepared, bindName_prepared, if_pos fits]
    exact ⟨rfl, rfl⟩
  · rw [answerQuery_of_present values formats present]
    simp only [execPrepared, present, if_pos fits]
    exact ⟨trivial, trivial⟩

/-- A name that stands for a text with another number of parameters fails. -/
theorem answerQuery_of_foreign {client : Nat} {statement : PostgresStatement} {server : PgServer τ}
    {values : List Bytes} {text : Bytes} (formats : List Int)
    (present : server.prepared client (cStr statement.name) = some text)
    (misfit : toInt32 values.length ≠ engine.parameters text) :
    server.answerQuery engine client statement values formats =
      (failedResult "ERROR:  bind message supplies a different number of parameters", server) := by
  rw [answerQuery_of_present values formats present]
  simp only [execPrepared, present, if_neg misfit]

theorem execPrepared_prepared (client : Nat) (name : Bytes) (nParams : Int) (params : List Bytes)
    (server : PgServer τ) :
    (server.execPrepared engine client name nParams params).2.prepared = server.prepared := by
  unfold execPrepared
  split
  · rfl
  · split <;> rfl

theorem execPrepared_withPool (client : Nat) (name : Bytes) (nParams : Int) (params : List Bytes)
    (server : PgServer τ) (pool : List Nat) :
    ({ server with pool := pool } : PgServer τ).execPrepared engine client name nParams params =
      ((server.execPrepared engine client name nParams params).1,
        { (server.execPrepared engine client name nParams params).2 with pool := pool }) := by
  unfold execPrepared
  cases server.prepared client name with
  | none => rfl
  | some text =>
      simp only
      split <;> rfl

theorem prepareAbsent_withPool (client : Nat) (statement : PostgresStatement) (server : PgServer τ)
    (pool : List Nat) :
    ({ server with pool := pool } : PgServer τ).prepareAbsent engine client statement =
      { server.prepareAbsent engine client statement with pool := pool } := by
  unfold prepareAbsent prepareName
  simp only
  split <;> rfl

theorem answerQuery_withPool (client : Nat) (statement : PostgresStatement) (values : List Bytes)
    (formats : List Int) (server : PgServer τ) (pool : List Nat) :
    ({ server with pool := pool } : PgServer τ).answerQuery engine client statement values formats =
      ((server.answerQuery engine client statement values formats).1,
        { (server.answerQuery engine client statement values formats).2 with pool := pool }) := by
  rw [answerQuery, prepareAbsent_withPool, execPrepared_withPool]
  rfl

theorem run_attempts (client : Nat) (statement : PostgresStatement) (values : List Bytes)
    (formats : List Int) (server : PgServer τ) :
    run (handler engine) (Postgres.attempts client statement values formats) server =
      some (some (server.answerQuery engine client statement values formats).1,
        (server.answerQuery engine client statement values formats).2) := by
  rw [Postgres.attempts, Postgres.execPrepared, run_bind, Backend.run_pqExecPrepared]
  simp only [handler, Option.bind_some]
  cases found : server.prepared client (cStr statement.name) with
  | none =>
      have failed : server.execPrepared engine client (cStr statement.name)
          (toInt32 values.length)
          (paramValues values (values.map fun value => toInt32 value.length) formats) =
          (failedResult "ERROR:  prepared statement does not exist", server) := by
        simp [execPrepared, found]
      rw [failed, if_pos (by rfl), run_fallback]
      by_cases accepted : engine.accepts (cStr statement.query) (toInt32 statement.numParams)
          statement.paramTypes = true
      · rw [if_pos ⟨by rw [found]; rfl, accepted⟩]
      · rw [if_neg (fun both => accepted both.2),
          answerQuery_of_absent values formats found accepted]
  | some text =>
      rw [answerQuery_of_present values formats found]
      split
      · rw [run_fallback, execPrepared_prepared, found, if_neg (by simp)]
      · rfl

/-- A query on the server: the client in front of the pool answers it and goes to
the back. -/
theorem run_queryWithFallback {client : Nat} {rest : List Nat} {server : PgServer τ}
    (front : server.pool = client :: rest) (statement : PostgresStatement) (values : List Bytes)
    (formats : List Int) :
    run (handler engine) (Postgres.queryWithFallback statement values formats) server =
      some (some (server.answerQuery engine client statement values formats).1,
        { (server.answerQuery engine client statement values formats).2 with
          pool := rest ++ [client] }) := by
  have taken : run (handler engine) Postgres.getClient server =
      some (client, { server with pool := rest }) := by
    simp [Postgres.getClient, run_bind, handler, front]
  rw [Postgres.queryWithFallback, run_bind_of_run taken, run_bind_of_run (run_attempts ..),
    answerQuery_withPool]
  simp [Postgres.releaseClient, run_bind, handler]

theorem run_query {client : Nat} {rest : List Nat} {server : PgServer τ}
    (front : server.pool = client :: rest) (statement : PostgresStatement) (values : List Bytes)
    (formats : List Int) :
    run (handler engine) (Postgres.query statement values formats) server =
      some
        (if cStr (server.answerQuery engine client statement values formats).1.errorMessage ≠ [] then
            .error (Postgres.queryLog
              (some (server.answerQuery engine client statement values formats).1))
          else .ok (some (server.answerQuery engine client statement values formats).1),
        { (server.answerQuery engine client statement values formats).2 with
          pool := rest ++ [client] }) := by
  rw [Postgres.query, run_bind_of_run (run_queryWithFallback front statement values formats),
    pqResultErrorMessage]
  split
  · rw [run_bind, Backend.run_pqClear]
    rfl
  · rfl

/-- A query waits for a client in vain when the pool is empty. -/
theorem run_query_of_empty {server : PgServer τ} (empty : server.pool = [])
    (statement : PostgresStatement) (values : List Bytes) (formats : List Int) :
    run (handler engine) (Postgres.query statement values formats) server = none := by
  have waits : run (handler engine) Postgres.getClient server = none := by
    simp [Postgres.getClient, run_bind, handler, empty]
  exact run_bind_of_none (run_bind_of_none waits)

end PgServer

end CleanArchitecture
