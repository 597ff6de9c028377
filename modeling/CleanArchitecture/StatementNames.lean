import CleanArchitecture.EventMachine
import CleanArchitecture.PostgresServer

/-!
# Whose SQL text a query executes

All statements of a `Postgres` object have one name, so on a connection they
share the text of the first of them that was prepared there.  A run of queries
executes its own texts exactly when no query meets a foreign text that matters.
-/

namespace CleanArchitecture

namespace Postgres

open Program

/-- A statement obtained from `prepare` and executed with values, on a client of
the pool. -/
structure QueryCall where
  query : Bytes
  numParams : Nat
  paramTypes : List Nat
  values : List Bytes
  formats : List Int
  client : Nat

/-- A call of a run, with the server before it and the texts executed for it. -/
structure QueryRecord (τ : Type) where
  call : QueryCall
  before : PgServer τ
  executed : List Bytes

variable {τ : Type} (pg : Postgres) (engine : SqlEngine τ)

/-- The server after a call that its client serves; the executed texts are those
of the call. -/
def serveCall (call : QueryCall) (server : PgServer τ) : Option (PgServer τ) :=
  if call.client ∈ server.pool then
    match pg.prepare call.query call.numParams call.paramTypes with
    | .error _ => none
    | .ok statement =>
        (run (PgServer.handler engine) (query statement call.values call.formats)
          { server with
            pool := call.client :: server.pool.erase call.client
            executed := [] }).map Prod.snd
  else none

/-- The texts that a call executes on a server. -/
def executedBy (call : QueryCall) (server : PgServer τ) : List Bytes :=
  match pg.serveCall engine call server with
  | none => []
  | some after => after.executed

/-- Calls one after another, each on any client of the pool. -/
def queryMachine : EventMachine (PgServer τ) QueryCall (QueryRecord τ) Unit where
  step server call :=
    match pg.serveCall engine call server with
    | none => .error ()
    | some after =>
        .ok (after, { call := call, before := server, executed := after.executed })

/-- The texts executed for a call are the text of its statement, and there are any
exactly if there would be on connections on which nothing was prepared. -/
def RunsOwnText (record : QueryRecord τ) : Prop :=
  (∀ text ∈ record.executed, text = cStr record.call.query) ∧
    (record.executed = [] ↔
      pg.executedBy engine record.call { record.before with prepared := fun _ _ => none } = [])

/-- The number of a call's values is the number of a text's parameters. -/
def QueryCall.Fits (call : QueryCall) (text : Bytes) : Prop :=
  toInt32 call.values.length = engine.parameters text

/-- The server can prepare the call's own text. -/
def QueryCall.Accepted (call : QueryCall) : Prop :=
  engine.accepts (cStr call.query) (toInt32 call.numParams) call.paramTypes = true

/-- The text that the common name stands for on a client. -/
def boundText (client : Nat) (server : PgServer τ) : Option Bytes :=
  server.prepared client (cStr pg.getName)

/-- Nothing is prepared on the client; or the call's own text is, and the call
could have prepared it; or its values fit neither the text there nor its own. -/
def MeetsOwnText (record : QueryRecord τ) : Prop :=
  match pg.boundText record.call.client record.before with
  | none => True
  | some text =>
      text = cStr record.call.query ∧ record.call.Accepted engine ∨
        ¬ record.call.Fits engine text ∧
          ¬ (record.call.Accepted engine ∧ record.call.Fits engine (cStr record.call.query))

instance (call : QueryCall) (text : Bytes) : Decidable (call.Fits engine text) :=
  inferInstanceAs (Decidable (_ = _))

instance (call : QueryCall) : Decidable (call.Accepted engine) :=
  inferInstanceAs (Decidable (_ = _))

/-! ## One call -/

variable {pg engine}

theorem answerQuery_executed (client : Nat) (statement : PostgresStatement) (values : List Bytes)
    (formats : List Int) (server : PgServer τ) :
    (server.answerQuery engine client statement values formats).2.executed =
      server.executed ++
        match server.prepared client (cStr statement.name) with
        | some text => if toInt32 values.length = engine.parameters text then [text] else []
        | none =>
            if engine.accepts (cStr statement.query) (toInt32 statement.numParams)
                  statement.paramTypes = true ∧
                toInt32 values.length = engine.parameters (cStr statement.query) then
              [cStr statement.query]
            else [] := by
  cases found : server.prepared client (cStr statement.name) with
  | some text =>
      rw [PgServer.answerQuery_of_present values formats found, PgServer.execPrepared, found]
      simp only
      split
      · rfl
      · exact (List.append_nil _).symm
  | none =>
      by_cases accepted : engine.accepts (cStr statement.query) (toInt32 statement.numParams)
          statement.paramTypes = true
      · simp only [PgServer.answerQuery, PgServer.prepareAbsent, PgServer.prepareName, found,
          accepted, Option.isNone_none, true_and, and_self, if_true, PgServer.execPrepared,
          PgServer.bindName_prepared]
        split
        · rfl
        · exact (List.append_nil _).symm
      · rw [PgServer.answerQuery_of_absent values formats found accepted]
        simp [accepted]

theorem executedBy_eq {call : QueryCall} {server : PgServer τ}
    (pooled : call.client ∈ server.pool) :
    pg.executedBy engine call server =
      match pg.boundText call.client server with
      | some text => if call.Fits engine text then [text] else []
      | none =>
          if call.Accepted engine ∧ call.Fits engine (cStr call.query) then [cStr call.query]
          else [] := by
  simp only [executedBy, serveCall, if_pos pooled, prepare]
  rw [PgServer.run_query rfl]
  simp only [Option.map_some, answerQuery_executed, List.nil_append]
  rfl

/-- One call executes its own text and depends on it alone exactly if it meets no
foreign text that matters. -/
theorem runsOwnText_iff {record : QueryRecord τ} (pooled : record.call.client ∈ record.before.pool)
    (executed : record.executed = pg.executedBy engine record.call record.before) :
    RunsOwnText pg engine record ↔ MeetsOwnText pg engine record := by
  have fresh : pg.executedBy engine record.call
      { record.before with prepared := fun _ _ => none } =
      if record.call.Accepted engine ∧ record.call.Fits engine (cStr record.call.query) then
        [cStr record.call.query]
      else [] :=
    executedBy_eq pooled
  rw [RunsOwnText, MeetsOwnText, fresh, executed, executedBy_eq pooled]
  cases pg.boundText record.call.client record.before with
  | none =>
      simp only [iff_true]
      refine ⟨?_, trivial⟩
      intro text member
      split at member
      · exact List.mem_singleton.mp member
      · cases member
  | some text =>
      by_cases foreign : record.call.Fits engine text
      · by_cases same : text = cStr record.call.query
        · subst same
          by_cases accepted : record.call.Accepted engine
          · simp [foreign, accepted]
          · simp [foreign, accepted]
        · simp [foreign, same]
      · by_cases own : record.call.Accepted engine ∧ record.call.Fits engine (cStr record.call.query)
        · have differs : text ≠ cStr record.call.query := by
            rintro rfl
            exact foreign own.2
          simp [foreign, own, differs]
        · simp [foreign, own]

/-! ## Runs -/

theorem record_of_step {server server' : PgServer τ} {call : QueryCall} {record : QueryRecord τ}
    (stepped : (queryMachine pg engine).step server call = .ok (server', record)) :
    record.call.client ∈ record.before.pool ∧
      record.executed = pg.executedBy engine record.call record.before := by
  simp only [queryMachine] at stepped
  split at stepped
  · cases stepped
  · rename_i after served
    cases stepped
    refine ⟨?_, ?_⟩
    · by_contra outside
      simp [serveCall, outside] at served
    · simp [executedBy, served]

/-- In every run of calls, on every server and whatever clients serve them, all
calls execute their own text and depend on it alone exactly if none of them meets
a foreign text that matters under the common name. -/
theorem runs_own_text_iff {server last : PgServer τ} {calls : List QueryCall}
    {records : List (QueryRecord τ)}
    (ran : (queryMachine pg engine).run server calls = .ok (last, records)) :
    (∀ record ∈ records, RunsOwnText pg engine record) ↔
      ∀ record ∈ records, MeetsOwnText pg engine record := by
  have each : ∀ record ∈ records, RunsOwnText pg engine record ↔ MeetsOwnText pg engine record := by
    refine EventMachine.run_invariant
      (fun _ records _ =>
        ∀ record ∈ records, RunsOwnText pg engine record ↔ MeetsOwnText pg engine record)
      ?_ ?_ ran
    · simp
    · intro _ earlier before _ _ record _ holds stepped other member
      rcases List.mem_append.mp member with old | new
      · exact holds other old
      · rw [List.mem_singleton.mp new]
        obtain ⟨pooled, executed⟩ := record_of_step stepped
        exact runsOwnText_iff pooled executed
  exact forall₂_congr each

/-! ## Two statements -/

/-- A server that prepares every text, with a parameter for each dollar sign. -/
def permissiveEngine : SqlEngine Unit where
  accepts _ _ _ := true
  parameters text := text.count 36
  execute _ _ _ := ({ status := .tuplesOk }, ())

/-- Two connections on which nothing is prepared. -/
def freshServer : PgServer Unit where
  pool := [0, 1]
  prepared _ _ := none
  tables := ()
  executed := []

def lookupCall (client : Nat) : QueryCall where
  query := ascii "SELECT id FROM users WHERE username=$1"
  numParams := 1
  paramTypes := [0]
  values := [ascii "username"]
  formats := [0]
  client := client

def deletionCall (client : Nat) : QueryCall where
  query := ascii "DELETE FROM users WHERE username=$1"
  numParams := 1
  paramTypes := [0]
  values := [ascii "username"]
  formats := [0]
  client := client

/-- Two statements on two connections. -/
theorem runs_own_text_iff_separate : ∃ last records,
    (queryMachine {} permissiveEngine).run freshServer [deletionCall 0, lookupCall 1] =
        .ok (last, records) ∧
      ∀ record ∈ records, RunsOwnText {} permissiveEngine record := by
  refine ⟨_, _, rfl, (@runs_own_text_iff Unit {} permissiveEngine freshServer _
    [deletionCall 0, lookupCall 1] _ rfl).mpr ?_⟩
  refine List.forall_mem_cons.mpr ⟨trivial, List.forall_mem_cons.mpr ⟨trivial, ?_⟩⟩
  exact fun _ member => absurd member List.not_mem_nil

/-- Two statements on one connection: the lookup executes the deletion. -/
theorem not_runs_own_text_shared : ∃ last records,
    (queryMachine {} permissiveEngine).run freshServer [deletionCall 0, lookupCall 0] =
        .ok (last, records) ∧
      ¬ ∀ record ∈ records, RunsOwnText {} permissiveEngine record := by
  refine ⟨_, _, rfl, ?_⟩
  intro all
  have second := (List.forall_mem_cons.mp (List.forall_mem_cons.mp all).2).1
  have executed := second.1 (deletionCall 0).query (by decide)
  revert executed
  decide

end Postgres

end CleanArchitecture
