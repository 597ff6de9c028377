import CleanArchitecture.Backend

/-!
# Queries to PostgreSQL

A statement is prepared lazily, on the connection that happens to serve it: a
query executes the statement's name, and where that fails it prepares the name
and executes it again.
-/

namespace CleanArchitecture

open Backend

structure PostgresStatement where
  name : Bytes
  query : Bytes
  paramTypes : List Nat
  numParams : Nat
  deriving DecidableEq

/-- The member of `Postgres` that statements are named from.  No member function
assigns it. -/
structure Postgres where
  statementCount : Int := 0

namespace Postgres

def getName (pg : Postgres) : Bytes :=
  toString pg.statementCount

/-- Nothing is sent to the server here. -/
def prepare (pg : Postgres) (query : Bytes) (numParams : Nat) (paramTypes : List Nat) :
    Except Log PostgresStatement :=
  .ok { name := pg.getName, query := query, paramTypes := paramTypes, numParams := numParams }

def getClient : Backend Nat := do
  acquire .postgres
  popFront .postgres

def releaseClient (client : Nat) : Backend Unit := do
  pushBack .postgres client
  release .postgres

/-- `PQexecPrepared` with the values of a call. -/
def execPrepared (client : Nat) (statement : PostgresStatement) (values : List Bytes)
    (formats : List Int) : Backend (Option PgResult) :=
  pqExecPrepared client (cStr statement.name) (toInt32 values.length) values
    (values.map fun value => toInt32 value.length) formats

/-- The second attempt after a fatal error: the statement is executed again when
its name could be prepared, else the first result stays. -/
def fallback (client : Nat) (statement : PostgresStatement) (values : List Bytes)
    (formats : List Int) (result : Option PgResult) : Backend (Option PgResult) := do
  let rtmp ← pqPrepare client (cStr statement.name) (cStr statement.query)
    (toInt32 statement.numParams) statement.paramTypes
  if pqResultStatus rtmp = .commandOk then
    pqClear result
    let result ← execPrepared client statement values formats
    pqClear rtmp
    return result
  else
    pqClear rtmp
    return result

/-- The calls on a client between taking it and giving it back. -/
def attempts (client : Nat) (statement : PostgresStatement) (values : List Bytes)
    (formats : List Int) : Backend (Option PgResult) := do
  let result ← execPrepared client statement values formats
  if pqResultStatus result = .fatalError then fallback client statement values formats result
  else return result

def queryWithFallback (statement : PostgresStatement) (values : List Bytes) (formats : List Int) :
    Backend (Option PgResult) := do
  let client ← getClient
  let result ← attempts client statement values formats
  releaseClient client
  return result

/-- The log of a result with an error message. -/
def queryLog (result : Option PgResult) : Log :=
  { msg := cStr (pqResultErrorMessage result)
    file := ascii "db/core/pg.hpp"
    function := ascii "Postgres::query"
    dbContraint := cStr ((pqResultConstraintName result).getD []) }

/-- A result with an error message is cleared, any other one is returned. -/
def query (statement : PostgresStatement) (values : List Bytes) (formats : List Int) :
    Backend (Except Log (Option PgResult)) := do
  let result ← queryWithFallback statement values formats
  if cStr (pqResultErrorMessage result) ≠ [] then
    pqClear result
    return .error (queryLog result)
  else
    return .ok result

end Postgres

end CleanArchitecture
