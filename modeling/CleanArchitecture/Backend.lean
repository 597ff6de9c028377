import CleanArchitecture.CommandProgram
import CleanArchitecture.StandardLibrary

/-!
# What the use cases call

The use cases are programs over the calls they make to the pools' deques and
semaphores, hiredis, libpq, argon2 and `getrandom`.  Pointers to connections and
results are numbers.  The calls whose value depends on their arguments alone
(flatbuffers, the JSON library, the texts of argon2's errors) are functions of a
`Libraries` record.
-/

namespace CleanArchitecture

/-- `entity::Log`. -/
structure Log where
  msg : Bytes := []
  file : Bytes := []
  function : Bytes := []
  db : Bytes := []
  dbContraint : Bytes := []
  errors : List Bytes := []
  deriving DecidableEq

inductive Pool
  | redis
  | postgres
  deriving DecidableEq

/-! ## hiredis -/

inductive RedisReplyType
  | string
  | array
  | integer
  | nil
  | status
  | error
  | double
  | bool
  | map
  | set
  | attr
  | push
  | bignum
  | verb
  deriving DecidableEq

/-- `redisReply`, with the `len` bytes of `str`. -/
structure RedisReply where
  handle : Nat := 0
  type : RedisReplyType
  integer : Int := 0
  str : Bytes := []
  deriving DecidableEq

/-! ## libpq -/

inductive PgStatus
  | commandOk
  | tuplesOk
  | fatalError
  | otherStatus
  deriving DecidableEq

/-- `PGresult`: a null pointer is `none` of an option. -/
structure PgResult where
  handle : Nat := 0
  status : PgStatus
  errorMessage : Bytes := []
  constraintName : Option Bytes := none
  rows : List (List Bytes) := []
  deriving DecidableEq

def pqResultStatus (result : Option PgResult) : PgStatus :=
  match result with
  | none => .fatalError
  | some r => r.status

def pqResultErrorMessage (result : Option PgResult) : Bytes :=
  match result with
  | none => []
  | some r => r.errorMessage

/-- `PQresultErrorField(result, PG_DIAG_CONSTRAINT_NAME)`. -/
def pqResultConstraintName (result : Option PgResult) : Option Bytes :=
  result.bind PgResult.constraintName

def pqNtuples (result : Option PgResult) : Nat :=
  match result with
  | none => 0
  | some r => r.rows.length

/-- `PQgetvalue(result, row, col)`, a null pointer outside the rows and columns. -/
def pqGetvalue (result : Option PgResult) (row col : Nat) : Option Bytes :=
  result.bind fun r => r.rows[row]?.bind fun cells => cells[col]?

/-! ## argon2 -/

/-- The parameters that `MainCrypto` is built with, and the length of an encoded
hash under them. -/
structure MainCrypto where
  iterationCost : Nat
  memoryCost : Nat
  parallelism : Nat
  hashLen : Nat
  salt : Bytes
  encodedLen : Nat

def argon2Ok : Int := 0
def argon2VerifyMismatch : Int := -35

/-! ## Commands -/

def sessionIdLength : Nat := 16

/-- One call of the environment.  The last three are the ends of a process that
has no further behaviour: a read through a null pointer, an exception that leaves
a `noexcept` function, and a loop that did not end within its allotted rounds. -/
inductive Command
  | acquire (pool : Pool)
  | popFront (pool : Pool)
  | pushBack (pool : Pool) (connection : Nat)
  | release (pool : Pool)
  | redisCommand (context : Nat) (args : List Bytes)
  | freeReplyObject (reply : RedisReply)
  | pqExecPrepared (client : Nat) (name : Bytes) (nParams : Int) (values : List Bytes)
      (lengths formats : List Int)
  | pqPrepare (client : Nat) (name query : Bytes) (nParams : Int) (paramTypes : List Nat)
  | pqClear (result : Option PgResult)
  | getrandom
  | argon2idHashEncoded (crypto : MainCrypto) (password : Bytes)
  | argon2idVerify (encoded password : Bytes)
  | nullDereference
  | terminate
  | outOfRounds

/-- `popFront` returns the connection that stood in front, `redisCommand` a reply
or a null pointer, `getrandom` the words of the buffer after the call, and
argon2's functions their error code, with the encoded hash. -/
abbrev Command.Response : Command → Type
  | .popFront _ => Nat
  | .redisCommand _ _ => Option RedisReply
  | .pqExecPrepared .. => Option PgResult
  | .pqPrepare .. => Option PgResult
  | .getrandom => Fin sessionIdLength → UInt64
  | .argon2idHashEncoded _ _ => Int × Bytes
  | .argon2idVerify _ _ => Int
  | .nullDereference => Empty
  | .terminate => Empty
  | .outOfRounds => Empty
  | _ => Unit

/-- Programs over the backend. -/
abbrev Backend (α : Type) : Type :=
  Program Command Command.Response α

/-- Environments of such programs. -/
abbrev BackendHandler (σ : Type) : Type :=
  CommandHandler Command Command.Response σ

namespace Backend

open Program

def acquire (pool : Pool) : Backend Unit := perform (Command.acquire pool)

def popFront (pool : Pool) : Backend Nat := perform (Command.popFront pool)

def pushBack (pool : Pool) (connection : Nat) : Backend Unit :=
  perform (Command.pushBack pool connection)

def release (pool : Pool) : Backend Unit := perform (Command.release pool)

def redisCommand (context : Nat) (args : List Bytes) : Backend (Option RedisReply) :=
  perform (Command.redisCommand context args)

def freeReplyObject (reply : RedisReply) : Backend Unit := perform (Command.freeReplyObject reply)

def pqExecPrepared (client : Nat) (name : Bytes) (nParams : Int) (values : List Bytes)
    (lengths formats : List Int) : Backend (Option PgResult) :=
  perform (Command.pqExecPrepared client name nParams values lengths formats)

def pqPrepare (client : Nat) (name query : Bytes) (nParams : Int) (paramTypes : List Nat) :
    Backend (Option PgResult) :=
  perform (Command.pqPrepare client name query nParams paramTypes)

def pqClear (result : Option PgResult) : Backend Unit := perform (Command.pqClear result)

def getrandom : Backend (Fin sessionIdLength → UInt64) := perform Command.getrandom

def argon2idHashEncoded (crypto : MainCrypto) (password : Bytes) : Backend (Int × Bytes) :=
  perform (Command.argon2idHashEncoded crypto password)

def argon2idVerify (encoded password : Bytes) : Backend Int :=
  perform (Command.argon2idVerify encoded password)

/-- A command without a response leaves nothing to continue with. -/
def abort {α : Type} (command : Command) (never : command.Response → Empty) : Backend α :=
  .call command fun response => (never response).elim

def nullDereference {α : Type} : Backend α := abort Command.nullDereference id

def terminate {α : Type} : Backend α := abort Command.terminate id

def outOfRounds {α : Type} : Backend α := abort Command.outOfRounds id

/-- Reading through a pointer. -/
def dereference {α : Type} (pointer : Option α) : Backend α :=
  match pointer with
  | none => nullDereference
  | some value => pure value

/-! ## Runs of single calls -/

variable {σ : Type} {h : BackendHandler σ}

@[simp] theorem run_acquire (pool : Pool) (s : σ) : run h (acquire pool) s = h (.acquire pool) s :=
  run_perform _ s

@[simp] theorem run_popFront (pool : Pool) (s : σ) :
    run h (popFront pool) s = h (.popFront pool) s :=
  run_perform _ s

@[simp] theorem run_pushBack (pool : Pool) (connection : Nat) (s : σ) :
    run h (pushBack pool connection) s = h (.pushBack pool connection) s :=
  run_perform _ s

@[simp] theorem run_release (pool : Pool) (s : σ) : run h (release pool) s = h (.release pool) s :=
  run_perform _ s

@[simp] theorem run_redisCommand (context : Nat) (args : List Bytes) (s : σ) :
    run h (redisCommand context args) s = h (.redisCommand context args) s :=
  run_perform _ s

@[simp] theorem run_freeReplyObject (reply : RedisReply) (s : σ) :
    run h (freeReplyObject reply) s = h (.freeReplyObject reply) s :=
  run_perform _ s

@[simp] theorem run_pqExecPrepared (client : Nat) (name : Bytes) (nParams : Int)
    (values : List Bytes) (lengths formats : List Int) (s : σ) :
    run h (pqExecPrepared client name nParams values lengths formats) s =
      h (.pqExecPrepared client name nParams values lengths formats) s :=
  run_perform _ s

@[simp] theorem run_pqPrepare (client : Nat) (name query : Bytes) (nParams : Int)
    (paramTypes : List Nat) (s : σ) :
    run h (pqPrepare client name query nParams paramTypes) s =
      h (.pqPrepare client name query nParams paramTypes) s :=
  run_perform _ s

@[simp] theorem run_pqClear (result : Option PgResult) (s : σ) :
    run h (pqClear result) s = h (.pqClear result) s :=
  run_perform _ s

@[simp] theorem run_getrandom (s : σ) : run h getrandom s = h .getrandom s :=
  run_perform _ s

@[simp] theorem run_argon2idHashEncoded (crypto : MainCrypto) (password : Bytes) (s : σ) :
    run h (argon2idHashEncoded crypto password) s = h (.argon2idHashEncoded crypto password) s :=
  run_perform _ s

@[simp] theorem run_argon2idVerify (encoded password : Bytes) (s : σ) :
    run h (argon2idVerify encoded password) s = h (.argon2idVerify encoded password) s :=
  run_perform _ s

theorem run_abort {α : Type} {command : Command} {never : command.Response → Empty} (s : σ) :
    run h (abort command never : Backend α) s = none := by
  rw [abort, run]
  cases h command s with
  | none => rfl
  | some answer => exact (never answer.1).elim

@[simp] theorem run_nullDereference {α : Type} (s : σ) :
    run h (nullDereference : Backend α) s = none :=
  run_abort s

@[simp] theorem run_terminate {α : Type} (s : σ) : run h (terminate : Backend α) s = none :=
  run_abort s

@[simp] theorem run_outOfRounds {α : Type} (s : σ) : run h (outOfRounds : Backend α) s = none :=
  run_abort s

theorem run_dereference_eq_some {α : Type} {pointer : Option α} {value : α} {s last : σ} :
    run h (dereference pointer) s = some (value, last) ↔ pointer = some value ∧ last = s := by
  cases pointer with
  | none => simp [dereference]
  | some target => simp [dereference, Prod.ext_iff, eq_comm]

end Backend

/-! ## Libraries -/

/-- The values of the JSON library. -/
inductive JsonValue
  | null
  | boolean (value : Bool)
  | number (text : Bytes)
  | string (text : Bytes)
  | array (values : List JsonValue)
  | object (members : List (Bytes × JsonValue))

/-- `std::string text = json[key]`, with `none` for the exception of a value that
is no object or a member that is absent or no string. -/
def JsonValue.stringMember (json : JsonValue) (key : Bytes) : Option Bytes :=
  match json with
  | .object members =>
      match members.find? fun member => member.1 == key with
      | some (_, .string text) => some text
      | _ => none
  | _ => none

/-- `jsonParse` and `jsonDump` answer `none` where the library throws.  The fields
of a flatbuffer are read from its bytes, a null pointer where one is absent. -/
structure Libraries where
  jsonParse : Bytes → Option JsonValue
  jsonDump : JsonValue → Option Bytes
  createUser : Bytes → Bytes → Bytes
  userVerify : Bytes → Bool
  userId : Bytes → Option Bytes
  userUsername : Bytes → Option Bytes
  loginRequestVerify : Bytes → Bool
  loginRequestUsername : Bytes → Option Bytes
  loginRequestPassword : Bytes → Option Bytes
  argon2ErrorMessage : Int → Bytes

end CleanArchitecture
