import CleanArchitecture.Backend

/-!
# The session store on Redis

Every operation takes a context from the pool, sends one command, returns the
context and then reads the reply.  Keys are C strings.  A healthy Redis server
is a map from keys to values; over it the operations act as those of the map.
-/

namespace CleanArchitecture

open Program

namespace RedisStore

open Backend

def getContext : Backend Nat := do
  acquire .redis
  popFront .redis

def releaseContext (ctx : Nat) : Backend Unit := do
  pushBack .redis ctx
  release .redis

/-- One command on a context of the pool.  No operation tests for a null reply
before it reads the reply's type. -/
def command (args : List Bytes) : Backend RedisReply := do
  let ctx ← getContext
  let reply ← redisCommand ctx args
  releaseContext ctx
  dereference reply

/-- The getters differ in how they convert the text of the value and in the
function that their error log names. -/
def getValue {α : Type} (convert : Bytes → Except Log α) (function key : Bytes) :
    Backend (Except Log (Option α)) := do
  let reply ← command [ascii "GET", key]
  freeReplyObject reply
  if reply.type = .string then
    return (convert reply.str).map some
  else if reply.type = .nil then
    return .ok none
  else
    return .error
      { msg := if reply.type = .error then cStr reply.str else ascii "Unknown error"
        file := ascii "interfaces/store/redis.cpp"
        function := function }

/-- The log of a failed `GET` names `get_double_impl` here too. -/
def getByteArrayImpl (key : Bytes) : Backend (Except Log (Option Bytes)) :=
  getValue .ok (ascii "RedisStore::get_double_impl(const char*)") key

/-- The setters differ in the text of the value. -/
def setValue (key value : Bytes) : Backend Bool := do
  let reply ← command [ascii "SET", key, value]
  freeReplyObject reply
  return reply.type ≠ .error

def setByteArrayImpl (key value : Bytes) : Backend Bool :=
  setValue key value

/-- `EXISTS` and `DEL` answer a count; any other reply is not freed. -/
def countPositive (name key : Bytes) : Backend Bool := do
  let reply ← command [name, key]
  if reply.type = .integer then
    freeReplyObject reply
    return reply.integer > 0
  else
    return false

def existsImpl (key : Bytes) : Backend Bool :=
  countPositive (ascii "EXISTS") key

def delImpl (key : Bytes) : Backend Bool :=
  countPositive (ascii "DEL") key

end RedisStore

/-! ## The interface -/

/-- `IStore` passes `key.c_str()`. -/
def IStore.getByteArray (key : Bytes) : Backend (Except Log (Option Bytes)) :=
  RedisStore.getByteArrayImpl (cStr key)

def IStore.setByteArray (key value : Bytes) : Backend Bool :=
  RedisStore.setByteArrayImpl (cStr key) value

def IStore.exists (key : Bytes) : Backend Bool :=
  RedisStore.existsImpl (cStr key)

def IStore.del (key : Bytes) : Backend Bool :=
  RedisStore.delImpl (cStr key)

/-! ## A server that is a map -/

abbrev StoreMap : Type :=
  Bytes → Option Bytes

/-- The reply of a Redis server with this map to a command. -/
def redisReply (args : List Bytes) (m : StoreMap) : RedisReply :=
  match args with
  | [name, key] =>
      if name = ascii "GET" then
        match m key with
        | none => { type := .nil }
        | some value => { type := .string, str := value }
      else if name = ascii "EXISTS" ∨ name = ascii "DEL" then
        { type := .integer, integer := if (m key).isSome then 1 else 0 }
      else
        { type := .error, str := ascii "ERR unknown command" }
  | [name, _, _] =>
      if name = ascii "SET" then { type := .status, str := ascii "OK" }
      else { type := .error, str := ascii "ERR unknown command" }
  | _ => { type := .error, str := ascii "ERR unknown command" }

/-- The map after a command. -/
def redisMap (args : List Bytes) (m : StoreMap) : StoreMap :=
  match args with
  | [name, key] => if name = ascii "DEL" then Function.update m key none else m
  | [name, key, value] => if name = ascii "SET" then Function.update m key (some value) else m
  | _ => m

@[simp] theorem redisReply_get (key : Bytes) (m : StoreMap) :
    redisReply [ascii "GET", key] m =
      match m key with
      | none => { type := .nil }
      | some value => { type := .string, str := value } :=
  rfl

@[simp] theorem redisReply_exists (key : Bytes) (m : StoreMap) :
    redisReply [ascii "EXISTS", key] m =
      { type := .integer, integer := if (m key).isSome then 1 else 0 } :=
  rfl

@[simp] theorem redisReply_del (key : Bytes) (m : StoreMap) :
    redisReply [ascii "DEL", key] m =
      { type := .integer, integer := if (m key).isSome then 1 else 0 } :=
  rfl

@[simp] theorem redisReply_set (key value : Bytes) (m : StoreMap) :
    redisReply [ascii "SET", key, value] m = { type := .status, str := ascii "OK" } :=
  rfl

@[simp] theorem redisMap_get (key : Bytes) (m : StoreMap) :
    redisMap [ascii "GET", key] m = m :=
  rfl

@[simp] theorem redisMap_exists (key : Bytes) (m : StoreMap) :
    redisMap [ascii "EXISTS", key] m = m :=
  rfl

@[simp] theorem redisMap_del (key : Bytes) (m : StoreMap) :
    redisMap [ascii "DEL", key] m = Function.update m key none :=
  rfl

@[simp] theorem redisMap_set (key value : Bytes) (m : StoreMap) :
    redisMap [ascii "SET", key, value] m = Function.update m key (some value) :=
  rfl

/-- The calls around a Redis command: the pool of contexts and the replies. -/
def Command.IsStoreUpkeep : Command → Prop
  | .acquire .redis => True
  | .popFront .redis => True
  | .pushBack .redis _ => True
  | .release .redis => True
  | .freeReplyObject _ => True
  | _ => False

def Command.IsRedisCommand : Command → Prop
  | .redisCommand _ _ => True
  | _ => False

/-- The store commands succeed and act on the map that a view of the state shows;
no other call touches it. -/
structure HealthyStore {σ : Type} (h : BackendHandler σ) (view : σ → StoreMap) : Prop where
  answers : ∀ context args s, ∃ handle s',
    h (.redisCommand context args) s =
        some (some { redisReply args (view s) with handle := handle }, s') ∧
      view s' = redisMap args (view s)
  upkeep : ∀ command s, command.IsStoreUpkeep → ∃ response s', h command s = some (response, s')
  frame : ∀ command s response s', ¬ command.IsRedisCommand →
    h command s = some (response, s') → view s' = view s

namespace HealthyStore

open Backend

variable {σ : Type} {h : BackendHandler σ} {view : σ → StoreMap} (healthy : HealthyStore h view)

include healthy

theorem run_upkeep (command : Command) (kind : command.IsStoreUpkeep) (s : σ) :
    ∃ response s', h command s = some (response, s') ∧ view s' = view s := by
  obtain ⟨response, s', answered⟩ := healthy.upkeep command s kind
  have noCommand : ¬ command.IsRedisCommand := by
    intro isCommand
    cases command <;> first | exact isCommand | exact kind
  exact ⟨response, s', answered, healthy.frame command s response s' noCommand answered⟩

theorem run_getContext (s : σ) :
    ∃ ctx s', run h RedisStore.getContext s = some (ctx, s') ∧ view s' = view s := by
  obtain ⟨_, s₁, acquired, same₁⟩ := healthy.run_upkeep (.acquire .redis) trivial s
  obtain ⟨ctx, s₂, popped, same₂⟩ := healthy.run_upkeep (.popFront .redis) trivial s₁
  refine ⟨ctx, s₂, ?_, same₂.trans same₁⟩
  rw [RedisStore.getContext, run_bind, run_acquire, acquired]
  exact (run_popFront _ _).trans popped

theorem run_releaseContext (ctx : Nat) (s : σ) :
    ∃ s', run h (RedisStore.releaseContext ctx) s = some ((), s') ∧ view s' = view s := by
  obtain ⟨_, s₁, pushed, same₁⟩ :=
    healthy.run_upkeep (.pushBack .redis ctx) trivial s
  obtain ⟨_, s₂, released, same₂⟩ := healthy.run_upkeep (.release .redis) trivial s₁
  refine ⟨s₂, ?_, same₂.trans same₁⟩
  rw [RedisStore.releaseContext, run_bind, run_pushBack, pushed]
  exact (run_release _ _).trans released

theorem run_freeReplyObject (reply : RedisReply) (s : σ) :
    ∃ s', h (.freeReplyObject reply) s = some ((), s') ∧ view s' = view s := by
  obtain ⟨_, s', freed, same⟩ :=
    healthy.run_upkeep (.freeReplyObject reply) trivial s
  exact ⟨s', freed, same⟩

theorem run_command (args : List Bytes) (s : σ) :
    ∃ handle s', run h (RedisStore.command args) s =
        some ({ redisReply args (view s) with handle := handle }, s') ∧
      view s' = redisMap args (view s) := by
  obtain ⟨ctx, s₁, got, same₁⟩ := healthy.run_getContext s
  obtain ⟨handle, s₂, answered, after⟩ := healthy.answers ctx args s₁
  obtain ⟨s₃, released, same₃⟩ := healthy.run_releaseContext ctx s₂
  rw [same₁] at answered after
  refine ⟨handle, s₃, ?_, same₃.trans after⟩
  rw [RedisStore.command, run_bind_of_run got,
    run_bind_of_run ((run_redisCommand _ _ _).trans answered),
    run_bind_of_run released]
  rfl

/-! ## The operations over the map -/

/-- A getter converts the text under its key. -/
theorem run_getValue {α : Type} (convert : Bytes → Except Log α) (function key : Bytes) (s : σ) :
    ∃ s', run h (RedisStore.getValue convert function key) s =
        some (match view s key with
          | none => .ok none
          | some value => (convert value).map some, s') ∧
      view s' = view s := by
  obtain ⟨handle, s₁, answered, after⟩ := healthy.run_command [ascii "GET", key] s
  obtain ⟨s₂, freed, same₂⟩ := healthy.run_freeReplyObject
    { redisReply [ascii "GET", key] (view s) with handle := handle } s₁
  refine ⟨s₂, ?_, same₂.trans after⟩
  rw [RedisStore.getValue, run_bind_of_run answered,
    run_bind_of_run ((Backend.run_freeReplyObject _ _).trans freed)]
  obtain missing | ⟨value, found⟩ := (view s key).eq_none_or_eq_some
  · simp [missing]
  · simp [found]

theorem run_getByteArrayImpl (key : Bytes) (s : σ) :
    ∃ s', run h (RedisStore.getByteArrayImpl key) s = some (.ok (view s key), s') ∧
      view s' = view s := by
  obtain ⟨s', got, same⟩ := healthy.run_getValue .ok
    (ascii "RedisStore::get_double_impl(const char*)") key s
  refine ⟨s', got.trans ?_, same⟩
  cases view s key <;> rfl

theorem run_setValue (key value : Bytes) (s : σ) :
    ∃ s', run h (RedisStore.setValue key value) s = some (true, s') ∧
      view s' = Function.update (view s) key (some value) := by
  obtain ⟨handle, s₁, answered, after⟩ := healthy.run_command [ascii "SET", key, value] s
  obtain ⟨s₂, freed, same₂⟩ := healthy.run_freeReplyObject
    { redisReply [ascii "SET", key, value] (view s) with handle := handle } s₁
  refine ⟨s₂, ?_, same₂.trans after⟩
  rw [RedisStore.setValue, run_bind_of_run answered,
    run_bind_of_run ((Backend.run_freeReplyObject _ _).trans freed)]
  rfl

theorem run_setByteArrayImpl (key value : Bytes) (s : σ) :
    ∃ s', run h (RedisStore.setByteArrayImpl key value) s = some (true, s') ∧
      view s' = Function.update (view s) key (some value) :=
  healthy.run_setValue key value s

theorem run_countPositive {name key : Bytes} {s : σ}
    (counts : redisReply [name, key] (view s) =
      { type := .integer, integer := if (view s key).isSome then 1 else 0 }) :
    ∃ s', run h (RedisStore.countPositive name key) s = some ((view s key).isSome, s') ∧
      view s' = redisMap [name, key] (view s) := by
  obtain ⟨handle, s₁, answered, after⟩ := healthy.run_command [name, key] s
  rw [counts] at answered
  obtain ⟨s₂, freed, same₂⟩ := healthy.run_freeReplyObject _ s₁
  refine ⟨s₂, ?_, same₂.trans after⟩
  rw [RedisStore.countPositive, run_bind_of_run answered, if_pos rfl,
    run_bind_of_run ((Backend.run_freeReplyObject _ _).trans freed)]
  cases view s key <;> rfl

theorem run_existsImpl (key : Bytes) (s : σ) :
    ∃ s', run h (RedisStore.existsImpl key) s = some ((view s key).isSome, s') ∧
      view s' = view s :=
  healthy.run_countPositive (redisReply_exists key (view s))

theorem run_delImpl (key : Bytes) (s : σ) :
    ∃ s', run h (RedisStore.delImpl key) s = some ((view s key).isSome, s') ∧
      view s' = Function.update (view s) key none :=
  healthy.run_countPositive (redisReply_del key (view s))

end HealthyStore

end CleanArchitecture
