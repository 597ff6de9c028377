import CleanArchitecture.PoolCalls
import CleanArchitecture.StoreOperations

/-!
# The outcomes of the store's commands

Every operation of the store sends one command and reads its reply, whatever it is.  No
operation tests for a lost connection, and `EXISTS` and `DEL` keep the replies that they
do not expect; otherwise an operation frees its reply once and fails if the command does.
-/

namespace CleanArchitecture

open Program Backend

/-! ## The operations on floating-point numbers and truth values -/

/-- `std::stof` and `std::stod`, with `none` where they throw, and the texts of `%.7f`
and `%.15f`. -/
structure FloatTexts where
  stof : Bytes → Option Float32
  stod : Bytes → Option Float
  floatText : Float32 → Bytes
  doubleText : Float → Bytes

variable (texts : FloatTexts)

/-- `utils::string::to_float`. -/
def StringUtils.toFloat (text function : Bytes) : Except Log Float32 :=
  match texts.stof text with
  | some value => .ok value
  | none =>
      .error
        { msg := ascii "Could not parse to float"
          file := ascii "interfaces/store/redis.cpp"
          function := function }

/-- `utils::string::to_double`. -/
def StringUtils.toDouble (text function : Bytes) : Except Log Float :=
  match texts.stod text with
  | some value => .ok value
  | none =>
      .error
        { msg := ascii "Could not parse to double"
          file := ascii "interfaces/store/redis.cpp"
          function := function }

namespace RedisStore

def getFloatImpl (key : Bytes) : Backend (Except Log (Option Float32)) :=
  let function := ascii "RedisStore::get_float_impl(const char*)"
  getValue (fun str => StringUtils.toFloat texts (cStr str) function) function key

def getDoubleImpl (key : Bytes) : Backend (Except Log (Option Float)) :=
  let function := ascii "RedisStore::get_double_impl(const char*)"
  getValue (fun str => StringUtils.toDouble texts (cStr str) function) function key

/-- Only the first byte counts, and the log of a failed `GET` names `get_double_impl`. -/
def getBoolImpl (key : Bytes) : Backend (Except Log (Option Bool)) :=
  getValue (fun str => .ok (str.head? ≠ some 48))
    (ascii "RedisStore::get_double_impl(const char*)") key

def setFloatImpl (key : Bytes) (value : Float32) : Backend Bool :=
  setValue key (texts.floatText value)

def setDoubleImpl (key : Bytes) (value : Float) : Backend Bool :=
  setValue key (texts.doubleText value)

def setBoolImpl (key : Bytes) (value : Bool) : Backend Bool :=
  setValue key (if value then ascii "1" else ascii "0")

end RedisStore

/-! ## All operations -/

inductive StoreCall
  | getInt32 (key : Bytes)
  | getInt64 (key : Bytes)
  | getFloat (key : Bytes)
  | getDouble (key : Bytes)
  | getBool (key : Bytes)
  | getString (key : Bytes)
  | getByteArray (key : Bytes)
  | setInt (key : Bytes) (value : Int32)
  | setInt64 (key : Bytes) (value : Int64)
  | setFloat (key : Bytes) (value : Float32)
  | setDouble (key : Bytes) (value : Float)
  | setBool (key : Bytes) (value : Bool)
  | setString (key value : Bytes)
  | setByteArray (key value : Bytes)
  | exists (key : Bytes)
  | del (key : Bytes)

inductive StoredValue
  | int32 (value : Int32)
  | int64 (value : Int64)
  | float (value : Float32)
  | double (value : Float)
  | bool (value : Bool)
  | string (value : Bytes)
  | byteArray (value : Bytes)

/-- What an operation returns. -/
inductive StoreOutcome
  | found (value : Except Log (Option StoredValue))
  | truth (value : Bool)

/-- An error log, or `false`. -/
def StoreOutcome.Failed : StoreOutcome → Prop
  | .found (.error _) => True
  | .found (.ok _) => False
  | .truth value => value = false

namespace StoreCall

def program : StoreCall → Backend StoreOutcome
  | .getInt32 key => return .found ((← RedisStore.getInt32Impl key).map (Option.map .int32))
  | .getInt64 key => return .found ((← RedisStore.getInt64Impl key).map (Option.map .int64))
  | .getFloat key => return .found ((← RedisStore.getFloatImpl texts key).map (Option.map .float))
  | .getDouble key =>
      return .found ((← RedisStore.getDoubleImpl texts key).map (Option.map .double))
  | .getBool key => return .found ((← RedisStore.getBoolImpl key).map (Option.map .bool))
  | .getString key => return .found ((← RedisStore.getStringImpl key).map (Option.map .string))
  | .getByteArray key =>
      return .found ((← RedisStore.getByteArrayImpl key).map (Option.map .byteArray))
  | .setInt key value => return .truth (← RedisStore.setIntImpl key value)
  | .setInt64 key value => return .truth (← RedisStore.setInt64Impl key value)
  | .setFloat key value => return .truth (← RedisStore.setFloatImpl texts key value)
  | .setDouble key value => return .truth (← RedisStore.setDoubleImpl texts key value)
  | .setBool key value => return .truth (← RedisStore.setBoolImpl key value)
  | .setString key value => return .truth (← RedisStore.setStringImpl key value)
  | .setByteArray key value => return .truth (← RedisStore.setByteArrayImpl key value)
  | .exists key => return .truth (← RedisStore.existsImpl key)
  | .del key => return .truth (← RedisStore.delImpl key)

/-- The operations that read a count. -/
def Counts : StoreCall → Prop
  | .exists _ => True
  | .del _ => True
  | _ => False

instance (call : StoreCall) : Decidable call.Counts := by
  cases call <;> first | exact instDecidableTrue | exact instDecidableFalse

end StoreCall

/-! ## Replies of a history -/

/-- The replies to the commands of a history, null pointers included. -/
def redisReplies (calls : List BackendEvent) : List (Option RedisReply) :=
  calls.filterMap fun
    | ⟨.redisCommand .., reply⟩ => some reply
    | _ => none

/-- The replies of hiredis: what a command obtains and what is freed. -/
def heldReplies : ResourceUse BackendEvent RedisReply where
  gives
    | ⟨.redisCommand .., reply⟩ => reply
    | _ => none
  frees
    | ⟨.freeReplyObject reply, _⟩ => some reply
    | _ => none

/-- A command without a reply, or with an error. -/
def Unsuccessful (reply : Option RedisReply) : Prop :=
  ∀ r, reply = some r → r.type = .error

/-! ## How an operation reads its reply -/

namespace RedisStore

/-- One command on a context of the pool, up to the context's release. -/
def send (args : List Bytes) : Backend (Option RedisReply) := do
  let ctx ← getContext
  let reply ← redisCommand ctx args
  releaseContext ctx
  return reply

theorem command_eq_send (args : List Bytes) : command args = send args >>= dereference := by
  simp only [command, send, bind_assoc, pure_bind]

/-- What a getter makes of the reply. -/
def readValue {α : Type} (convert : Bytes → Except Log α) (function : Bytes) (reply : RedisReply) :
    Except Log (Option α) :=
  if reply.type = .string then (convert reply.str).map some
  else if reply.type = .nil then .ok none
  else
    .error
      { msg := if reply.type = .error then cStr reply.str else ascii "Unknown error"
        file := ascii "interfaces/store/redis.cpp"
        function := function }

theorem getValue_eq_readValue {α : Type} (convert : Bytes → Except Log α) (function key : Bytes) :
    getValue convert function key = command [ascii "GET", key] >>= fun reply => do
      freeReplyObject reply
      return readValue convert function reply := by
  unfold getValue readValue
  congr 1
  funext reply
  congr 1
  funext _
  split_ifs <;> rfl

end RedisStore

/-- What follows a command frees the reply and returns, or is a count that keeps it. -/
def Finishes (counts : Prop) (finish : RedisReply → Backend StoreOutcome) : Prop :=
  ∀ reply,
    (counts ∧ reply.type ≠ .integer ∧ finish reply = return .truth false) ∨
      (counts → reply.type = .integer) ∧ ∃ outcome,
        finish reply = (do freeReplyObject reply; return outcome) ∧
          (reply.type = .error → outcome.Failed)

/-- An operation sends one command and finishes with its reply. -/
def SendsOne (counts : Prop) (program : Backend StoreOutcome) : Prop :=
  ∃ args finish, program = RedisStore.command args >>= finish ∧ Finishes counts finish

theorem sendsOne_getValue {α : Type} (convert : Bytes → Except Log α) (function key : Bytes)
    (wrap : α → StoredValue) :
    SendsOne False (do
      return .found ((← RedisStore.getValue convert function key).map (Option.map wrap))) := by
  refine ⟨[ascii "GET", key], fun reply => do
    freeReplyObject reply
    return .found ((RedisStore.readValue convert function reply).map (Option.map wrap)), ?_, ?_⟩
  · rw [RedisStore.getValue_eq_readValue, bind_assoc]
    simp only [bind_assoc, pure_bind]
  · intro reply
    refine .inr ⟨nofun, _, rfl, ?_⟩
    intro error
    simp [RedisStore.readValue, error, Except.map, StoreOutcome.Failed]

theorem sendsOne_setValue (key value : Bytes) :
    SendsOne False (do return .truth (← RedisStore.setValue key value)) := by
  refine ⟨_, _, bind_assoc _ _ _, ?_⟩
  intro reply
  refine .inr ⟨nofun, .truth (reply.type ≠ .error), ?_, ?_⟩
  · simp only [bind_assoc, pure_bind]
  · intro error
    simp [StoreOutcome.Failed, error]

theorem sendsOne_countPositive (name key : Bytes) :
    SendsOne True (do return .truth (← RedisStore.countPositive name key)) := by
  refine ⟨_, _, bind_assoc _ _ _, ?_⟩
  intro reply
  by_cases integer : reply.type = .integer
  · refine .inr ⟨fun _ => integer, .truth (reply.integer > 0), ?_, ?_⟩
    · simp only [if_pos integer, bind_assoc, pure_bind]
    · simp [integer]
  · refine .inl ⟨trivial, integer, ?_⟩
    simp only [if_neg integer, pure_bind]

theorem StoreCall.sendsOne (call : StoreCall) : SendsOne call.Counts (call.program texts) := by
  cases call with
  | getInt32 key =>
      exact sendsOne_getValue (fun str => StringUtils.toInt32 (cStr str) _) _ key .int32
  | getInt64 key =>
      exact sendsOne_getValue (fun str => StringUtils.toInt64 (cStr str) _) _ key .int64
  | getFloat key =>
      exact sendsOne_getValue (fun str => StringUtils.toFloat texts (cStr str) _) _ key .float
  | getDouble key =>
      exact sendsOne_getValue (fun str => StringUtils.toDouble texts (cStr str) _) _ key .double
  | getBool key => exact sendsOne_getValue _ _ key .bool
  | getString key => exact sendsOne_getValue _ _ key .string
  | getByteArray key => exact sendsOne_getValue _ _ key .byteArray
  | setInt key value => exact sendsOne_setValue key _
  | setInt64 key value => exact sendsOne_setValue key _
  | setFloat key value => exact sendsOne_setValue key _
  | setDouble key value => exact sendsOne_setValue key _
  | setBool key value => exact sendsOne_setValue key _
  | setString key value => exact sendsOne_setValue key value
  | setByteArray key value => exact sendsOne_setValue key value
  | «exists» key => exact sendsOne_countPositive _ key
  | del key => exact sendsOne_countPositive _ key

/-! ## Steps of a run -/

/-- An operation of a run and the state it begins in. -/
structure StoreStep (σ : Type) where
  call : StoreCall
  before : σ

/-- The operations of a run; none follows one that does not return. -/
def storeSteps {σ : Type} (h : BackendHandler σ) : List StoreCall → σ → List (StoreStep σ)
  | [], _ => []
  | first :: rest, s =>
      ⟨first, s⟩ ::
        match run h (first.program texts) s with
        | none => []
        | some (_, s') => storeSteps h rest s'

namespace StoreStep

variable {σ : Type} (h : BackendHandler σ) (pool : σ → List Nat) (step : StoreStep σ)

def calls : List BackendEvent :=
  history h (step.call.program texts) step.before

/-- No null pointer is read, a command that does not succeed makes the operation fail,
every reply is freed once, and the context is back in the pool. -/
structure Survives : Prop where
  noNullRead : stoppedAt h (step.call.program texts) step.before ≠ some .nullDereference
  failure : ∀ outcome last,
    run h (step.call.program texts) step.before = some (outcome, last) →
      (∃ reply ∈ redisReplies (step.calls texts h), Unsuccessful reply) → outcome.Failed
  settled : heldReplies.live (step.calls texts h) [] = some []
  freedOnce : ((step.calls texts h).filterMap heldReplies.gives).Perm
    ((step.calls texts h).filterMap heldReplies.frees)
  contextBack : ∀ outcome last,
    run h (step.call.program texts) step.before = some (outcome, last) →
      ∃ context rest, pool step.before = context :: rest ∧
        (⟨.popFront .redis, context⟩ : BackendEvent) ∈ step.calls texts h ∧
          pool last = rest ++ [context]

/-- The server answers the command, and a count with an integer. -/
def Replied : Prop :=
  ∀ reply ∈ redisReplies (step.calls texts h),
    ∃ r, reply = some r ∧ (step.call.Counts → r.type = .integer)

instance : Decidable (step.Replied texts h) :=
  decidable_of_iff (∀ reply ∈ redisReplies (step.calls texts h),
    ∃ r ∈ reply, step.call.Counts → r.type = .integer) Iff.rfl

/-- How an operation ends, by the reply to its command. -/
inductive Ends (context : Nat) (rest : List Nat) : Prop
  | lost (replies : redisReplies (step.calls texts h) = [none])
      (stopped : stoppedAt h (step.call.program texts) step.before = some .nullDereference)
  | kept {r : RedisReply} {outcome : StoreOutcome} {last : σ}
      (taken : (⟨.popFront .redis, context⟩ : BackendEvent) ∈ step.calls texts h)
      (back : pool last = rest ++ [context])
      (replies : redisReplies (step.calls texts h) = [some r])
      (ran : run h (step.call.program texts) step.before = some (outcome, last))
      (counts : step.call.Counts) (other : r.type ≠ .integer)
      (left : heldReplies.live (step.calls texts h) [] = some [r])
  | freed {r : RedisReply} {outcome : StoreOutcome} {last : σ}
      (taken : (⟨.popFront .redis, context⟩ : BackendEvent) ∈ step.calls texts h)
      (back : pool last = rest ++ [context])
      (replies : redisReplies (step.calls texts h) = [some r])
      (ran : run h (step.call.program texts) step.before = some (outcome, last))
      (integer : step.call.Counts → r.type = .integer) (failed : r.type = .error → outcome.Failed)
      (left : heldReplies.live (step.calls texts h) [] = some [])

end StoreStep

theorem history_nullDereference_bind {σ α β : Type} {h : BackendHandler σ} (next : α → Backend β)
    (s : σ) : history h ((nullDereference : Backend α) >>= next) s = [] := by
  change history h (.call _ _) s = []
  rw [history]
  cases h .nullDereference s with
  | none => rfl
  | some answer => exact answer.1.elim

theorem stoppedAt_nullDereference_bind {σ α β : Type} {h : BackendHandler σ}
    (next : α → Backend β) (s : σ) :
    stoppedAt h ((nullDereference : Backend α) >>= next) s = some .nullDereference := by
  change stoppedAt h (.call _ _) s = _
  rw [stoppedAt]
  cases h .nullDereference s with
  | none => rfl
  | some answer => exact answer.1.elim

/-- Any outcome of a command, a null pointer included. -/
structure RedisOutcomes {σ : Type} (h : BackendHandler σ) (pool : σ → List Nat) : Prop
    extends PoolCalls h .redis pool fun _ => () where
  command : ∀ context args s, ∃ reply s', h (.redisCommand context args) s = some (reply, s') ∧
    pool s' = pool s
  free : ∀ reply s, ∃ s', h (.freeReplyObject reply) s = some ((), s') ∧ pool s' = pool s

namespace RedisOutcomes

variable {σ : Type} {h : BackendHandler σ} {pool : σ → List Nat} (outcomes : RedisOutcomes h pool)

include outcomes

theorem ran_send {context : Nat} {rest : List Nat} {s : σ} (front : pool s = context :: rest)
    (args : List Bytes) :
    ∃ reply last,
      Ran h (RedisStore.send args) s
          (onConnection .redis context [⟨.redisCommand context args, reply⟩]) reply last ∧
        pool last = rest ++ [context] := by
  obtain ⟨s₁, taken, pool₁, -⟩ := outcomes.toPoolCalls.ran_take front
  obtain ⟨reply, s₂, answered, pool₂⟩ := outcomes.command context args s₁
  obtain ⟨s₃, given, pool₃, -⟩ := outcomes.toPoolCalls.ran_give context s₂
  refine ⟨reply, s₃, ?_, ?_⟩
  · have last : Ran h (do RedisStore.releaseContext context; return reply) s₂
        (giveCalls .redis context ++ []) reply s₃ :=
      given.bind (ran_pure reply s₃)
    rw [List.append_nil] at last
    unfold RedisStore.send
    exact taken.bind ((ran_perform answered).bind last)
  · rw [pool₃, pool₂, pool₁]

/-- The three ends of an operation. -/
theorem ends {context : Nat} {rest : List Nat} {step : StoreStep σ}
    (front : pool step.before = context :: rest) : step.Ends texts h pool context rest := by
  obtain ⟨args, finish, sends, finishes⟩ := step.call.sendsOne texts
  obtain ⟨reply, s₁, ⟨sent, called⟩, back⟩ := outcomes.ran_send front args
  have program : step.call.program texts =
      RedisStore.send args >>= fun pointer => dereference pointer >>= finish := by
    rw [sends, RedisStore.command_eq_send, bind_assoc]
  have calls : step.calls texts h =
      onConnection .redis context [⟨.redisCommand context args, reply⟩] ++
        history h (dereference reply >>= finish) s₁ := by
    rw [StoreStep.calls, program, history_bind_of_run sent, called]
  cases reply with
  | none =>
      rw [dereference, history_nullDereference_bind, List.append_nil] at calls
      apply StoreStep.Ends.lost
      · rw [calls]
        rfl
      · rw [program, stoppedAt_bind_of_run sent]
        exact stoppedAt_nullDereference_bind finish s₁
  | some r =>
      have held : heldReplies.live
          (onConnection .redis context [⟨.redisCommand context args, some r⟩]) [] = some [r] :=
        live_onConnection rfl rfl rfl
      have taken : (⟨.popFront .redis, context⟩ : BackendEvent) ∈ step.calls texts h := by
        rw [calls]
        exact List.mem_append_left _ popFront_mem_onConnection
      have reads : dereference (some r) >>= finish = finish r := pure_bind r finish
      rw [reads] at calls
      have ran : run h (step.call.program texts) step.before = run h (finish r) s₁ := by
        rw [program, run_bind_of_run sent, reads]
      rcases finishes r with ⟨counts, other, kept⟩ | ⟨integer, outcome, frees, failed⟩
      · rw [kept, history_pure, List.append_nil] at calls
        rw [kept, run_pure] at ran
        have replies : redisReplies (step.calls texts h) = [some r] := by
          rw [calls]
          rfl
        rw [← calls] at held
        exact .kept taken back replies ran counts other held
      · obtain ⟨s₂, freed, samePool⟩ := outcomes.free r s₁
        have dropped : Ran h (do freeReplyObject r; return outcome) s₁
            [⟨.freeReplyObject r, ()⟩] outcome s₂ :=
          (ran_perform freed).bind (ran_pure outcome s₂)
        obtain ⟨ranFree, calledFree⟩ := dropped
        rw [frees, calledFree] at calls
        rw [frees] at ran
        have replies : redisReplies (step.calls texts h) = [some r] := by
          rw [calls]
          rfl
        have left : heldReplies.live (step.calls texts h) [] = some [] := by
          rw [calls, ResourceUse.live_append, held]
          simp [ResourceUse.after, heldReplies]
        exact .freed taken (samePool.trans back) replies (ran.trans ranFree) integer failed left

/-- An operation survives its command's outcome if and only if the command is answered,
and a count with an integer. -/
theorem step_survives_iff {step : StoreStep σ} (connected : pool step.before ≠ []) :
    step.Survives texts h pool ↔ step.Replied texts h := by
  obtain ⟨context, rest, front⟩ := List.exists_cons_of_ne_nil connected
  have ends := outcomes.ends texts front
  constructor
  · intro survives reply replied
    cases ends with
    | lost _ stopped => exact absurd stopped survives.noNullRead
    | kept _ _ _ _ _ _ left =>
        rw [survives.settled] at left
        cases left
    | @freed r _ _ _ _ replies _ integer =>
        rw [replies, List.mem_singleton] at replied
        exact ⟨r, replied, integer⟩
  · intro replied
    cases ends with
    | lost replies =>
        obtain ⟨r, answered, -⟩ := replied none (replies ▸ List.mem_singleton_self none)
        cases answered
    | @kept r _ _ _ _ replies _ counts other =>
        obtain ⟨r', same, integer⟩ := replied (some r) (replies ▸ List.mem_singleton_self (some r))
        cases same
        exact absurd (integer counts) other
    | @freed r outcome last taken back replies ran integer failed left =>
        constructor
        case noNullRead =>
          rw [stoppedAt_of_run ran]
          nofun
        case failure =>
          rintro outcome' last' ran' ⟨reply, member, unsuccessful⟩
          rw [ran] at ran'
          cases ran'
          rw [replies, List.mem_singleton] at member
          exact failed (unsuccessful r member)
        case settled => exact left
        case freedOnce =>
          have once := ResourceUse.perm_of_live left
          rwa [List.nil_append, List.nil_append] at once
        case contextBack =>
          intro outcome' last' ran'
          rw [ran] at ran'
          cases ran'
          exact ⟨context, rest, front, taken, back⟩

/-- An operation that returns leaves a context in the pool. -/
theorem connected_after (step : StoreStep σ) (connected : pool step.before ≠ [])
    {outcome : StoreOutcome} {last : σ}
    (ran : run h (step.call.program texts) step.before = some (outcome, last)) :
    pool last ≠ [] := by
  obtain ⟨context, rest, front⟩ := List.exists_cons_of_ne_nil connected
  cases outcomes.ends texts front with
  | lost _ stopped =>
      rw [stoppedAt_of_run ran] at stopped
      cases stopped
  | kept _ back _ ran' =>
      rw [ran] at ran'
      cases ran'
      simp [back]
  | freed _ back _ ran' =>
      rw [ran] at ran'
      cases ran'
      simp [back]

theorem returns_of_replied (step : StoreStep σ) (connected : pool step.before ≠ [])
    (replied : step.Replied texts h) :
    ∃ outcome last, run h (step.call.program texts) step.before = some (outcome, last) := by
  obtain ⟨context, rest, front⟩ := List.exists_cons_of_ne_nil connected
  cases outcomes.ends texts front with
  | lost replies =>
      obtain ⟨r, answered, -⟩ := replied none (replies ▸ List.mem_singleton_self none)
      cases answered
  | kept _ _ _ ran => exact ⟨_, _, ran⟩
  | freed _ _ _ ran => exact ⟨_, _, ran⟩

/-- There is a context in the pool before every operation of a run. -/
theorem connected_of_mem {calls : List StoreCall} {s : σ} (connected : pool s ≠ [])
    {step : StoreStep σ} (reached : step ∈ storeSteps texts h calls s) : pool step.before ≠ [] := by
  induction calls generalizing s with
  | nil => cases reached
  | cons first rest ih =>
      rw [storeSteps, List.mem_cons] at reached
      rcases reached with rfl | later
      · exact connected
      · cases ran : run h (first.program texts) s with
        | none =>
            rw [ran] at later
            cases later
        | some answer =>
            rw [ran] at later
            exact ih (outcomes.connected_after texts ⟨first, s⟩ connected ran) later

theorem calls_of_replied {calls : List StoreCall} {s : σ} (connected : pool s ≠ [])
    (replied : ∀ step ∈ storeSteps texts h calls s, step.Replied texts h) :
    (storeSteps texts h calls s).map StoreStep.call = calls := by
  induction calls generalizing s with
  | nil => rfl
  | cons first rest ih =>
      have start : StoreStep.mk first s ∈ storeSteps texts h (first :: rest) s :=
        List.mem_cons_self
      obtain ⟨outcome, s', ran⟩ :=
        outcomes.returns_of_replied texts ⟨first, s⟩ connected (replied _ start)
      have connected' := outcomes.connected_after texts ⟨first, s⟩ connected ran
      rw [storeSteps, ran] at replied ⊢
      rw [List.map_cons, ih connected' (fun step later => replied step (.tail _ later))]

/-- Every operation of a run survives if and only if every command is answered, and every
count with an integer; then the run reaches its end. -/
theorem run_survives_iff (calls : List StoreCall) {s : σ} (connected : pool s ≠ []) :
    ((∀ step ∈ storeSteps texts h calls s, step.Survives texts h pool) ↔
        ∀ step ∈ storeSteps texts h calls s, step.Replied texts h) ∧
      ((∀ step ∈ storeSteps texts h calls s, step.Replied texts h) →
        (storeSteps texts h calls s).map StoreStep.call = calls) := by
  constructor
  · constructor
    · intro survives step reached
      have here := outcomes.connected_of_mem texts connected reached
      exact (outcomes.step_survives_iff texts here).mp (survives step reached)
    · intro replied step reached
      have here := outcomes.connected_of_mem texts connected reached
      exact (outcomes.step_survives_iff texts here).mpr (replied step reached)
  · exact outcomes.calls_of_replied texts connected

end RedisOutcomes

/-! ## A server that answers as it is told -/

/-- The replies to come; a context that was left without a reply gets none again. -/
structure ScriptedRedis where
  pool : List Nat
  lost : List Nat := []
  replies : List (Option RedisReply)

namespace ScriptedRedis

def handler : BackendHandler ScriptedRedis
  | .acquire .redis, server => some ((), server)
  | .popFront .redis, server =>
      match server.pool with
      | [] => none
      | context :: rest => some (context, { server with pool := rest })
  | .pushBack .redis context, server => some ((), { server with pool := server.pool ++ [context] })
  | .release .redis, server => some ((), server)
  | .redisCommand context _, server =>
      if context ∈ server.lost then some (none, server)
      else
        match server.replies with
        | some reply :: replies => some (some reply, { server with replies := replies })
        | replies =>
            some (none, { server with lost := context :: server.lost, replies := replies.tail })
  | .freeReplyObject _, server => some ((), server)
  | _, _ => none

theorem outcomes : RedisOutcomes handler pool where
  acquire server _ := ⟨server, rfl, rfl, rfl⟩
  popFront server context rest front := by
    refine ⟨{ server with pool := rest }, ?_, rfl, rfl⟩
    rw [handler, front]
  pushBack context server := ⟨_, rfl, rfl, rfl⟩
  release server := ⟨server, rfl, rfl, rfl⟩
  command context args server := by
    rw [handler]
    split
    · exact ⟨none, server, rfl, rfl⟩
    · split
      · exact ⟨_, _, rfl, rfl⟩
      · exact ⟨_, _, rfl, rfl⟩
  free reply server := ⟨server, rfl, rfl⟩

end ScriptedRedis

/-- Conversions for runs without floating-point numbers. -/
def sampleFloatTexts : FloatTexts where
  stof _ := none
  stod _ := none
  floatText _ := ascii "0.0000000"
  doubleText _ := ascii "0.000000000000000"

/-- A key is set, read, counted, read with an error and found absent. -/
def answeredCalls : List StoreCall :=
  [.setInt (ascii "key") 1, .getInt32 (ascii "key"), .exists (ascii "key"),
    .getString (ascii "key"), .getByteArray (ascii "other")]

def answeringServer : ScriptedRedis where
  pool := [0, 1]
  replies :=
    [some { type := .status, str := ascii "OK" }, some { type := .string, str := ascii "1" },
      some { type := .integer, integer := 1 }, some { type := .error, str := ascii "LOADING" },
      some { type := .nil }]

theorem answeredCalls_survive :
    answeringServer.pool ≠ [] ∧
      (∀ step ∈ storeSteps sampleFloatTexts ScriptedRedis.handler answeredCalls answeringServer,
        step.Survives sampleFloatTexts ScriptedRedis.handler ScriptedRedis.pool) ∧
      (storeSteps sampleFloatTexts ScriptedRedis.handler answeredCalls answeringServer).map
        StoreStep.call = answeredCalls := by
  have connected : answeringServer.pool ≠ [] := List.cons_ne_nil _ _
  have replied : ∀ step ∈
      storeSteps sampleFloatTexts ScriptedRedis.handler answeredCalls answeringServer,
      step.Replied sampleFloatTexts ScriptedRedis.handler := by
    decide
  obtain ⟨survives, reached⟩ :=
    ScriptedRedis.outcomes.run_survives_iff sampleFloatTexts answeredCalls connected
  exact ⟨connected, survives.mpr replied, reached replied⟩

/-- A server that is loading, and the connection is lost after its error. -/
def loadingReply : RedisReply :=
  { type := .error, str := ascii "LOADING" }

def loadingServer : ScriptedRedis where
  pool := [0]
  replies := [some loadingReply, none]

/-- The error is never freed, and the missing reply is read. -/
theorem loadingServer_not_survived :
    heldReplies.live ((StoreStep.mk (.exists (ascii "key")) loadingServer).calls sampleFloatTexts
        ScriptedRedis.handler) [] = some [loadingReply] ∧
      stoppedAt ScriptedRedis.handler
          ((StoreCall.getInt32 (ascii "key")).program sampleFloatTexts)
          { loadingServer with replies := [none] } = some .nullDereference ∧
      ¬ ∀ step ∈ storeSteps sampleFloatTexts ScriptedRedis.handler
          [.exists (ascii "key"), .getInt32 (ascii "key")] loadingServer,
        step.Survives sampleFloatTexts ScriptedRedis.handler ScriptedRedis.pool := by
  have leaked : heldReplies.live ((StoreStep.mk (.exists (ascii "key")) loadingServer).calls
      sampleFloatTexts ScriptedRedis.handler) [] = some [loadingReply] := by
    rfl
  refine ⟨leaked, rfl, ?_⟩
  intro survives
  have settled := (survives _ List.mem_cons_self).settled
  rw [leaked] at settled
  cases settled

end CleanArchitecture
