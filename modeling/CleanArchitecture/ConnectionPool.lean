import CleanArchitecture.Backend
import Mathlib.Data.List.Count
import Mathlib.Data.List.Nodup
import Mathlib.Data.List.Range

/-!
# Opening and closing the pools

The constructors of `RedisStore` and `Postgres` open connections one after the
other and stop at the first attempt that fails; the destructors close what is in the
pool.  A connection is known by the number of the attempt that created it.
-/

namespace CleanArchitecture

/-- An object with a pool, and what it has created and freed. -/
structure PoolObject where
  pool : List Nat := []
  semaphore : Nat
  error : Option Log := none
  created : List Nat := []
  freed : List Nat := []
  deriving DecidableEq

/-- How a class tells that an attempt failed, from the pointer it got, and what it
logs then. -/
structure ConnectionClass (κ : Type) where
  failed : Option κ → Bool
  errorLog : Option κ → Log

namespace ConnectionClass

variable {κ : Type} (cls : ConnectionClass κ)

/-- A null pointer is no connection, and freeing it does nothing. -/
def connectionAt (attempts : Nat → Option κ) (i : Nat) : List Nat :=
  match attempts i with
  | none => []
  | some _ => [i]

/-- The loop of the constructor from the `i`-th attempt on.  After a failed attempt
everything in the pool is freed, and then the connection of the attempt. -/
def openFrom (attempts : Nat → Option κ) : Nat → Nat → PoolObject → PoolObject
  | 0, _, object => object
  | remaining + 1, i, object =>
      let object := { object with created := object.created ++ connectionAt attempts i }
      if cls.failed (attempts i) then
        { object with
          freed := object.freed ++ object.pool ++ connectionAt attempts i
          error := some (cls.errorLog (attempts i)) }
      else openFrom attempts remaining (i + 1) { object with pool := object.pool ++ [i] }

def construct (attempts : Nat → Option κ) (numPool : Nat) : PoolObject :=
  cls.openFrom attempts numPool 0 { semaphore := numPool }

end ConnectionClass

/-- The destructor frees what the pool contains. -/
def PoolObject.destruct (object : PoolObject) : PoolObject :=
  if object.pool = [] then object else { object with freed := object.freed ++ object.pool }

/-! ## The two classes -/

structure RedisContext where
  err : Int
  errstr : Bytes
  deriving DecidableEq

def RedisStore.connections : ConnectionClass RedisContext where
  failed
    | none => true
    | some ctx => ctx.err ≠ 0
  errorLog ctx :=
    { msg :=
        match ctx with
        | none => ascii "Can't allocate redis context"
        | some ctx => ascii "Redis could not be initialized (" ++ cStr ctx.errstr ++ ascii ")"
      file := ascii "interfaces/store/redis.cpp"
      function := ascii "RedisStore::RedisStore" }

/-- `RedisStore::RedisStore`, given what `redisConnect` returns. -/
def RedisStore.construct (attempts : Nat → Option RedisContext) (numPool : Nat) : PoolObject :=
  RedisStore.connections.construct attempts numPool

inductive ConnStatus
  | connectionOk
  | connectionBad
  deriving DecidableEq

structure PgConn where
  status : ConnStatus
  errorMessage : Bytes
  deriving DecidableEq

def pqStatus (client : Option PgConn) : ConnStatus :=
  match client with
  | none => .connectionBad
  | some c => c.status

def pqErrorMessage (client : Option PgConn) : Bytes :=
  match client with
  | none => ascii "connection pointer is NULL\n"
  | some c => c.errorMessage

def Postgres.connections : ConnectionClass PgConn where
  failed client := pqStatus client ≠ .connectionOk
  errorLog client :=
    { msg := ascii "Postgres could not be initialize (" ++ cStr (pqErrorMessage client) ++ ascii ")"
      file := ascii "db/core/pg.cpp"
      function := ascii "Postgres::Postgres" }

/-- `Postgres::Postgres`, given what `PQconnectdb` returns. -/
def Postgres.construct (attempts : Nat → Option PgConn) (numPool : Nat) : PoolObject :=
  Postgres.connections.construct attempts numPool

/-! ## What the constructor leaves -/

namespace ConnectionClass

variable {κ : Type} {cls : ConnectionClass κ}

/-- A class fails every attempt that creates nothing. -/
def FailsNull (cls : ConnectionClass κ) : Prop :=
  cls.failed none = true

/-- An attempt that succeeds puts its connection into the pool. -/
theorem openFrom_of_succeeded (null : cls.FailsNull) {attempts : Nat → Option κ}
    (semaphore remaining : Nat) {i : Nat} (succeeded : cls.failed (attempts i) = false) :
    cls.openFrom attempts (remaining + 1) i
        { pool := List.range i, semaphore := semaphore, created := List.range i } =
      cls.openFrom attempts remaining (i + 1)
        { pool := List.range (i + 1), semaphore := semaphore, created := List.range (i + 1) } := by
  have opened : connectionAt attempts i = [i] := by
    unfold connectionAt
    split
    · rename_i missing
      rw [missing, show cls.failed none = true from null] at succeeded
      cases succeeded
    · rfl
  simp only [openFrom, succeeded, opened, List.range_succ, Bool.false_eq_true, if_false]

/-- Either every attempt from the `i`-th on succeeds, or there is a first one that
fails. -/
theorem openFrom_cases (null : cls.FailsNull) (attempts : Nat → Option κ)
    (semaphore remaining i : Nat) :
    (∀ j, i ≤ j → j < i + remaining → cls.failed (attempts j) = false) ∧
        cls.openFrom attempts remaining i
            { pool := List.range i, semaphore := semaphore, created := List.range i } =
          { pool := List.range (i + remaining), semaphore := semaphore,
            created := List.range (i + remaining) } ∨
      ∃ k, i ≤ k ∧ k < i + remaining ∧ cls.failed (attempts k) = true ∧
        (∀ j, i ≤ j → j < k → cls.failed (attempts j) = false) ∧
        cls.openFrom attempts remaining i
            { pool := List.range i, semaphore := semaphore, created := List.range i } =
          { pool := List.range k, semaphore := semaphore,
            error := some (cls.errorLog (attempts k)),
            created := List.range k ++ connectionAt attempts k,
            freed := List.range k ++ connectionAt attempts k } := by
  induction remaining generalizing i with
  | zero => exact .inl ⟨fun j low high => by omega, rfl⟩
  | succ remaining ih =>
      cases failed : cls.failed (attempts i) with
      | true =>
          refine .inr ⟨i, le_rfl, by omega, failed, fun j low high => by omega, ?_⟩
          simp only [openFrom, failed, if_true, List.nil_append]
      | false =>
          rw [openFrom_of_succeeded null semaphore remaining failed,
            show i + (remaining + 1) = i + 1 + remaining by omega]
          rcases ih (i + 1) with ⟨succeeded, whole⟩ | ⟨k, low, high, fails, before, stopped⟩
          · refine .inl ⟨fun j first last => ?_, whole⟩
            rcases Nat.eq_or_lt_of_le first with rfl | later
            · exact failed
            · exact succeeded j later last
          · refine .inr ⟨k, by omega, high, fails, fun j first last => ?_, stopped⟩
            rcases Nat.eq_or_lt_of_le first with rfl | later
            · exact failed
            · exact before j later last

/-- The constructor opens everything, or frees what it opened before an attempt that
failed and keeps it in the pool. -/
theorem construct_cases (null : cls.FailsNull) (attempts : Nat → Option κ) (numPool : Nat) :
    (∀ i, i < numPool → cls.failed (attempts i) = false) ∧
        cls.construct attempts numPool =
          { pool := List.range numPool, semaphore := numPool, created := List.range numPool } ∨
      ∃ k, k < numPool ∧ cls.failed (attempts k) = true ∧
        (∀ i, i < k → cls.failed (attempts i) = false) ∧
        cls.construct attempts numPool =
          { pool := List.range k, semaphore := numPool,
            error := some (cls.errorLog (attempts k)),
            created := List.range k ++ connectionAt attempts k,
            freed := List.range k ++ connectionAt attempts k } := by
  have start : ({ semaphore := numPool } : PoolObject) =
      { pool := List.range 0, semaphore := numPool, created := List.range 0 } :=
    rfl
  rw [construct, start]
  rcases openFrom_cases null attempts numPool numPool 0 with
    ⟨succeeded, whole⟩ | ⟨k, -, high, fails, before, stopped⟩
  · rw [Nat.zero_add] at whole succeeded
    exact .inl ⟨fun i inside => succeeded i (Nat.zero_le i) inside, whole⟩
  · exact .inr ⟨k, by omega, fails, fun i earlier => before i (Nat.zero_le i) earlier, stopped⟩

/-- Every created connection is freed once by the constructor and the destructor. -/
def FreedOnce (object : PoolObject) : Prop :=
  ∀ c ∈ object.created, object.destruct.freed.count c = 1

theorem destruct_freed (object : PoolObject) :
    object.destruct.freed = object.freed ++ object.pool := by
  unfold PoolObject.destruct
  split
  · rename_i empty
    rw [empty, List.append_nil]
  · rfl

/-- Connections are freed once if no attempt fails after one that succeeded. -/
theorem freedOnce_iff (null : cls.FailsNull) (attempts : Nat → Option κ) (numPool : Nat) :
    FreedOnce (cls.construct attempts numPool) ↔
      (∀ i, i < numPool → cls.failed (attempts i) = false) ∨ cls.failed (attempts 0) = true := by
  rcases construct_cases null attempts numPool with
    ⟨succeeded, whole⟩ | ⟨k, high, fails, before, stopped⟩
  · refine iff_of_true ?_ (.inl succeeded)
    intro c created
    rw [whole] at created
    rw [destruct_freed, whole, List.nil_append]
    exact List.count_eq_one_of_mem List.nodup_range created
  · rw [FreedOnce, destruct_freed, stopped]
    cases k with
    | zero =>
        refine iff_of_true ?_ (.inr fails)
        intro c created
        rw [List.range_zero, List.nil_append] at created
        rw [List.range_zero, List.nil_append, List.append_nil]
        unfold connectionAt at created ⊢
        split at created
        · cases created
        · rw [List.mem_singleton.mp created]
          rfl
    | succ k =>
        apply iff_of_false
        · intro once
          -- The first connection is freed by the constructor and by the destructor.
          have first : 0 ∈ List.range (k + 1) := List.mem_range.mpr (Nat.succ_pos k)
          have twice := once 0 (List.mem_append_left _ first)
          have one := List.count_eq_one_of_mem List.nodup_range first
          rw [List.count_append, List.count_append, one] at twice
          omega
        · rintro (all | firstFails)
          · rw [all (k + 1) high] at fails
            cases fails
          · rw [before 0 (Nat.succ_pos k)] at firstFails
            cases firstFails

end ConnectionClass

theorem RedisStore.failsNull : RedisStore.connections.FailsNull :=
  rfl

theorem Postgres.failsNull : Postgres.connections.FailsNull :=
  rfl

/-- For both classes, every context or client is freed exactly once over the life of
the object if and only if all attempts succeed or the first one fails. -/
theorem connections_freed_once_iff (numPool : Nat) :
    (∀ attempts, ConnectionClass.FreedOnce (RedisStore.construct attempts numPool) ↔
      (∀ i, i < numPool → RedisStore.connections.failed (attempts i) = false) ∨
        RedisStore.connections.failed (attempts 0) = true) ∧
    ∀ attempts, ConnectionClass.FreedOnce (Postgres.construct attempts numPool) ↔
      (∀ i, i < numPool → Postgres.connections.failed (attempts i) = false) ∨
        Postgres.connections.failed (attempts 0) = true :=
  ⟨fun attempts => ConnectionClass.freedOnce_iff RedisStore.failsNull attempts numPool,
    fun attempts => ConnectionClass.freedOnce_iff Postgres.failsNull attempts numPool⟩

/-- Two attempts of which the second one is refused. -/
def refusedSecond (i : Nat) : Option RedisContext :=
  some { err := if i = 0 then 0 else 1, errstr := ascii "Connection refused" }

/-- The context of the first attempt is freed by the constructor and again by the
destructor. -/
theorem context_freed_twice :
    0 ∈ (RedisStore.construct refusedSecond 2).created ∧
      (RedisStore.construct refusedSecond 2).destruct.freed.count 0 = 2 ∧
      ¬ ConnectionClass.FreedOnce (RedisStore.construct refusedSecond 2) := by
  refine ⟨by decide, by decide, fun once => ?_⟩
  exact absurd (once 0 (by decide)) (by decide)

end CleanArchitecture
