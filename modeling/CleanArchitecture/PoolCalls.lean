import CleanArchitecture.Backend
import CleanArchitecture.ProgramHistory
import CleanArchitecture.Resources

/-!
# Calls on a connection of a pool

A connection is taken from the front of the pool, used and pushed to its back.
-/

namespace CleanArchitecture

open Program

/-- A call of the backend with its response. -/
abbrev BackendEvent : Type :=
  CallEvent Command.Response

namespace Backend

section OnConnection

variable (which : Pool) (connection : Nat)

def takeCalls : List BackendEvent :=
  [⟨.acquire which, ()⟩, ⟨.popFront which, connection⟩]

def giveCalls : List BackendEvent :=
  [⟨.pushBack which connection, ()⟩, ⟨.release which, ()⟩]

/-- The calls around those on the connection. -/
def onConnection (calls : List BackendEvent) : List BackendEvent :=
  takeCalls which connection ++ (calls ++ giveCalls which connection)

end OnConnection

variable {which : Pool} {connection : Nat} {calls : List BackendEvent}

theorem popFront_mem_onConnection :
    (⟨.popFront which, connection⟩ : BackendEvent) ∈ onConnection which connection calls :=
  .tail _ List.mem_cons_self

/-- A use that is not about the pool is settled by the calls on the connection. -/
theorem live_onConnection {ρ : Type} [DecidableEq ρ] {use : ResourceUse BackendEvent ρ}
    {left : List ρ} (taken : use.live (takeCalls which connection) [] = some [])
    (given : use.live (giveCalls which connection) left = some left)
    (settled : use.live calls [] = some left) :
    use.live (onConnection which connection calls) [] = some left := by
  rw [onConnection, ResourceUse.live_append, taken, Option.bind_some, ResourceUse.live_append,
    settled, Option.bind_some, given]

end Backend

/-- The calls on a pool are answered as on a deque, and leave the rest as it is. -/
structure PoolCalls {σ τ : Type} (h : BackendHandler σ) (which : Pool) (pool : σ → List Nat)
    (view : σ → τ) : Prop where
  acquire : ∀ s, pool s ≠ [] → ∃ s', h (.acquire which) s = some ((), s') ∧
    pool s' = pool s ∧ view s' = view s
  popFront : ∀ s connection rest, pool s = connection :: rest →
    ∃ s', h (.popFront which) s = some (connection, s') ∧ pool s' = rest ∧ view s' = view s
  pushBack : ∀ connection s, ∃ s', h (.pushBack which connection) s = some ((), s') ∧
    pool s' = pool s ++ [connection] ∧ view s' = view s
  release : ∀ s, ∃ s', h (.release which) s = some ((), s') ∧
    pool s' = pool s ∧ view s' = view s

namespace PoolCalls

open Backend

variable {σ τ : Type} {h : BackendHandler σ} {which : Pool} {pool : σ → List Nat} {view : σ → τ}
  (deque : PoolCalls h which pool view)

include deque

theorem ran_take {connection : Nat} {rest : List Nat} {s : σ}
    (front : pool s = connection :: rest) :
    ∃ s', Ran h (do Backend.acquire which; Backend.popFront which) s (takeCalls which connection)
        connection s' ∧
      pool s' = rest ∧ view s' = view s := by
  obtain ⟨s₁, acquired, pool₁, view₁⟩ := deque.acquire s (by simp [front])
  obtain ⟨s₂, popped, pool₂, view₂⟩ := deque.popFront s₁ connection rest (pool₁.trans front)
  exact ⟨s₂, (ran_perform acquired).bind (ran_perform popped), pool₂, view₂.trans view₁⟩

theorem ran_give (connection : Nat) (s : σ) :
    ∃ s', Ran h (do Backend.pushBack which connection; Backend.release which) s
        (giveCalls which connection) () s' ∧
      pool s' = pool s ++ [connection] ∧ view s' = view s := by
  obtain ⟨s₁, pushed, pool₁, view₁⟩ := deque.pushBack connection s
  obtain ⟨s₂, released, pool₂, view₂⟩ := deque.release s₁
  exact ⟨s₂, (ran_perform pushed).bind (ran_perform released), pool₂.trans pool₁,
    view₂.trans view₁⟩

end PoolCalls

end CleanArchitecture
