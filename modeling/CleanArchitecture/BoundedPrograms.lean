import CleanArchitecture.Interleaving

/-!
# Programs with a bounded number of calls

A bound on the calls of a program holds whatever the environment answers.  Bounds add
up along a program and multiply under an expansion, and threads whose programs are
bounded take no more turns than their bounds add up to.
-/

namespace CleanArchitecture

namespace Program

variable {Cmd Cmd' : Type} {Resp : Cmd → Type} {Resp' : Cmd' → Type} {α β σ : Type}

/-- Whatever the responses, the program makes at most this many calls. -/
def CallsAtMost : Nat → Program Cmd Resp α → Prop
  | _, .done _ => True
  | 0, .call _ _ => False
  | bound + 1, .call _ next => ∀ response, CallsAtMost bound (next response)

theorem callsAtMost_pure (bound : Nat) (value : α) :
    CallsAtMost bound (pure value : Program Cmd Resp α) := by
  cases bound <;> exact trivial

theorem callsAtMost_perform (command : Cmd) :
    CallsAtMost 1 (perform command : Program Cmd Resp _) :=
  fun _ => trivial

theorem CallsAtMost.mono {bound wider : Nat} {program : Program Cmd Resp α}
    (bounded : CallsAtMost bound program) (le : bound ≤ wider) : CallsAtMost wider program := by
  induction program generalizing bound wider with
  | done value => exact callsAtMost_pure wider value
  | call command next ih =>
      cases bound with
      | zero => exact bounded.elim
      | succ bound =>
          obtain ⟨wider, rfl⟩ := Nat.exists_eq_add_of_lt le
          exact fun response => ih response (bounded response) (by omega)

theorem CallsAtMost.bind {first second : Nat} {program : Program Cmd Resp α}
    {next : α → Program Cmd Resp β} (bounded : CallsAtMost first program)
    (rest : ∀ value, CallsAtMost second (next value)) :
    CallsAtMost (first + second) (program >>= next) := by
  induction program generalizing first with
  | done value => exact (rest value).mono (Nat.le_add_left second first)
  | call command more ih =>
      cases first with
      | zero => exact bounded.elim
      | succ first =>
          rw [Nat.succ_add]
          exact fun response => ih response (bounded response)

/-- An expansion makes at most the calls of as many bodies. -/
theorem CallsAtMost.expand {body : (command : Cmd) → Program Cmd' Resp' (Resp command)}
    {most bound : Nat} (bodies : ∀ command, CallsAtMost most (body command))
    {program : Program Cmd Resp α} (bounded : CallsAtMost bound program) :
    CallsAtMost (bound * most) (program.expand body) := by
  induction program generalizing bound with
  | done value => exact callsAtMost_pure _ value
  | call command next ih =>
      cases bound with
      | zero => exact bounded.elim
      | succ bound =>
          rw [Nat.succ_mul, Nat.add_comm]
          exact (bodies command).bind fun response => ih response (bounded response)

/-! ## Programs made of calls -/

theorem expand_bind (body : (command : Cmd) → Program Cmd' Resp' (Resp command))
    (program : Program Cmd Resp α) (next : α → Program Cmd Resp β) :
    (program >>= next).expand body =
      program.expand body >>= fun value => (next value).expand body := by
  induction program with
  | done value => rfl
  | call command rest ih =>
      change (body command >>= fun response => (rest response >>= next).expand body) =
        (body command >>= fun response => (rest response).expand body) >>= _
      rw [bind_assoc]
      exact congrArg (body command >>= ·) (funext ih)

theorem expand_perform (body : (command : Cmd) → Program Cmd' Resp' (Resp command))
    (command : Cmd) : (perform command).expand body = body command :=
  bind_pure (body command)

/-- A program that makes at most this many calls, each carried out by its body. -/
def MadeOf (body : (command : Cmd) → Program Cmd' Resp' (Resp command)) (bound : Nat)
    (program : Program Cmd' Resp' α) : Prop :=
  ∃ caller : Program Cmd Resp α, CallsAtMost bound caller ∧ caller.expand body = program

variable {body : (command : Cmd) → Program Cmd' Resp' (Resp command)}

theorem madeOf_pure (bound : Nat) (value : α) : MadeOf body bound (pure value) :=
  ⟨pure value, callsAtMost_pure bound value, rfl⟩

theorem madeOf_body (command : Cmd) : MadeOf body 1 (body command) :=
  ⟨perform command, callsAtMost_perform command, expand_perform body command⟩

theorem MadeOf.mono {bound wider : Nat} {program : Program Cmd' Resp' α}
    (made : MadeOf body bound program) (le : bound ≤ wider) : MadeOf body wider program := by
  obtain ⟨caller, bounded, expanded⟩ := made
  exact ⟨caller, bounded.mono le, expanded⟩

theorem MadeOf.bind {first second : Nat} {program : Program Cmd' Resp' α}
    {next : α → Program Cmd' Resp' β} (made : MadeOf body first program)
    (rest : ∀ value, MadeOf body second (next value)) :
    MadeOf body (first + second) (program >>= next) := by
  obtain ⟨caller, bounded, expanded⟩ := made
  choose callers bounds expansions using rest
  refine ⟨caller >>= callers, bounded.bind bounds, ?_⟩
  rw [expand_bind, expanded]
  exact congrArg (program >>= ·) (funext expansions)

end Program

open Program

variable {Cmd : Type} {Resp : Cmd → Type} {α φ σ ι : Type}

namespace Threads

variable [DecidableEq ι] [Fintype ι] {P : ι → Protocol Cmd Resp φ} {h : CommandHandler Cmd Resp σ}

/-- Threads with bounded programs take at most as many turns together. -/
theorem length_le_of_run {bound : ι → Nat} {s last : Threads Cmd Resp α φ σ ι}
    (bounded : ∀ i, CallsAtMost (bound i) (s.programs i)) {schedule : List ι}
    {turns : List (Turn Cmd Resp α φ σ ι)}
    (ran : (interleaving P h).run s schedule = .ok (last, turns)) :
    schedule.length ≤ ∑ i, bound i := by
  induction schedule generalizing s bound turns with
  | nil => exact Nat.zero_le _
  | cons i schedule ih =>
      obtain ⟨s', turn, rest, stepped, later, -⟩ := EventMachine.run_cons_ok.mp ran
      obtain ⟨command, next, response, shared, calls, -, rfl, -⟩ := step_cases stepped
      have here := bounded i
      rw [calls] at here
      -- The turn uses up one call of its thread's bound.
      obtain ⟨left, more⟩ : ∃ left, bound i = left + 1 := by
        cases found : bound i with
        | zero =>
            rw [found] at here
            exact here.elim
        | succ left => exact ⟨left, rfl⟩
      rw [more] at here
      have still : ∀ j, CallsAtMost (Function.update bound i left j)
          ((s.advance P i command response (next response) shared).programs j) := by
        intro j
        by_cases same : j = i
        · subst same
          simpa [advance] using here response
        · simpa [advance, Function.update_of_ne same] using bounded j
      have shorter := ih still later
      have total := sum_update id bound i left
      simp only [id, more] at total
      rw [List.length_cons]
      omega

end Threads

end CleanArchitecture
