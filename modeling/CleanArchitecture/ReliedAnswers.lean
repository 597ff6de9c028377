import CleanArchitecture.Interleaving
import CleanArchitecture.ProgramHistory

/-!
# Programs that rely on good answers

A program may call a command only as long as every answer to it was good.  Where an
invariant of the environment makes the answers good, a run stops at no other command, and no
thread of an interleaving stands before one.
-/

namespace CleanArchitecture

namespace Program

variable {Cmd : Type} {Resp : Cmd → Type} {α β : Type}

/-- As long as all answers are good, every command that the program calls is allowed, and
its result satisfies the postcondition. -/
def Relies (good : (command : Cmd) → Resp command → Prop) (allowed : Cmd → Prop)
    (post : α → Prop) : Program Cmd Resp α → Prop
  | .done value => post value
  | .call command next =>
      allowed command ∧ ∀ response, good command response →
        Relies good allowed post (next response)

variable {good : (command : Cmd) → Resp command → Prop} {allowed : Cmd → Prop} {post : α → Prop}

theorem relies_pure {value : α} (holds : post value) :
    Relies good allowed post (pure value : Program Cmd Resp α) :=
  holds

/-- The answer is good. -/
theorem relies_perform {command : Cmd} (permitted : allowed command) :
    Relies good allowed (good command) (perform command : Program Cmd Resp _) :=
  ⟨permitted, fun _ holds => holds⟩

theorem Relies.mono {weaker : α → Prop} {program : Program Cmd Resp α}
    (relies : Relies good allowed post program) (results : ∀ value, post value → weaker value) :
    Relies good allowed weaker program := by
  induction program with
  | done value => exact results value relies
  | call command next ih =>
      exact ⟨relies.1, fun response holds => ih response (relies.2 response holds)⟩

theorem Relies.bind {middle : α → Prop} {result : β → Prop} {program : Program Cmd Resp α}
    {next : α → Program Cmd Resp β} (first : Relies good allowed middle program)
    (rest : ∀ value, middle value → Relies good allowed result (next value)) :
    Relies good allowed result (program >>= next) := by
  change Relies good allowed result (program.bind next)
  induction program with
  | done value => exact rest value first
  | call command continuation ih =>
      exact ⟨first.1, fun response holds => ih response (first.2 response holds)⟩

/-- What holds of the result whatever the answers holds of it after good ones. -/
theorem Relies.and_within {calls : Cmd → Prop} {holds : α → Prop} {program : Program Cmd Resp α}
    (relies : Relies good allowed post program) (within : Within calls holds program) :
    Relies good allowed (fun value => post value ∧ holds value) program := by
  induction program with
  | done value => exact ⟨relies, within⟩
  | call command next ih =>
      exact ⟨relies.1, fun response sound =>
        ih response (relies.2 response sound) (within.2 response)⟩

/-- A program of allowed commands needs no good answers. -/
theorem Within.relies {narrower : Cmd → Prop} {program : Program Cmd Resp α}
    (within : Within narrower post program)
    (commands : ∀ command, narrower command → allowed command) :
    Relies good allowed post program := by
  induction program with
  | done value => exact within
  | call command next ih =>
      exact ⟨commands command within.1, fun response _ => ih response (within.2 response)⟩

/-- If an invariant of the environment makes the answers good, the program returns, or stops
at a command that it may call. -/
theorem Relies.run_or_stopped {σ : Type} {h : CommandHandler Cmd Resp σ} (inv : σ → Prop)
    (answers : ∀ command s response s', allowed command → inv s →
      h command s = some (response, s') → good command response ∧ inv s')
    {program : Program Cmd Resp α} (relies : Relies good allowed post program) {s : σ}
    (holds : inv s) :
    (∃ value s', run h program s = some (value, s') ∧ post value) ∨
      ∃ command, stoppedAt h program s = some command ∧ allowed command := by
  induction program generalizing s with
  | done value => exact .inl ⟨value, s, rfl, relies⟩
  | call command next ih =>
      cases answered : h command s with
      | none =>
          refine .inr ⟨command, ?_, relies.1⟩
          rw [stoppedAt, answered]
      | some answer =>
          obtain ⟨response, s'⟩ := answer
          obtain ⟨sound, kept⟩ := answers command s response s' relies.1 holds answered
          rw [run, stoppedAt, answered]
          exact ih response (relies.2 response sound) kept

end Program

open Program

variable {Cmd : Type} {Resp : Cmd → Type} {α φ σ ι : Type}

namespace Threads

variable [DecidableEq ι] {P : ι → Protocol Cmd Resp φ} {post : ι → α → φ → Prop}
  {s last : Threads Cmd Resp α φ σ ι} {h : CommandHandler Cmd Resp σ}
  {good : (command : Cmd) → Resp command → Prop} {allowed : ι → Cmd → Prop}
  {reached : ι → α → Prop}

theorem relies_advance (relies : ∀ i, Relies good (allowed i) (reached i) (s.programs i)) {i : ι}
    {command : Cmd} {next : Resp command → Program Cmd Resp α}
    (calls : s.programs i = .call command next) {response : Resp command}
    (holds : good command response) (shared : σ) (j : ι) :
    Relies good (allowed j) (reached j)
      ((s.advance P i command response (next response) shared).programs j) := by
  by_cases same : j = i
  · subst same
    have here := relies j
    rw [calls] at here
    simpa [advance] using here.2 response holds
  · simpa [advance, same] using relies j

/-- If an invariant that the allowed commands keep makes their answers good, it holds after
every schedule, and the threads can rely on good answers from there on. -/
theorem relies_of_run (inv : (ι → φ) → σ → Prop)
    (answers : ∀ phases shared i command response shared', (P i).allows (phases i) command →
      allowed i command → inv phases shared → h command shared = some (response, shared') →
      good command response ∧
        inv (Function.update phases i ((P i).next (phases i) command response)) shared')
    (follow : s.Follow P post) (initial : inv s.phases s.shared)
    (relies : ∀ i, Relies good (allowed i) (reached i) (s.programs i)) {schedule : List ι}
    {turns : List (Turn Cmd Resp α φ σ ι)}
    (ran : (interleaving P h).run s schedule = .ok (last, turns)) :
    inv last.phases last.shared ∧ ∀ i, Relies good (allowed i) (reached i) (last.programs i) := by
  refine (EventMachine.run_invariant
    (fun _ _ s => s.Follow P post ∧ inv s.phases s.shared ∧
      ∀ i, Relies good (allowed i) (reached i) (s.programs i)) ⟨follow, initial, relies⟩ ?_ ran).2
  intro _ _ s i s' turn _ held stepped
  obtain ⟨follow, holds, relies⟩ := held
  obtain ⟨command, next, response, shared, calls, answered, rfl, rfl⟩ := step_cases stepped
  have permitted : (P i).allows (s.phases i) command := by
    have here := follow i
    rw [calls] at here
    exact here.1
  have expected : allowed i command := by
    have here := relies i
    rw [calls] at here
    exact here.1
  obtain ⟨sound, kept⟩ := answers _ _ i command response shared permitted expected holds answered
  exact ⟨follow.advance calls response shared, kept, relies_advance relies calls sound shared⟩

end Threads

end CleanArchitecture
