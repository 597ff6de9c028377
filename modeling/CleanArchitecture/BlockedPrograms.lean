import CleanArchitecture.Interleaving

/-!
# Programs behind calls that are not answered

Some results of a program come only after certain calls.  Where the environment leaves
those calls unanswered, no interleaving reaches such a result, whatever the other threads do.
-/

namespace CleanArchitecture

namespace Program

variable {Cmd : Type} {Resp : Cmd → Type} {α β : Type}

/-- Up to the first call that stops, every command that the program calls is allowed, and a
result that comes before it satisfies the postcondition. -/
def Behind (allowed stops : Cmd → Prop) (post : α → Prop) : Program Cmd Resp α → Prop
  | .done value => post value
  | .call command next =>
      stops command ∨ allowed command ∧ ∀ response, Behind allowed stops post (next response)

variable {allowed stops : Cmd → Prop} {post : α → Prop}

theorem behind_pure {value : α} (holds : post value) :
    Behind allowed stops post (pure value : Program Cmd Resp α) :=
  holds

/-- Nothing is reached behind a call that stops. -/
theorem behind_perform {command : Cmd} (stop : stops command) :
    Behind allowed stops (fun _ => False) (perform command : Program Cmd Resp _) :=
  .inl stop

theorem behind_anything (program : Program Cmd Resp α) :
    Behind (fun _ => True) stops (fun _ => True) program := by
  induction program with
  | done value => exact trivial
  | call command next ih => exact .inr ⟨trivial, ih⟩

theorem Behind.mono {weaker : α → Prop} {program : Program Cmd Resp α}
    (behind : Behind allowed stops post program) (results : ∀ value, post value → weaker value) :
    Behind allowed stops weaker program := by
  induction program with
  | done value => exact results value behind
  | call command next ih =>
      exact behind.imp_right fun later => ⟨later.1, fun response => ih response (later.2 response)⟩

theorem Behind.bind {middle : α → Prop} {result : β → Prop} {program : Program Cmd Resp α}
    {next : α → Program Cmd Resp β} (first : Behind allowed stops middle program)
    (rest : ∀ value, middle value → Behind allowed stops result (next value)) :
    Behind allowed stops result (program >>= next) := by
  change Behind allowed stops result (program.bind next)
  induction program with
  | done value => exact rest value first
  | call command continuation ih =>
      exact first.imp_right fun later => ⟨later.1, fun response => ih response (later.2 response)⟩

/-- A program that is never done has no continuation. -/
theorem Behind.blocks {result : β → Prop} {program : Program Cmd Resp α}
    (never : Behind allowed stops (fun _ => False) program) (next : α → Program Cmd Resp β) :
    Behind allowed stops result (program >>= next) :=
  never.bind fun _ impossible => impossible.elim

end Program

open Program

variable {Cmd : Type} {Resp : Cmd → Type} {α φ σ ι : Type}

namespace Threads

variable [DecidableEq ι] {P : ι → Protocol Cmd Resp φ} {post : ι → α → φ → Prop}
  {s last : Threads Cmd Resp α φ σ ι} {h : CommandHandler Cmd Resp σ}
  {allowed stops : Cmd → Prop} {reached : ι → α → Prop}

/-- A turn that is no stop leaves every thread behind its stops. -/
theorem behind_advance (behind : ∀ i, Behind allowed stops (reached i) (s.programs i)) {i : ι}
    {command : Cmd} {next : Resp command → Program Cmd Resp α}
    (calls : s.programs i = .call command next) (goesOn : ¬ stops command)
    (response : Resp command) (shared : σ) (j : ι) :
    Behind allowed stops (reached j)
      ((s.advance P i command response (next response) shared).programs j) := by
  by_cases same : j = i
  · subst same
    have here := behind j
    rw [calls] at here
    simpa [advance] using (here.resolve_left goesOn).2 response
  · simpa [advance, same] using behind j

/-- Under an invariant that leaves the stops unanswered, the threads stay behind them. -/
theorem behind_of_run (inv : (ι → φ) → σ → Prop)
    (keeps : ∀ phases shared i command response shared', (P i).allows (phases i) command →
      inv phases shared → h command shared = some (response, shared') →
      inv (Function.update phases i ((P i).next (phases i) command response)) shared')
    (unanswered : ∀ phases shared command, inv phases shared → stops command →
      h command shared = none)
    (follow : s.Follow P post) (initial : inv s.phases s.shared)
    (behind : ∀ i, Behind allowed stops (reached i) (s.programs i)) {schedule : List ι}
    {turns : List (Turn Cmd Resp α φ σ ι)}
    (ran : (interleaving P h).run s schedule = .ok (last, turns)) :
    ∀ i, Behind allowed stops (reached i) (last.programs i) := by
  refine (EventMachine.run_invariant
    (fun _ _ s => (s.Follow P post ∧ inv s.phases s.shared) ∧
      ∀ i, Behind allowed stops (reached i) (s.programs i)) ⟨⟨follow, initial⟩, behind⟩ ?_ ran).2
  intro _ _ s i s' turn _ held stepped
  obtain ⟨⟨follow, holds⟩, behind⟩ := held
  obtain ⟨command, next, response, shared, calls, answered, rfl, rfl⟩ := step_cases stepped
  have permitted : (P i).allows (s.phases i) command := by
    have here := follow i
    rw [calls] at here
    exact here.1
  have goesOn : ¬ stops command := by
    intro stop
    rw [unanswered _ _ _ holds stop] at answered
    cases answered
  exact ⟨⟨follow.advance calls response shared,
      keeps _ _ i command response shared permitted holds answered⟩,
    behind_advance behind calls goesOn response shared⟩

end Threads

end CleanArchitecture
