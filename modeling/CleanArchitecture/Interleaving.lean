import CleanArchitecture.CommandProtocol
import CleanArchitecture.EventMachine
import Mathlib.Algebra.BigOperators.Group.Finset.Basic
import Mathlib.Tactic.Abel

/-!
# Programs that run at the same time

Threads share an environment and take turns at every command.  Each thread has a
protocol, and its phase is recorded beside its program.  An invariant that every
permitted turn keeps holds in every state that an interleaving reaches.
-/

namespace CleanArchitecture

open Program

variable {Cmd : Type} {Resp : Cmd → Type} {α φ σ ι : Type}

/-- What remains of each thread, its phase and the environment. -/
structure Threads (Cmd : Type) (Resp : Cmd → Type) (α φ σ ι : Type) where
  programs : ι → Program Cmd Resp α
  phases : ι → φ
  shared : σ

/-- One command of a thread, and the state in which it was called. -/
structure Turn (Cmd : Type) (Resp : Cmd → Type) (α φ σ ι : Type) where
  thread : ι
  command : Cmd
  before : Threads Cmd Resp α φ σ ι

variable [DecidableEq ι]

/-- The thread's command was answered. -/
def Threads.advance (P : ι → Protocol Cmd Resp φ) (s : Threads Cmd Resp α φ σ ι) (i : ι)
    (command : Cmd) (response : Resp command) (rest : Program Cmd Resp α) (shared : σ) :
    Threads Cmd Resp α φ σ ι where
  programs := Function.update s.programs i rest
  phases := Function.update s.phases i ((P i).next (s.phases i) command response)
  shared := shared

/-- The threads as a machine driven by a schedule.  A thread that is done, or whose
command is not answered, cannot take a turn. -/
def interleaving (P : ι → Protocol Cmd Resp φ) (h : CommandHandler Cmd Resp σ) :
    EventMachine (Threads Cmd Resp α φ σ ι) ι (Turn Cmd Resp α φ σ ι) Unit where
  step s i :=
    match s.programs i with
    | .done _ => .error ()
    | .call command next =>
        match h command s.shared with
        | none => .error ()
        | some (response, shared) =>
            .ok (s.advance P i command response (next response) shared,
              { thread := i, command := command, before := s })

/-- Every thread follows its protocol from its phase on. -/
def Threads.Follow (P : ι → Protocol Cmd Resp φ) (post : ι → α → φ → Prop)
    (s : Threads Cmd Resp α φ σ ι) : Prop :=
  ∀ i, Follows (P i) (post i) (s.phases i) (s.programs i)

namespace Threads

variable {P : ι → Protocol Cmd Resp φ} {post : ι → α → φ → Prop}
  {s s' : Threads Cmd Resp α φ σ ι} {h : CommandHandler Cmd Resp σ}

omit [DecidableEq ι] in
/-- A finished thread satisfies its postcondition. -/
theorem Follow.post_of_done (follow : s.Follow P post) {i : ι} {value : α}
    (done : s.programs i = .done value) : post i value (s.phases i) := by
  have finished := follow i
  rwa [done] at finished

theorem Follow.advance (follow : s.Follow P post) {i : ι} {command : Cmd}
    {next : Resp command → Program Cmd Resp α} (calls : s.programs i = .call command next)
    (response : Resp command) (shared : σ) :
    (s.advance P i command response (next response) shared).Follow P post := by
  intro j
  by_cases same : j = i
  · subst same
    have here := follow j
    rw [calls] at here
    simpa [Threads.advance] using here.2 response
  · simpa [Threads.advance, same] using follow j

/-- A turn is a command of a thread that the environment answers. -/
theorem step_cases {i : ι} {turn : Turn Cmd Resp α φ σ ι}
    (stepped : (interleaving P h).step s i = .ok (s', turn)) :
    ∃ command next response shared, s.programs i = .call command next ∧
      h command s.shared = some (response, shared) ∧
      s' = s.advance P i command response (next response) shared ∧
      turn = { thread := i, command := command, before := s } := by
  simp only [interleaving] at stepped
  split at stepped
  · cases stepped
  · rename_i command next calls
    split at stepped
    · cases stepped
    · rename_i response shared answered
      cases stepped
      exact ⟨command, next, response, shared, calls, answered, rfl, rfl⟩

theorem step_of_answered {i : ι} {command : Cmd} {next : Resp command → Program Cmd Resp α}
    {response : Resp command} {shared : σ} (calls : s.programs i = .call command next)
    (answered : h command s.shared = some (response, shared)) :
    (interleaving P h).step s i =
      .ok (s.advance P i command response (next response) shared,
        { thread := i, command := command, before := s }) := by
  simp only [interleaving, calls, answered]

/-- The phases' measures add up as before, but for the thread that took its turn. -/
theorem sum_update {M : Type} [AddCommMonoid M] [Fintype ι] (measure : φ → M)
    (phases : ι → φ) (i : ι) (phase : φ) :
    ∑ j, measure (Function.update phases i phase j) + measure (phases i) =
      ∑ j, measure (phases j) + measure phase := by
  have others : ∑ j ∈ Finset.univ.erase i, measure (Function.update phases i phase j) =
      ∑ j ∈ Finset.univ.erase i, measure (phases j) := by
    refine Finset.sum_congr rfl fun j other => ?_
    rw [Function.update_of_ne (Finset.ne_of_mem_erase other)]
  rw [← Finset.add_sum_erase _ _ (Finset.mem_univ i),
    ← Finset.add_sum_erase Finset.univ (fun j => measure (phases j)) (Finset.mem_univ i), others,
    Function.update_self]
  abel

/-- An invariant of the phases and the environment holds after every schedule whose
turns all meet a condition, if every permitted turn that meets it keeps the
invariant. -/
theorem invariant_of_run (inv : (ι → φ) → σ → Prop) (condition : Turn Cmd Resp α φ σ ι → Prop)
    (keeps : ∀ s i command response shared, (P i).allows (s.phases i) command →
      condition { thread := i, command := command, before := s } → inv s.phases s.shared →
      h command s.shared = some (response, shared) →
      inv (Function.update s.phases i ((P i).next (s.phases i) command response)) shared)
    (follow : s.Follow P post) (initial : inv s.phases s.shared) {schedule : List ι}
    {turns : List (Turn Cmd Resp α φ σ ι)}
    (ran : (interleaving P h).run s schedule = .ok (s', turns))
    (conditions : ∀ turn ∈ turns, condition turn) :
    s'.Follow P post ∧ inv s'.phases s'.shared := by
  refine EventMachine.run_invariant
    (fun _ turns s => (∀ turn ∈ turns, condition turn) → s.Follow P post ∧ inv s.phases s.shared)
    (fun _ => ⟨follow, initial⟩) ?_ ran conditions
  intro _ earlier s i s' turn _ held stepped conditions
  obtain ⟨follow, holds⟩ := held fun other member => conditions other (List.mem_append_left _ member)
  obtain ⟨command, next, response, shared, calls, answered, rfl, rfl⟩ := step_cases stepped
  have here := follow i
  rw [calls] at here
  exact ⟨follow.advance calls response shared,
    keeps s i command response shared here.1 (conditions _ (by simp)) holds answered⟩

end Threads

end CleanArchitecture
