import Mathlib.Logic.Function.Basic

/-!
# Programs that call an environment

A program either is done with a value or calls the environment with a command
and continues with the response.  A handler gives the environment its state and
its answers; it may leave a command unanswered, and then the run ends there.
Rules about all commands of a program give rules about all its runs.
-/

namespace CleanArchitecture

inductive Program (Cmd : Type) (Resp : Cmd → Type) (α : Type) : Type
  | done (value : α)
  | call (command : Cmd) (next : Resp command → Program Cmd Resp α)

/-- The answer of an environment to a command in a state, and its next state. -/
abbrev CommandHandler (Cmd : Type) (Resp : Cmd → Type) (σ : Type) : Type :=
  (command : Cmd) → σ → Option (Resp command × σ)

namespace Program

variable {Cmd : Type} {Resp : Cmd → Type} {α β σ τ : Type}

def bind (program : Program Cmd Resp α) (next : α → Program Cmd Resp β) :
    Program Cmd Resp β :=
  match program with
  | .done value => next value
  | .call command rest => .call command fun response => (rest response).bind next

instance : Monad (Program Cmd Resp) where
  pure := .done
  bind := bind

instance : LawfulMonad (Program Cmd Resp) :=
  LawfulMonad.mk' _
    (fun program => by
      induction program with
      | done value => rfl
      | call command next ih => exact congrArg (Program.call command) (funext ih))
    (fun _ _ => rfl)
    (fun program first second => by
      induction program with
      | done value => rfl
      | call command next ih => exact congrArg (Program.call command) (funext ih))

/-- The program that calls one command and returns its response. -/
def perform (command : Cmd) : Program Cmd Resp (Resp command) :=
  .call command .done

/-- The program whose calls are programs over another environment. -/
def expand {Cmd' : Type} {Resp' : Cmd' → Type}
    (body : (command : Cmd) → Program Cmd' Resp' (Resp command)) :
    Program Cmd Resp α → Program Cmd' Resp' α
  | .done value => .done value
  | .call command next => (body command).bind fun response => (next response).expand body

/-- The value of a program that is done. -/
def result? : Program Cmd Resp α → Option α
  | .done value => some value
  | .call _ _ => none

theorem result?_eq_some {program : Program Cmd Resp α} {value : α} :
    program.result? = some value ↔ program = .done value := by
  cases program <;> simp [result?]

/-! ## Runs -/

def run (h : CommandHandler Cmd Resp σ) : Program Cmd Resp α → σ → Option (α × σ)
  | .done value, s => some (value, s)
  | .call command next, s =>
      match h command s with
      | none => none
      | some (response, s') => run h (next response) s'

variable {h : CommandHandler Cmd Resp σ}

@[simp] theorem run_pure (value : α) (s : σ) :
    run h (pure value : Program Cmd Resp α) s = some (value, s) :=
  rfl

@[simp] theorem run_perform (command : Cmd) (s : σ) : run h (perform command) s = h command s := by
  rw [perform, run]
  cases h command s <;> rfl

theorem run_bind (program : Program Cmd Resp α) (next : α → Program Cmd Resp β) (s : σ) :
    run h (program >>= next) s =
      (run h program s).bind fun (value, s') => run h (next value) s' := by
  change run h (program.bind next) s = _
  induction program generalizing s with
  | done value => rfl
  | call command rest ih =>
      simp only [bind, run]
      cases h command s with
      | none => rfl
      | some answer => exact ih answer.1 answer.2

@[simp] theorem run_map (f : α → β) (program : Program Cmd Resp α) (s : σ) :
    run h (f <$> program) s = (run h program s).map fun (value, s') => (f value, s') := by
  rw [← bind_pure_comp, run_bind]
  cases run h program s <;> rfl

theorem run_bind_eq_some {program : Program Cmd Resp α} {next : α → Program Cmd Resp β}
    {s last : σ} {result : β} :
    run h (program >>= next) s = some (result, last) ↔
      ∃ value s', run h program s = some (value, s') ∧
        run h (next value) s' = some (result, last) := by
  rw [run_bind, Option.bind_eq_some_iff]
  exact Prod.exists

theorem run_bind_of_run {program : Program Cmd Resp α} {next : α → Program Cmd Resp β}
    {s s' : σ} {value : α} (ran : run h program s = some (value, s')) :
    run h (program >>= next) s = run h (next value) s' := by
  rw [run_bind, ran, Option.bind_some]

theorem run_bind_of_none {program : Program Cmd Resp α} {next : α → Program Cmd Resp β} {s : σ}
    (stuck : run h program s = none) : run h (program >>= next) s = none := by
  rw [run_bind, stuck, Option.bind_none]

theorem run_call_of_answer {command : Cmd} {next : Resp command → Program Cmd Resp α} {s s' : σ}
    {response : Resp command} (answered : h command s = some (response, s')) :
    run h (.call command next) s = run h (next response) s' := by
  rw [run, answered]

/-- What holds of the end of a run and is kept by a command before it holds of the run. -/
theorem run_induction {value : α} {last : σ}
    {motive : ∀ (program : Program Cmd Resp α) (s : σ), run h program s = some (value, last) → Prop}
    (done : motive (.done value) last rfl)
    (call : ∀ command next s response s' (answered : h command s = some (response, s'))
      (ran : run h (next response) s' = some (value, last)),
      motive (next response) s' ran →
        motive (.call command next) s ((run_call_of_answer answered).trans ran))
    {program : Program Cmd Resp α} {s : σ} (ran : run h program s = some (value, last)) :
    motive program s ran := by
  induction program generalizing s with
  | done result =>
      cases ran
      exact done
  | call command next ih =>
      cases answered : h command s with
      | none =>
          rw [run, answered] at ran
          cases ran
      | some answer =>
          have rest : run h (next answer.1) answer.2 = some (value, last) :=
            (run_call_of_answer answered).symm.trans ran
          exact call command next s answer.1 answer.2 answered rest (ih answer.1 rest)

/-! ## Commands and results of a program -/

/-- Whatever the responses, every command that the program calls is allowed and
its result satisfies the postcondition. -/
def Within (allowed : Cmd → Prop) (post : α → Prop) : Program Cmd Resp α → Prop
  | .done value => post value
  | .call command next => allowed command ∧ ∀ response, Within allowed post (next response)

variable {allowed : Cmd → Prop} {post : α → Prop}

theorem within_pure {value : α} (holds : post value) :
    Within allowed post (pure value : Program Cmd Resp α) :=
  holds

theorem within_perform {command : Cmd} (permitted : allowed command) :
    Within allowed (fun _ => True) (perform command : Program Cmd Resp _) :=
  ⟨permitted, fun _ => trivial⟩

theorem Within.bind {middle : α → Prop} {result : β → Prop} {program : Program Cmd Resp α}
    {next : α → Program Cmd Resp β} (first : Within allowed middle program)
    (rest : ∀ value, middle value → Within allowed result (next value)) :
    Within allowed result (program >>= next) := by
  change Within allowed result (program.bind next)
  induction program with
  | done value => exact rest value first
  | call command continuation ih =>
      exact ⟨first.1, fun response => ih response (first.2 response)⟩

/-- Only the results that a program can have matter to what follows it. -/
theorem Within.bind_congr {allowed : Cmd → Prop} {post : α → Prop} {program : Program Cmd Resp α}
    {first second : α → Program Cmd Resp β} (within : Within allowed post program)
    (same : ∀ value, post value → first value = second value) :
    program >>= first = program >>= second := by
  induction program with
  | done value => exact same value within
  | call command next ih =>
      exact congrArg (Program.call command) (funext fun response => ih response (within.2 response))

theorem Within.mono {wider : Cmd → Prop} {weaker : α → Prop} {program : Program Cmd Resp α}
    (within : Within allowed post program) (commands : ∀ command, allowed command → wider command)
    (results : ∀ value, post value → weaker value) : Within wider weaker program := by
  induction program with
  | done value => exact results value within
  | call command next ih =>
      exact ⟨commands command within.1, fun response => ih response (within.2 response)⟩

/-- A view of the state that no allowed command changes is the same after a run,
and the result of the run satisfies the postcondition. -/
theorem Within.of_run (view : σ → τ)
    (keeps : ∀ command s response s', allowed command → h command s = some (response, s') →
      view s' = view s)
    {program : Program Cmd Resp α} (within : Within allowed post program) {s last : σ} {result : α}
    (ran : run h program s = some (result, last)) : view last = view s ∧ post result := by
  induction ran using run_induction with
  | done => exact ⟨rfl, within⟩
  | call command next s response s' answered ran ih =>
      obtain ⟨same, holds⟩ := ih (within.2 response)
      exact ⟨same.trans (keeps command s response s' within.1 answered), holds⟩

/-- Whatever the environment answers, the result satisfies the postcondition. -/
theorem Within.holds_of_run {program : Program Cmd Resp α} (within : Within allowed post program)
    {s last : σ} {result : α} (ran : run h program s = some (result, last)) : post result :=
  (within.of_run (fun _ => ()) (fun _ _ _ _ _ _ => rfl) ran).2

/-- An invariant of the state that every allowed command keeps holds after a run. -/
theorem Within.invariant_of_run (inv : σ → Prop)
    (keeps : ∀ command s response s', allowed command → inv s → h command s = some (response, s') →
      inv s')
    {program : Program Cmd Resp α} (within : Within allowed post program) {s last : σ} {result : α}
    (initial : inv s) (ran : run h program s = some (result, last)) : inv last := by
  induction ran using run_induction with
  | done => exact initial
  | call command next s response s' answered ran ih =>
      exact ih (within.2 response) (keeps command s response s' within.1 initial answered)

/-- A handler that answers the allowed commands on a part of its state, as another
handler does on its whole state, runs a program on that part. -/
theorem Within.run_embed {g : CommandHandler Cmd Resp τ} (embed : τ → σ)
    (answers : ∀ command t, allowed command →
      h command (embed t) = (g command t).map (Prod.map id embed))
    {program : Program Cmd Resp α} (within : Within allowed post program) (t : τ) :
    run h program (embed t) = (run g program t).map (Prod.map id embed) := by
  induction program generalizing t with
  | done value => rfl
  | call command next ih =>
      rw [run, run, answers command t within.1]
      cases g command t with
      | none => rfl
      | some answer => exact ih answer.1 (within.2 answer.1) answer.2

end Program

end CleanArchitecture
