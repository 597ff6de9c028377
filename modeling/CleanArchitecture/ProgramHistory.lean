import CleanArchitecture.CommandProgram

/-!
# Histories of programs

The history of a run lists the commands it called with their responses, and composes
like the run itself.  A program whose commands are carried out by programs over another
environment runs as over the handler that these programs make.
-/

namespace CleanArchitecture

namespace Program

variable {Cmd Cmd' : Type} {Resp : Cmd → Type} {Resp' : Cmd' → Type} {α β σ τ : Type}

/-! ## Histories -/

/-- A command with the response to it. -/
abbrev CallEvent (Resp : Cmd → Type) : Type :=
  (command : Cmd) × Resp command

/-- The commands of a run, up to the first that is not answered. -/
def history (h : CommandHandler Cmd Resp σ) : Program Cmd Resp α → σ → List (CallEvent Resp)
  | .done _, _ => []
  | .call command next, s =>
      match h command s with
      | none => []
      | some (response, s') => ⟨command, response⟩ :: history h (next response) s'

variable {h : CommandHandler Cmd Resp σ}

@[simp] theorem history_pure (value : α) (s : σ) :
    history h (pure value : Program Cmd Resp α) s = [] :=
  rfl

theorem history_perform_of_answer {command : Cmd} {s s' : σ} {response : Resp command}
    (answered : h command s = some (response, s')) :
    history h (perform command) s = [⟨command, response⟩] := by
  rw [perform, history, answered]
  rfl

theorem history_bind_of_run {program : Program Cmd Resp α} {next : α → Program Cmd Resp β}
    {s s' : σ} {value : α} (ran : run h program s = some (value, s')) :
    history h (program >>= next) s = history h program s ++ history h (next value) s' := by
  change history h (program.bind next) s = _
  induction ran using run_induction with
  | done => rfl
  | call command rest s response s'' answered _ ih =>
      rw [bind, history, history, answered]
      exact congrArg (_ :: ·) ih

theorem mem_history_bind_left {program : Program Cmd Resp α} {next : α → Program Cmd Resp β}
    {s s' : σ} {value : α} {event : CallEvent Resp} (ran : run h program s = some (value, s'))
    (member : event ∈ history h program s) : event ∈ history h (program >>= next) s := by
  rw [history_bind_of_run ran]
  exact List.mem_append_left _ member

theorem mem_history_bind_right {program : Program Cmd Resp α} {next : α → Program Cmd Resp β}
    {s s' : σ} {value : α} {event : CallEvent Resp} (ran : run h program s = some (value, s'))
    (member : event ∈ history h (next value) s') : event ∈ history h (program >>= next) s := by
  rw [history_bind_of_run ran]
  exact List.mem_append_right _ member

/-- Every command of a history is one that the program may call. -/
theorem Within.of_history {allowed : Cmd → Prop} {post : α → Prop} {program : Program Cmd Resp α}
    (within : Within allowed post program) (s : σ) :
    ∀ event ∈ history h program s, allowed event.1 := by
  induction program generalizing s with
  | done value =>
      intro event member
      cases member
  | call command next ih =>
      rw [history]
      split
      · intro event member
        cases member
      · rename_i response s' answered
        intro event member
        rcases List.mem_cons.mp member with rfl | later
        · exact within.1
        · exact ih response (within.2 response) s' event later

/-- Every response of a history was given by the handler. -/
theorem answered_of_history (program : Program Cmd Resp α) (s : σ) :
    ∀ event ∈ history h program s, ∃ before after, h event.1 before = some (event.2, after) := by
  induction program generalizing s with
  | done value =>
      intro event member
      cases member
  | call command next ih =>
      rw [history]
      split
      · intro event member
        cases member
      · rename_i response s' answered
        intro event member
        rcases List.mem_cons.mp member with rfl | later
        · exact ⟨s, s', answered⟩
        · exact ih response s' event later

/-! ## Runs with their histories -/

/-- A program runs from a state to a value and a state by these calls. -/
def Ran (h : CommandHandler Cmd Resp σ) (program : Program Cmd Resp α) (s : σ)
    (calls : List (CallEvent Resp)) (value : α) (last : σ) : Prop :=
  run h program s = some (value, last) ∧ history h program s = calls

theorem ran_pure (value : α) (s : σ) : Ran h (pure value : Program Cmd Resp α) s [] value s :=
  ⟨rfl, rfl⟩

theorem ran_perform {command : Cmd} {s s' : σ} {response : Resp command}
    (answered : h command s = some (response, s')) :
    Ran h (perform command) s [⟨command, response⟩] response s' :=
  ⟨(run_perform command s).trans answered, history_perform_of_answer answered⟩

theorem Ran.bind {program : Program Cmd Resp α} {next : α → Program Cmd Resp β} {s s' last : σ}
    {calls later : List (CallEvent Resp)} {value : α} {result : β}
    (first : Ran h program s calls value s') (rest : Ran h (next value) s' later result last) :
    Ran h (program >>= next) s (calls ++ later) result last := by
  obtain ⟨ran, called⟩ := first
  obtain ⟨ranLater, calledLater⟩ := rest
  constructor
  · rw [run_bind_of_run ran, ranLater]
  · rw [history_bind_of_run ran, called, calledLater]

/-- The command that a run stops at: it is not answered. -/
def stoppedAt (h : CommandHandler Cmd Resp σ) : Program Cmd Resp α → σ → Option Cmd
  | .done _, _ => none
  | .call command next, s =>
      match h command s with
      | none => some command
      | some (response, s') => stoppedAt h (next response) s'

theorem stoppedAt_of_run {program : Program Cmd Resp α} {s last : σ} {value : α}
    (ran : run h program s = some (value, last)) : stoppedAt h program s = none := by
  induction ran using run_induction with
  | done => rfl
  | call command next s response s' answered _ ih =>
      rw [stoppedAt, answered]
      exact ih

theorem stoppedAt_bind_of_run {program : Program Cmd Resp α} {next : α → Program Cmd Resp β}
    {s s' : σ} {value : α} (ran : run h program s = some (value, s')) :
    stoppedAt h (program >>= next) s = stoppedAt h (next value) s' := by
  change stoppedAt h (program.bind next) s = _
  induction ran using run_induction with
  | done => rfl
  | call command rest s response s'' answered _ ih =>
      rw [bind, stoppedAt, answered]
      exact ih

theorem stoppedAt_bind_of_stopped {program : Program Cmd Resp α} {next : α → Program Cmd Resp β}
    {s : σ} {command : Cmd} (stopped : stoppedAt h program s = some command) :
    stoppedAt h (program >>= next) s = some command := by
  change stoppedAt h (program.bind next) s = _
  induction program generalizing s with
  | done value => cases stopped
  | call first rest ih =>
      rw [stoppedAt] at stopped
      rw [bind, stoppedAt]
      cases answered : h first s with
      | none =>
          rw [answered] at stopped
          exact stopped
      | some answer =>
          rw [answered] at stopped
          exact ih answer.1 stopped

/-! ## Commands carried out by programs -/

/-- The program whose commands are carried out, with a state of their own, by programs
over another environment. -/
def interpret (body : (command : Cmd) → τ → Program Cmd' Resp' (Resp command × τ)) :
    Program Cmd Resp α → τ → Program Cmd' Resp' (α × τ)
  | .done value, t => .done (value, t)
  | .call command next, t =>
      body command t >>= fun (response, t') => (next response).interpret body t'

variable {body : (command : Cmd) → τ → Program Cmd' Resp' (Resp command × τ)}

@[simp] theorem interpret_pure (value : α) (t : τ) :
    (pure value : Program Cmd Resp α).interpret body t = pure (value, t) :=
  rfl

theorem interpret_perform (command : Cmd) (t : τ) :
    (perform command).interpret body t = body command t :=
  bind_pure (body command t)

theorem interpret_bind (program : Program Cmd Resp α) (next : α → Program Cmd Resp β) (t : τ) :
    (program >>= next).interpret body t =
      program.interpret body t >>= fun (value, t') => (next value).interpret body t' := by
  change (program.bind next).interpret body t = _
  induction program generalizing t with
  | done value => rfl
  | call command rest ih =>
      rw [bind, interpret, interpret, bind_assoc]
      exact congrArg _ (funext fun answer => ih answer.1 answer.2)

/-- The handler that such programs make of a handler of their environment. -/
def interpreted (g : CommandHandler Cmd' Resp' σ)
    (body : (command : Cmd) → τ → Program Cmd' Resp' (Resp command × τ)) :
    CommandHandler Cmd Resp (τ × σ) :=
  fun command (t, s) =>
    (run g (body command t) s).map fun ((response, t'), s') => (response, (t', s'))

theorem run_interpret (g : CommandHandler Cmd' Resp' σ) (program : Program Cmd Resp α) (t : τ)
    (s : σ) :
    (run g (program.interpret body t) s).map (fun ((value, t'), s') => (value, (t', s'))) =
      run (interpreted g body) program (t, s) := by
  induction program generalizing t s with
  | done value => rfl
  | call command next ih =>
      rw [interpret, run_bind, run, interpreted]
      cases run g (body command t) s with
      | none => rfl
      | some answer => exact ih answer.1.1 answer.1.2 answer.2

end Program

end CleanArchitecture
