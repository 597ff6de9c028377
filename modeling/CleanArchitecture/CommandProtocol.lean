import CleanArchitecture.CommandProgram

/-!
# Protocols of commands

A protocol permits commands phase by phase, and the response to a command decides
the next phase.  A program that follows a protocol carries an invariant of the
environment that may depend on the phase.
-/

namespace CleanArchitecture

/-- The commands that a phase permits and the phase after a response. -/
structure Protocol (Cmd : Type) (Resp : Cmd → Type) (φ : Type) where
  allows : φ → Cmd → Prop
  next : φ → (command : Cmd) → Resp command → φ

namespace Program

variable {Cmd : Type} {Resp : Cmd → Type} {α β φ σ : Type}

/-- From this phase on every command is permitted, whatever the responses, and the
result satisfies the postcondition in the phase it is returned in. -/
def Follows (P : Protocol Cmd Resp φ) (post : α → φ → Prop) (phase : φ) :
    Program Cmd Resp α → Prop
  | .done value => post value phase
  | .call command rest =>
      P.allows phase command ∧ ∀ response, Follows P post (P.next phase command response)
        (rest response)

variable {P : Protocol Cmd Resp φ} {post : α → φ → Prop} {phase : φ}

theorem follows_pure {value : α} (holds : post value phase) :
    Follows P post phase (pure value : Program Cmd Resp α) :=
  holds

theorem follows_perform {command : Cmd} {post : Resp command → φ → Prop}
    (permitted : P.allows phase command)
    (holds : ∀ response, post response (P.next phase command response)) :
    Follows P post phase (perform command) :=
  ⟨permitted, holds⟩

theorem Follows.bind {middle : α → φ → Prop} {result : β → φ → Prop} {program : Program Cmd Resp α}
    {next : α → Program Cmd Resp β} (first : Follows P middle phase program)
    (rest : ∀ value reached, middle value reached → Follows P result reached (next value)) :
    Follows P result phase (program >>= next) := by
  change Follows P result phase (program.bind next)
  induction program generalizing phase with
  | done value => exact rest value phase first
  | call command continuation ih =>
      exact ⟨first.1, fun response => ih response (first.2 response)⟩

theorem Follows.mono {weaker : α → φ → Prop} {program : Program Cmd Resp α}
    (follows : Follows P post phase program)
    (results : ∀ value reached, post value reached → weaker value reached) :
    Follows P weaker phase program := by
  induction program generalizing phase with
  | done value => exact results value phase follows
  | call command rest ih =>
      exact ⟨follows.1, fun response => ih response (follows.2 response)⟩

/-- A program of commands that a phase permits and that do not end it stays in the
phase. -/
theorem Within.follows {allowed : Cmd → Prop} {holds : α → Prop} {program : Program Cmd Resp α}
    (within : Within allowed holds program)
    (permitted : ∀ command, allowed command → P.allows phase command)
    (stays : ∀ command response, allowed command → P.next phase command response = phase) :
    Follows P (fun value reached => holds value ∧ reached = phase) phase program := by
  induction program with
  | done value => exact ⟨within, rfl⟩
  | call command rest ih =>
      refine ⟨permitted command within.1, fun response => ?_⟩
      rw [stays command response within.1]
      exact ih response (within.2 response)

/-- If every call's program ends in the phase it began in, so does the expansion. -/
theorem follows_expand {Call : Type} {Answer : Call → Type}
    {body : (call : Call) → Program Cmd Resp (Answer call)}
    (bodies : ∀ call, Follows P (fun _ reached => reached = phase) phase (body call))
    (program : Program Call Answer α) :
    Follows P (fun _ reached => reached = phase) phase (program.expand body) := by
  induction program with
  | done value => rfl
  | call call next ih =>
      refine (bodies call).bind fun response reached same => ?_
      rw [same]
      exact ih response

/-- An invariant that every permitted command keeps holds in the last phase and
state of a run. -/
theorem Follows.of_run {h : CommandHandler Cmd Resp σ} (inv : φ → σ → Prop)
    (keeps : ∀ phase command s response s', P.allows phase command → inv phase s →
      h command s = some (response, s') → inv (P.next phase command response) s')
    {program : Program Cmd Resp α} (follows : Follows P post phase program) {s last : σ}
    {result : α} (initial : inv phase s) (ran : run h program s = some (result, last)) :
    ∃ reached, inv reached last ∧ post result reached := by
  induction ran using run_induction generalizing phase with
  | done => exact ⟨phase, initial, follows⟩
  | call command rest s response s' answered ran ih =>
      exact ih (follows.2 response) (keeps phase command s response s' follows.1 initial answered)

end Program

end CleanArchitecture
