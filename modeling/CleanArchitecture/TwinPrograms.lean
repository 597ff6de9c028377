import CleanArchitecture.Interleaving
import Mathlib.Data.List.Forall2

/-!
# Twin programs

Two programs are twins if they make the same calls but for a renaming of the calls, whatever
the answers.  Where an environment answers the calls like the calls that they are renamed to,
twins cannot be told apart, alone or among other threads.
-/

namespace CleanArchitecture

open Program

variable {Cmd : Type} {Resp : Cmd → Type} {α β γ δ σ φ ι : Type}

/-- A call in the place of each call, and how its answer is one to the call. -/
structure Renaming (Cmd : Type) (Resp : Cmd → Type) where
  call : Cmd → Cmd
  answer : (command : Cmd) → Resp (call command) → Resp command

/-- A call that is its own name. -/
def Renaming.Fixes (r : Renaming Cmd Resp) (command : Cmd) : Prop :=
  (⟨r.call command, r.answer command⟩ : (other : Cmd) × (Resp other → Resp command)) =
    ⟨command, id⟩

/-- In this state the environment answers the call like its name. -/
def Renaming.Blinds (r : Renaming Cmd Resp) (h : CommandHandler Cmd Resp σ) (command : Cmd)
    (s : σ) : Prop :=
  h command s = (h (r.call command) s).map (Prod.map (r.answer command) id)

/-- The second program calls what the first one calls, renamed, and related values are
returned. -/
inductive Twins (r : Renaming Cmd Resp) (related : α → β → Prop) :
    Program Cmd Resp α → Program Cmd Resp β → Prop
  | done {value : α} {other : β} (relates : related value other) :
      Twins r related (.done value) (.done other)
  | call {command : Cmd} {next : Resp command → Program Cmd Resp α}
      {rest : Resp (r.call command) → Program Cmd Resp β}
      (later : ∀ response, Twins r related (next (r.answer command response)) (rest response)) :
      Twins r related (.call command next) (.call (r.call command) rest)

section Rules

variable {r : Renaming Cmd Resp} {related : α → β → Prop} {result : γ → δ → Prop}

theorem twins_pure {value : α} {other : β} (relates : related value other) :
    Twins r related (pure value) (pure other) :=
  .done relates

theorem Twins.bind {program : Program Cmd Resp α} {twin : Program Cmd Resp β}
    {next : α → Program Cmd Resp γ} {rest : β → Program Cmd Resp δ}
    (twins : Twins r related program twin)
    (later : ∀ value other, related value other → Twins r result (next value) (rest other)) :
    Twins r result (program >>= next) (twin >>= rest) := by
  change Twins r result (program.bind next) (twin.bind rest)
  induction twins with
  | done relates => exact later _ _ relates
  | call _ ih => exact .call ih

theorem Twins.mono {weaker : α → β → Prop} {program : Program Cmd Resp α}
    {twin : Program Cmd Resp β} (twins : Twins r related program twin)
    (relates : ∀ value other, related value other → weaker value other) :
    Twins r weaker program twin := by
  induction twins with
  | done holds => exact .done (relates _ _ holds)
  | call _ ih => exact .call ih

theorem twins_call_of_eq {command : Cmd} {named : (other : Cmd) × (Resp other → Resp command)}
    (same : ⟨r.call command, r.answer command⟩ = named) {next : Resp command → Program Cmd Resp α}
    {rest : Resp named.1 → Program Cmd Resp β}
    (later : ∀ response, Twins r related (next (named.2 response)) (rest response)) :
    Twins r related (.call command next) (.call named.1 rest) := by
  subst same
  exact .call later

/-- A program whose calls are their own names is a twin of its own images. -/
theorem twins_map_of_within {post : α → Prop} {program : Program Cmd Resp α} (f : α → β)
    (within : Within r.Fixes post program) :
    Twins r (fun value other => other = f value ∧ post value) program (f <$> program) := by
  induction program with
  | done value => exact .done ⟨rfl, within⟩
  | call command next ih =>
      exact twins_call_of_eq within.1 fun response => ih response (within.2 response)

theorem twins_of_within {post : α → Prop} {program : Program Cmd Resp α}
    (within : Within r.Fixes post program) :
    Twins r (fun value other => other = value ∧ post value) program program := by
  have twins := twins_map_of_within id within
  rwa [id_map] at twins

theorem Twins.of_done {value : α} {twin : Program Cmd Resp β}
    (twins : Twins r related (.done value) twin) :
    ∃ other, twin = .done other ∧ related value other := by
  cases twins with
  | done relates => exact ⟨_, rfl, relates⟩

/-- Where a program takes a step its twin takes one too, to the same state. -/
theorem Twins.step {command : Cmd} {next : Resp command → Program Cmd Resp α}
    {twin : Program Cmd Resp β} (twins : Twins r related (.call command next) twin)
    {h : CommandHandler Cmd Resp σ} {s s' : σ} {response : Resp command}
    (blind : r.Blinds h command s) (answered : h command s = some (response, s')) :
    ∃ rest other, twin = .call (r.call command) rest ∧ h (r.call command) s = some (other, s') ∧
      Twins r related (next response) (rest other) := by
  cases twins with
  | call later =>
      rw [blind, Option.map_eq_some_iff] at answered
      obtain ⟨⟨other, last⟩, named, same⟩ := answered
      cases same
      exact ⟨_, other, rfl, named, later other⟩

end Rules

/-! ## Threads -/

/-- Every call is permitted. -/
def anyCall : Protocol Cmd Resp Unit where
  allows _ _ := True
  next _ _ _ := ()

section Threads

variable [DecidableEq ι] {P : ι → Protocol Cmd Resp φ} {r : ι → Renaming Cmd Resp}
  {related : ι → α → β → Prop} {h : CommandHandler Cmd Resp σ}
  {s s' : Threads Cmd Resp α φ σ ι} {t : Threads Cmd Resp β φ σ ι}

/-- Each thread has a twin, and the environment is the same. -/
structure TwinThreads (r : ι → Renaming Cmd Resp) (related : ι → α → β → Prop)
    (s : Threads Cmd Resp α φ σ ι) (t : Threads Cmd Resp β φ σ ι) : Prop where
  programs : ∀ i, Twins (r i) (related i) (s.programs i) (t.programs i)
  shared : t.shared = s.shared

/-- The same thread calls, and what it calls is renamed. -/
def SameTurn (r : ι → Renaming Cmd Resp) (turn : Turn Cmd Resp α φ σ ι)
    (other : Turn Cmd Resp β φ σ ι) : Prop :=
  other.thread = turn.thread ∧ other.command = (r turn.thread).call turn.command

theorem TwinThreads.step (twins : TwinThreads r related s t) {i : ι} {turn : Turn Cmd Resp α φ σ ι}
    (stepped : (interleaving P h).step s i = .ok (s', turn))
    (blind : (r turn.thread).Blinds h turn.command turn.before.shared) :
    ∃ t' other, (interleaving P h).step t i = .ok (t', other) ∧ TwinThreads r related s' t' ∧
      SameTurn r turn other := by
  obtain ⟨command, next, response, shared, calls, answered, rfl, rfl⟩ := Threads.step_cases stepped
  have here := twins.programs i
  rw [calls] at here
  obtain ⟨rest, other, twin, named, later⟩ := here.step blind answered
  rw [← twins.shared] at named
  refine ⟨_, _, Threads.step_of_answered twin named, ⟨?_, rfl⟩, rfl, rfl⟩
  intro j
  by_cases same : j = i
  · subst same
    simpa [Threads.advance] using later
  · simpa [Threads.advance, same] using twins.programs j

/-- Twins run in the same interleavings, through the same states of the environment. -/
theorem TwinThreads.run (twins : TwinThreads r related s t)
    {schedule : List ι} {turns : List (Turn Cmd Resp α φ σ ι)}
    (ran : (interleaving P h).run s schedule = .ok (s', turns))
    (blind : ∀ turn ∈ turns, (r turn.thread).Blinds h turn.command turn.before.shared) :
    ∃ t' others, (interleaving P h).run t schedule = .ok (t', others) ∧
      TwinThreads r related s' t' ∧ List.Forall₂ (SameTurn r) turns others := by
  induction schedule generalizing s t turns with
  | nil =>
      cases ran
      exact ⟨t, [], rfl, twins, .nil⟩
  | cons i schedule ih =>
      obtain ⟨middle, turn, rest, stepped, later, rfl⟩ := EventMachine.run_cons_ok.mp ran
      obtain ⟨t', other, steppedToo, twins', same⟩ :=
        twins.step stepped (blind turn List.mem_cons_self)
      obtain ⟨last, others, ranToo, twinsLast, all⟩ :=
        ih twins' later fun later member => blind later (List.mem_cons_of_mem turn member)
      exact ⟨last, other :: others,
        EventMachine.run_cons_ok.mpr ⟨t', other, others, steppedToo, ranToo, rfl⟩, twinsLast,
        .cons same all⟩

end Threads

end CleanArchitecture
