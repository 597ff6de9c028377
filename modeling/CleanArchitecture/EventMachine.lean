import Mathlib.Data.List.Induction

/-!
# Machines driven by events

A step consumes one event, changes the state and produces one output, or fails.
A run feeds a list of events and fails with its first failing step.  Invariants
of runs may mention the events and the outputs so far.
-/

namespace CleanArchitecture

/-- A machine given by its step. -/
structure EventMachine (σ ι ω χ : Type*) where
  step : σ → ι → Except χ (σ × ω)

namespace EventMachine

variable {σ ι ω χ : Type*} (M : EventMachine σ ι ω χ)

/-- A computation whose output is known has a final state. -/
theorem exists_of_output {answer : Except χ (σ × ω)} {output : ω}
    (produced : answer.map Prod.snd = .ok output) : ∃ last, answer = .ok (last, output) := by
  cases answer with
  | error failure => cases produced
  | ok pair =>
      cases produced
      exact ⟨pair.1, rfl⟩

/-- A computation whose output fails has failed. -/
theorem error_of_output {answer : Except χ (σ × ω)} {failure : χ}
    (failed : answer.map Prod.snd = .error failure) : answer = .error failure := by
  cases answer with
  | error other =>
      cases failed
      rfl
  | ok pair => cases failed

/-- A computation of which a view is known has a final state and an output. -/
theorem exists_of_view {β : Type*} {answer : Except χ (σ × ω)} {view : σ × ω → β} {seen : β}
    (shown : answer.map view = .ok seen) :
    ∃ last output, answer = .ok (last, output) ∧ view (last, output) = seen := by
  cases answer with
  | error failure => cases shown
  | ok pair =>
      cases shown
      exact ⟨pair.1, pair.2, rfl, rfl⟩

def run : σ → List ι → Except χ (σ × List ω)
  | s, [] => .ok (s, [])
  | s, event :: events =>
      match M.step s event with
      | .error failure => .error failure
      | .ok (s', output) =>
          match run s' events with
          | .error failure => .error failure
          | .ok (last, outputs) => .ok (last, output :: outputs)

variable {M}

theorem run_cons_ok {s last : σ} {event : ι} {events : List ι} {outputs : List ω} :
    M.run s (event :: events) = .ok (last, outputs) ↔
      ∃ s' output rest, M.step s event = .ok (s', output) ∧ M.run s' events = .ok (last, rest) ∧
        outputs = output :: rest := by
  rw [run]
  constructor
  · intro ran
    split at ran
    · cases ran
    · rename_i s' output stepped
      split at ran
      · cases ran
      · rename_i finish rest continued
        cases ran
        exact ⟨s', output, rest, stepped, continued, rfl⟩
  · rintro ⟨s', output, rest, stepped, continued, rfl⟩
    simp only [stepped, continued]

theorem run_append_ok {s last : σ} {xs ys : List ι} {outputs : List ω} :
    M.run s (xs ++ ys) = .ok (last, outputs) ↔
      ∃ s' first second, M.run s xs = .ok (s', first) ∧ M.run s' ys = .ok (last, second) ∧
        outputs = first ++ second := by
  induction xs generalizing s outputs with
  | nil =>
      constructor
      · intro whole
        exact ⟨s, [], outputs, rfl, whole, rfl⟩
      · rintro ⟨s', first, second, started, continued, rfl⟩
        cases started
        exact continued
  | cons x xs ih =>
      rw [List.cons_append, run_cons_ok]
      constructor
      · rintro ⟨s', output, rest, stepped, continued, rfl⟩
        obtain ⟨middle, first, second, begun, ended, rfl⟩ := ih.mp continued
        exact ⟨middle, output :: first, second,
          run_cons_ok.mpr ⟨s', output, first, stepped, begun, rfl⟩, ended, rfl⟩
      · rintro ⟨middle, first, second, begun, ended, rfl⟩
        obtain ⟨s', output, rest, stepped, continued, rfl⟩ := run_cons_ok.mp begun
        exact ⟨s', output, rest ++ second, stepped, ih.mpr ⟨middle, rest, second, continued, ended,
          rfl⟩, rfl⟩

theorem run_concat_ok {s last : σ} {events : List ι} {event : ι} {outputs : List ω} :
    M.run s (events ++ [event]) = .ok (last, outputs) ↔
      ∃ s' before output, M.run s events = .ok (s', before) ∧
        M.step s' event = .ok (last, output) ∧ outputs = before ++ [output] := by
  rw [run_append_ok]
  constructor
  · rintro ⟨s', before, ended, ran, continued, rfl⟩
    obtain ⟨s'', output, rest, stepped, finished, rfl⟩ := run_cons_ok.mp continued
    cases finished
    exact ⟨s', before, output, ran, stepped, rfl⟩
  · rintro ⟨s', before, output, ran, stepped, rfl⟩
    exact ⟨s', before, [output], ran, run_cons_ok.mpr ⟨last, output, [], stepped, rfl, rfl⟩, rfl⟩

theorem length_of_run {s last : σ} {events : List ι} {outputs : List ω}
    (ran : M.run s events = .ok (last, outputs)) : outputs.length = events.length := by
  induction events generalizing s outputs with
  | nil =>
      cases ran
      rfl
  | cons event events ih =>
      obtain ⟨s', output, rest, -, continued, rfl⟩ := run_cons_ok.mp ran
      rw [List.length_cons, List.length_cons, ih continued]

/-- A property of the events and outputs so far and the state that every step
keeps holds after every run. -/
theorem run_invariant (inv : List ι → List ω → σ → Prop) {start : σ} (initial : inv [] [] start)
    (keeps : ∀ events outputs s event s' output, M.run start events = .ok (s, outputs) →
      inv events outputs s → M.step s event = .ok (s', output) →
        inv (events ++ [event]) (outputs ++ [output]) s')
    {events : List ι} {outputs : List ω} {last : σ}
    (ran : M.run start events = .ok (last, outputs)) : inv events outputs last := by
  induction events using List.reverseRecOn generalizing outputs last with
  | nil =>
      cases ran
      exact initial
  | append_singleton events event ih =>
      obtain ⟨s', first, output, begun, stepped, rfl⟩ := run_concat_ok.mp ran
      exact keeps events first s' event last output begun (ih begun) stepped

/-- A property of states that every step under a condition on its event and its output
keeps holds after a run whose steps all meet the condition. -/
theorem run_invariant_of_zip (inv : σ → Prop) (condition : ι → ω → Prop)
    (keeps : ∀ s event s' output, condition event output → inv s →
      M.step s event = .ok (s', output) → inv s')
    {start last : σ} (initial : inv start) {events : List ι} {outputs : List ω}
    (ran : M.run start events = .ok (last, outputs))
    (conditions : ∀ pair ∈ events.zip outputs, condition pair.1 pair.2) : inv last := by
  induction events generalizing start outputs with
  | nil =>
      cases ran
      exact initial
  | cons event events ih =>
      obtain ⟨s', output, rest, stepped, continued, rfl⟩ := run_cons_ok.mp ran
      rw [List.zip_cons_cons] at conditions
      apply ih _ continued
      · exact fun pair member => conditions pair (.tail _ member)
      · exact keeps start event s' output (conditions _ List.mem_cons_self) initial stepped

/-- Every event of a run meets a condition in the state in which it happens. -/
def Throughout (M : EventMachine σ ι ω χ) (start : σ) (holds : σ → ι → Prop) (events : List ι) :
    Prop :=
  ∀ before event after s outputs, events = before ++ event :: after →
    M.run start before = .ok (s, outputs) → holds s event

theorem Throughout.of_append {start : σ} {holds : σ → ι → Prop} {first second : List ι}
    (along : M.Throughout start holds (first ++ second)) : M.Throughout start holds first := by
  intro before event after s outputs split
  exact along before event (after ++ second) s outputs (by simp [split])

theorem Throughout.mono {start : σ} {holds weaker : σ → ι → Prop} {events : List ι}
    (along : M.Throughout start holds events)
    (implies : ∀ s event, holds s event → weaker s event) : M.Throughout start weaker events :=
  fun before event after s outputs split ran =>
    implies s event (along before event after s outputs split ran)

theorem Throughout.cons {start : σ} {holds : σ → ι → Prop} {event : ι} {events : List ι}
    (first : holds start event)
    (rest : ∀ s output, M.step start event = .ok (s, output) → M.Throughout s holds events) :
    M.Throughout start holds (event :: events) := by
  intro before later after s outputs split ran
  cases before with
  | nil =>
      cases split
      cases ran
      exact first
  | cons head tail =>
      cases split
      obtain ⟨s', output, others, stepped, continued, rfl⟩ := run_cons_ok.mp ran
      exact rest s' output stepped tail later after s others rfl continued

theorem throughout_nil (start : σ) (holds : σ → ι → Prop) : M.Throughout start holds [] := by
  intro before event after s outputs split
  exact absurd split (by simp)

/-- A machine that can take every step under a condition, and keeps an invariant of its
outputs and its state, completes every run that meets the condition throughout. -/
theorem exists_run_of_throughout (inv : List ω → σ → Prop) {condition : σ → ι → Prop} {start : σ}
    (initial : inv [] start)
    (moves : ∀ outputs s event, inv outputs s → condition s event →
      ∃ s' output, M.step s event = .ok (s', output) ∧ inv (outputs ++ [output]) s')
    {events : List ι} (met : M.Throughout start condition events) :
    ∃ last outputs, M.run start events = .ok (last, outputs) ∧ inv outputs last := by
  induction events using List.reverseRecOn with
  | nil => exact ⟨start, [], rfl, initial⟩
  | append_singleton events event ih =>
      obtain ⟨s, outputs, begun, holds⟩ := ih met.of_append
      obtain ⟨s', output, stepped, kept⟩ :=
        moves outputs s event holds (met events event [] s outputs rfl begun)
      exact ⟨s', outputs ++ [output],
        run_concat_ok.mpr ⟨s, outputs, output, begun, stepped, rfl⟩, kept⟩

/-- An invariant that steps keep under a condition holds after a run that meets the condition
throughout. -/
theorem invariant_of_throughout (inv : σ → Prop) {condition : σ → ι → Prop} {start last : σ}
    (initial : inv start)
    (keeps : ∀ s event s' output, inv s → condition s event →
      M.step s event = .ok (s', output) → inv s')
    {events : List ι} {outputs : List ω} (met : M.Throughout start condition events)
    (ran : M.run start events = .ok (last, outputs)) : inv last := by
  revert met
  apply run_invariant (fun before _ s => M.Throughout start condition before → inv s) _ _ ran
  · intro _
    exact initial
  · intro earlier answers t next t' output begun ih stepped met
    exact keeps t next t' output (ih met.of_append) (met earlier next [] t answers rfl begun) stepped

/-- An invariant that steps keep under one condition gives another one throughout. -/
theorem Throughout.of_invariant (inv : σ → Prop) {condition holds : σ → ι → Prop} {start : σ}
    (initial : inv start)
    (keeps : ∀ s event s' output, inv s → condition s event →
      M.step s event = .ok (s', output) → inv s')
    (gives : ∀ s event, inv s → holds s event) {events : List ι}
    (met : M.Throughout start condition events) : M.Throughout start holds events := by
  intro before event after s outputs split ran
  subst split
  exact gives s event (invariant_of_throughout inv initial keeps met.of_append ran)

/-- A machine whose step projects to that of another one has runs that project
to the runs of the other one. -/
theorem run_map {τ : Type*} {N : EventMachine τ ι ω χ} (f : τ → σ)
    (steps : ∀ t event, (N.step t event).map (Prod.map f id) = M.step (f t) event)
    (t : τ) (events : List ι) :
    (N.run t events).map (Prod.map f id) = M.run (f t) events := by
  induction events generalizing t with
  | nil => rfl
  | cons event events ih =>
      rw [run, run, ← steps]
      cases N.step t event with
      | error failure => rfl
      | ok stepped =>
          simp only [Except.map, Prod.map, id, ← ih]
          cases N.run stepped.1 events <;> rfl

end EventMachine

end CleanArchitecture
