import CleanArchitecture.EventMachine

/-!
# Machines behind machines

A machine with more states and events than another one may be seen as the other one: its
states have images, and each of its steps is a run of the other machine over matching events,
none of them where the step is not seen there.  Then its runs are runs of the other machine.
-/

namespace CleanArchitecture

namespace EventMachine

variable {σ τ ι κ ω ω' χ χ' : Type*}

/-- The events that match those of a run, up to its first step that fails. -/
def translated (M : EventMachine σ ι ω χ) (matching : σ → ι → List κ) : σ → List ι → List κ
  | _, [] => []
  | s, event :: events =>
      match M.step s event with
      | .error _ => []
      | .ok (s', _) => matching s event ++ M.translated matching s' events

variable {M : EventMachine σ ι ω χ} {N : EventMachine τ κ ω' χ'} {matching : σ → ι → List κ}

theorem translated_concat {start s s' : σ} {events : List ι} {event : ι} {outputs : List ω}
    {output : ω} (ran : M.run start events = .ok (s, outputs))
    (stepped : M.step s event = .ok (s', output)) :
    M.translated matching start (events ++ [event]) =
      M.translated matching start events ++ matching s event := by
  induction events generalizing start outputs with
  | nil =>
      cases ran
      simp only [List.nil_append, translated, stepped, List.append_nil]
  | cons first events ih =>
      obtain ⟨middle, seen, rest, moved, continued, rfl⟩ := run_cons_ok.mp ran
      simp only [List.cons_append, translated, moved, ih continued, List.append_assoc]

/-- A run of the finer machine is a run of the coarser one on the images.  A step may assume
that the image of its state was reached. -/
theorem image_of_run (image : σ → τ) (inv : σ → Prop) {start : σ} (initial : inv start)
    (steps : ∀ s event s' output reached outputs, inv s →
      N.run (image start) reached = .ok (image s, outputs) → M.step s event = .ok (s', output) →
        inv s' ∧ ∃ outputs, N.run (image s) (matching s event) = .ok (image s', outputs))
    {last : σ} {events : List ι} {outputs : List ω}
    (ran : M.run start events = .ok (last, outputs)) :
    inv last ∧ ∃ outputs,
      N.run (image start) (M.translated matching start events) = .ok (image last, outputs) := by
  refine run_invariant (fun events _ s => inv s ∧ ∃ outputs,
    N.run (image start) (M.translated matching start events) = .ok (image s, outputs)) ?_ ?_ ran
  · exact ⟨initial, [], rfl⟩
  · intro events outputs s event s' output begun held stepped
    obtain ⟨holds, first, reached⟩ := held
    obtain ⟨kept, second, moved⟩ := steps s event s' output _ first holds reached stepped
    refine ⟨kept, first ++ second, ?_⟩
    rw [translated_concat begun stepped]
    exact run_append_ok.mpr ⟨image s, first, second, reached, moved, rfl⟩

end EventMachine

end CleanArchitecture
