import Mathlib.Data.List.Perm.Basic

/-!
# Resources of histories

Events give resources and free them.  A history settles its resources if it frees none
that is not live, and each one exactly once if none is live in the end.
-/

namespace CleanArchitecture

/-- The resource that an event gives and the one that it frees. -/
structure ResourceUse (E ρ : Type) where
  gives : E → Option ρ
  frees : E → Option ρ

namespace ResourceUse

variable {E ρ : Type} [DecidableEq ρ] (use : ResourceUse E ρ)

/-- The live resources after an event, or `none` if it frees one that is not live. -/
def after (live : List ρ) (event : E) : Option (List ρ) :=
  match use.frees event with
  | none => some ((use.gives event).toList ++ live)
  | some resource =>
      if resource ∈ live then some ((use.gives event).toList ++ live.erase resource) else none

def live (events : List E) (start : List ρ) : Option (List ρ) :=
  events.foldlM use.after start

variable {use}

@[simp] theorem live_nil (start : List ρ) : use.live [] start = some start :=
  rfl

@[simp] theorem live_cons (event : E) (events : List E) (start : List ρ) :
    use.live (event :: events) start = (use.after start event).bind (use.live events) := by
  rw [live, List.foldlM_cons]
  rfl

theorem live_append (first second : List E) (start : List ρ) :
    use.live (first ++ second) start = (use.live first start).bind (use.live second) := by
  rw [live, List.foldlM_append]
  rfl

theorem count_filterMap_cons (f : E → Option ρ) (event : E) (events : List E) (resource : ρ) :
    ((event :: events).filterMap f).count resource =
      (f event).toList.count resource + (events.filterMap f).count resource := by
  rw [List.filterMap_cons]
  cases f event with
  | none => simp
  | some given => simp [List.count_cons, Nat.add_comm]

/-- What was live and given is what was freed and is live in the end. -/
theorem perm_of_live {events : List E} {start last : List ρ}
    (settled : use.live events start = some last) :
    (start ++ events.filterMap use.gives).Perm (last ++ events.filterMap use.frees) := by
  induction events generalizing start with
  | nil =>
      cases settled
      exact List.Perm.refl _
  | cons event events ih =>
      rw [live_cons, Option.bind_eq_some_iff] at settled
      obtain ⟨middle, first, rest⟩ := settled
      have later := List.perm_iff_count.mp (ih rest)
      rw [List.perm_iff_count]
      intro resource
      have here := later resource
      rw [List.count_append, List.count_append] at here ⊢
      rw [count_filterMap_cons, count_filterMap_cons]
      rw [after] at first
      cases found : use.frees event with
      | none =>
          rw [found] at first
          cases first
          rw [List.count_append] at here
          simp only [Option.toList_none, List.count_nil]
          omega
      | some freedResource =>
          rw [found] at first
          dsimp only at first
          split at first
          · rename_i isLive
            cases first
            have split := (List.perm_cons_erase isLive).count_eq resource
            rw [List.count_append] at here
            rw [List.count_cons] at split
            simp only [Option.toList_some, List.count_singleton]
            omega
          · cases first

end ResourceUse

end CleanArchitecture
