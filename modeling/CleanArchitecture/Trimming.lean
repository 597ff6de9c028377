import Mathlib.Data.List.DropRight
import Mathlib.Data.List.Infix

/-!
# Trimmed parts of lists

Dropping the blanks at both ends of a list leaves its longest part that neither begins
nor ends with a blank.
-/

namespace CleanArchitecture

variable {α : Type} {blank : α → Bool}

/-- No blank stands at either end. -/
structure Trimmed (blank : α → Bool) (part : List α) : Prop where
  first : ∀ c ∈ part.head?, blank c = false
  last : ∀ c ∈ part.getLast?, blank c = false

structure LongestTrimmed (blank : α → Bool) (s part : List α) : Prop where
  inside : part <:+: s
  trimmed : Trimmed blank part
  longest : ∀ other, other <:+: s → Trimmed blank other → other.length ≤ part.length

theorem Trimmed.reverse {part : List α} (trimmed : Trimmed blank part) :
    Trimmed blank part.reverse := by
  constructor
  · rw [List.head?_reverse]
    exact trimmed.last
  · rw [List.getLast?_reverse]
    exact trimmed.first

/-- A part that does not begin with a blank is not cut by dropping the first blanks. -/
theorem infix_dropWhile {s part : List α} (inside : part <:+: s)
    (first : ∀ c ∈ part.head?, blank c = false) : part <:+: s.dropWhile blank := by
  induction s with
  | nil => exact inside
  | cons c s ih =>
      by_cases isBlank : blank c = true
      · rw [List.dropWhile_cons_of_pos isBlank]
        rcases List.infix_cons_iff.mp inside with here | later
        · -- A part that begins here is empty, since this is a blank.
          cases part with
          | nil => exact List.nil_infix
          | cons d part =>
              obtain ⟨rfl, -⟩ := List.cons_prefix_cons.mp here
              rw [first d rfl] at isBlank
              cases isBlank
        · exact ih later
      · rw [List.dropWhile_cons_of_neg isBlank]
        exact inside

theorem infix_rdropWhile {s part : List α} (inside : part <:+: s)
    (last : ∀ c ∈ part.getLast?, blank c = false) : part <:+: s.rdropWhile blank := by
  rw [List.rdropWhile, ← List.reverse_infix, List.reverse_reverse]
  apply infix_dropWhile (List.reverse_infix.mpr inside)
  rw [List.head?_reverse]
  exact last

/-- Neither end of what is left is a blank. -/
theorem trimmed_rdropWhile_dropWhile (s : List α) :
    Trimmed blank ((s.dropWhile blank).rdropWhile blank) := by
  constructor
  · intro c first
    obtain ⟨rest, whole⟩ := List.rdropWhile_prefix blank (s.dropWhile blank)
    have kept : (s.dropWhile blank).head? = some c := by
      rw [← whole, List.head?_append, Option.mem_def.mp first]
      rfl
    have plain := List.head?_dropWhile_not blank s
    rw [kept] at plain
    exact plain
  · intro c last
    rw [List.rdropWhile, List.getLast?_reverse] at last
    have plain := List.head?_dropWhile_not blank (s.dropWhile blank).reverse
    rw [Option.mem_def.mp last] at plain
    exact plain

theorem longestTrimmed_rdropWhile_dropWhile (s : List α) :
    LongestTrimmed blank s ((s.dropWhile blank).rdropWhile blank) := by
  constructor
  case inside =>
    exact (List.rdropWhile_prefix blank _).isInfix.trans (List.dropWhile_suffix blank).isInfix
  case trimmed => exact trimmed_rdropWhile_dropWhile s
  case longest =>
    intro other inside trimmed
    exact (infix_rdropWhile (infix_dropWhile inside trimmed.first) trimmed.last).length_le

/-- There is one longest trimmed part. -/
theorem longestTrimmed_iff {s part : List α} :
    LongestTrimmed blank s part ↔ part = (s.dropWhile blank).rdropWhile blank := by
  constructor
  · intro longest
    have inside : part <:+: (s.dropWhile blank).rdropWhile blank :=
      infix_rdropWhile (infix_dropWhile longest.inside longest.trimmed.first) longest.trimmed.last
    have left := @longestTrimmed_rdropWhile_dropWhile α blank s
    exact inside.eq_of_length_le (longest.longest _ left.inside left.trimmed)
  · rintro rfl
    exact longestTrimmed_rdropWhile_dropWhile s

/-- A trimmed list is its own longest trimmed part. -/
theorem Trimmed.longest {part : List α} (trimmed : Trimmed blank part) :
    LongestTrimmed blank part part := by
  constructor
  · exact List.infix_refl part
  · exact trimmed
  · intro other inside _
    exact inside.length_le

end CleanArchitecture
