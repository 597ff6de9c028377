import CleanArchitecture.BoundedPrograms
import Mathlib.Data.List.Forall2

/-!
# Objects made on first use

A cell is empty until somebody uses it.  Who finds it empty takes its lock, tests it once
more, makes the object and fills the cell.  The arguments of the object may be other cells,
which are taken under the lock; every cell has a rank, and locks are only taken below those
that are held.  Then each object is made once, everybody gets the same one, and nobody waits
for ever.
-/

namespace CleanArchitecture

open Program

variable {κ : Type}

/-- The calls on cells of pointers.  The last one ends the process. -/
inductive CellCall (κ : Type)
  | load (cell : κ)
  | lock (cell : κ)
  | unlock (cell : κ)
  | install (cell : κ) (arguments : List (Option Nat))
  | terminate

/-- A null pointer is `none`. -/
abbrev CellCall.Response : CellCall κ → Type
  | .load _ => Option Nat
  | .terminate => Empty
  | _ => Unit

abbrev CellProgram (κ α : Type) : Type :=
  Program (CellCall κ) CellCall.Response α

/-- The pointers and the locks of the cells, the next address, and the objects made so far
with their arguments. -/
structure CellMemory (κ : Type) where
  pointer : κ → Option Nat
  locked : κ → Bool
  next : Nat
  made : List (κ × List (Option Nat))

section Programs

variable [DecidableEq κ]

/-- A new object is made and its address is stored in the cell. -/
def CellMemory.install (m : CellMemory κ) (cell : κ) (arguments : List (Option Nat)) :
    CellMemory κ where
  pointer := Function.update m.pointer cell (some m.next)
  locked := m.locked
  next := m.next + 1
  made := m.made ++ [(cell, arguments)]

/-- A lock that is taken is waited for. -/
def CellMemory.handler : CommandHandler (CellCall κ) CellCall.Response (CellMemory κ)
  | .load cell, m => some (m.pointer cell, m)
  | .lock cell, m =>
      if m.locked cell then none
      else some ((), { m with locked := Function.update m.locked cell true })
  | .unlock cell, m => some ((), { m with locked := Function.update m.locked cell false })
  | .install cell arguments, m => some ((), m.install cell arguments)
  | .terminate, _ => none

end Programs

namespace CellProgram

def load (cell : κ) : CellProgram κ (Option Nat) := perform (CellCall.load cell)

def lock (cell : κ) : CellProgram κ Unit := perform (CellCall.lock cell)

def unlock (cell : κ) : CellProgram κ Unit := perform (CellCall.unlock cell)

def install (cell : κ) (arguments : List (Option Nat)) : CellProgram κ Unit :=
  perform (CellCall.install cell arguments)

/-- The second test and the object, under the lock. -/
def makeOnce (cell : κ) (arguments : CellProgram κ (List (Option Nat))) : CellProgram κ Unit := do
  if (← load cell).isNone then
    let values ← arguments
    install cell values
  else return ()

/-- The first test; the object is made under the lock if it fails. -/
def ensure (cell : κ) (arguments : CellProgram κ (List (Option Nat))) : CellProgram κ Unit := do
  if (← load cell).isNone then
    lock cell
    makeOnce cell arguments
    unlock cell
  else return ()

/-- The pointer of a cell, whose object is made first if nobody has made it yet. -/
def firstUse (cell : κ) (arguments : CellProgram κ (List (Option Nat))) :
    CellProgram κ (Option Nat) := do
  ensure cell arguments
  load cell

variable {cell : κ} {arguments : CellProgram κ (List (Option Nat))} {bound : Nat}

theorem callsAtMost_ensure (bounded : CallsAtMost bound arguments) :
    CallsAtMost (bound + 5) (ensure cell arguments) := by
  have once : CallsAtMost (1 + (bound + 1)) (makeOnce cell arguments) := by
    apply (callsAtMost_perform _).bind
    intro pointer
    split
    · exact bounded.bind fun values => callsAtMost_perform _
    · exact callsAtMost_pure _ _
  have locked : CallsAtMost (1 + (1 + (bound + 1) + 1))
      (do lock cell; makeOnce cell arguments; unlock cell) :=
    (callsAtMost_perform _).bind fun _ => once.bind fun _ => callsAtMost_perform _
  have whole : CallsAtMost (1 + (1 + (1 + (bound + 1) + 1))) (ensure cell arguments) := by
    apply (callsAtMost_perform _).bind
    intro pointer
    split
    · exact locked
    · exact callsAtMost_pure _ _
  exact whole.mono (by omega)

theorem callsAtMost_firstUse (bounded : CallsAtMost bound arguments) :
    CallsAtMost (bound + 6) (firstUse cell arguments) :=
  (callsAtMost_ensure bounded).bind fun _ => callsAtMost_perform _

end CellProgram

/-! ## What a thread knows -/

/-- The cells whose locks a thread holds, each with whether the thread has found the cell
empty since; the pointers that it has seen; and the cells that it knows to be filled. -/
structure Notes (κ : Type) where
  held : List (κ × Bool) := []
  seen : List (κ × Nat) := []
  filled : List κ := []
  deriving DecidableEq

namespace Notes

def cells (notes : Notes κ) : List κ :=
  notes.held.map Prod.fst

/-- A pointer that was seen in a cell. -/
def Names (notes : Notes κ) (cell : κ) (pointer : Option Nat) : Prop :=
  ∃ address, pointer = some address ∧ (cell, address) ∈ notes.seen

/-- More is known, under the same locks. -/
structure Extends (notes after : Notes κ) : Prop where
  held : after.held = notes.held
  seen : notes.seen ⊆ after.seen
  filled : notes.filled ⊆ after.filled

theorem Extends.refl (notes : Notes κ) : notes.Extends notes :=
  ⟨rfl, List.Subset.refl _, List.Subset.refl _⟩

theorem Extends.trans {notes middle after : Notes κ} (first : notes.Extends middle)
    (second : middle.Extends after) : notes.Extends after :=
  ⟨second.held.trans first.held, List.Subset.trans first.seen second.seen,
    List.Subset.trans first.filled second.filled⟩

theorem Names.mono {notes after : Notes κ} (seen : notes.seen ⊆ after.seen) {cell : κ}
    {pointer : Option Nat} (names : notes.Names cell pointer) : after.Names cell pointer := by
  obtain ⟨address, rfl, member⟩ := names
  exact ⟨address, rfl, seen member⟩

variable [DecidableEq κ]

/-- Whether a held cell was found empty is noted beside its lock. -/
def mark (cell : κ) (empty : Bool) (held : List (κ × Bool)) : List (κ × Bool) :=
  held.map fun frame => if frame.1 = cell then (cell, empty) else frame

/-- The cell is filled. -/
def install (notes : Notes κ) (cell : κ) : Notes κ :=
  { notes with
    held := mark cell false notes.held
    filled := cell :: notes.filled }

/-- After a call; a cell that is known to be filled is never found empty. -/
def next (notes : Notes κ) : (call : CellCall κ) → call.Response → Option (Notes κ)
  | .load cell => fun pointer =>
      match pointer with
      | none =>
          if cell ∈ notes.filled then none
          else some { notes with held := mark cell true notes.held }
      | some address =>
          some
            { held := mark cell false notes.held
              seen := (cell, address) :: notes.seen
              filled := cell :: notes.filled }
  | .lock cell => fun _ => some { notes with held := (cell, false) :: notes.held }
  | .unlock _ => fun _ => some { notes with held := notes.held.tail }
  | .install cell _ => fun _ => some (notes.install cell)
  | .terminate => fun _ => some notes

/-- A lock is taken below the held ones and given back in order, and an object is made for a
cell that was found empty under its lock, with pointers that were seen in the cells that it
depends on. -/
def Permits (rank : κ → Nat) (needs : κ → List κ) (notes : Notes κ) : CellCall κ → Prop
  | .load _ => True
  | .lock cell => ∀ frame ∈ notes.held, rank cell < rank frame.1
  | .unlock cell => ∃ empty rest, notes.held = (cell, empty) :: rest
  | .install cell arguments =>
      (cell, true) ∈ notes.held ∧ List.Forall₂ notes.Names (needs cell) arguments
  | .terminate => False

theorem map_fst_mark (cell : κ) (empty : Bool) (held : List (κ × Bool)) :
    (mark cell empty held).map Prod.fst = held.map Prod.fst := by
  induction held with
  | nil => rfl
  | cons frame held ih =>
      rw [mark, List.map_cons, List.map_cons, List.map_cons, ← mark, ih]
      split
      · rename_i same
        rw [same]
      · rfl

theorem mark_of_notMem {cell : κ} {held : List (κ × Bool)} (absent : cell ∉ held.map Prod.fst)
    (empty : Bool) : mark cell empty held = held := by
  induction held with
  | nil => rfl
  | cons frame held ih =>
      rw [List.map_cons, List.mem_cons, not_or] at absent
      rw [mark, List.map_cons, if_neg (Ne.symm absent.1), ← mark, ih absent.2]

theorem mem_mark {cell other : κ} {empty found : Bool} {held : List (κ × Bool)}
    (member : (other, found) ∈ mark cell empty held) :
    other = cell ∧ found = empty ∨ other ≠ cell ∧ (other, found) ∈ held := by
  obtain ⟨frame, listed, same⟩ := List.mem_map.mp member
  split at same
  · cases same
    exact .inl ⟨rfl, rfl⟩
  · rename_i apart
    subst same
    exact .inr ⟨apart, listed⟩

end Notes

section FirstUse

variable [DecidableEq κ]

/-- The protocol of a thread.  A thread that finds a cell empty that it knows to be filled is
astray, and may do what it likes. -/
def firstUseProtocol (rank : κ → Nat) (needs : κ → List κ) :
    Protocol (CellCall κ) CellCall.Response (Option (Notes κ)) where
  allows phase call := ∀ notes ∈ phase, notes.Permits rank needs call
  next phase call response := phase.bind fun notes => notes.next call response

variable {α β : Type} {rank : κ → Nat} {needs : κ → List κ} {notes : Notes κ}
  {post : α → Notes κ → Prop} {good : β → Notes κ → Prop}

/-- From these notes the program comes to its end with notes that satisfy a postcondition, if
it does not go astray. -/
def Reaches (rank : κ → Nat) (needs : κ → List κ) (post : α → Notes κ → Prop) (notes : Notes κ)
    (program : CellProgram κ α) : Prop :=
  Follows (firstUseProtocol rank needs) (fun value phase => ∀ after ∈ phase, post value after)
    (some notes) program

theorem follows_astray (program : CellProgram κ α) :
    Follows (firstUseProtocol rank needs) (fun value phase => ∀ after ∈ phase, post value after)
      none program := by
  induction program with
  | done value =>
      rintro after ⟨⟩
  | call command next ih =>
      refine ⟨?_, fun response => ih response⟩
      rintro notes ⟨⟩

theorem reaches_pure {value : α} (holds : post value notes) :
    Reaches rank needs post notes (pure value) := by
  rintro after ⟨⟩
  exact holds

theorem reaches_perform {call : CellCall κ} {post : call.Response → Notes κ → Prop}
    (permitted : notes.Permits rank needs call)
    (holds : ∀ response, ∀ after ∈ notes.next call response, post response after) :
    Reaches rank needs post notes (perform call) := by
  refine ⟨?_, holds⟩
  rintro _ ⟨⟩
  exact permitted

theorem Reaches.bind {program : CellProgram κ α} {next : α → CellProgram κ β}
    (first : Reaches rank needs post notes program)
    (rest : ∀ value after, post value after → Reaches rank needs good after (next value)) :
    Reaches rank needs good notes (program >>= next) := by
  refine Follows.bind first fun value phase holds => ?_
  cases phase with
  | none => exact follows_astray _
  | some after => exact rest value after (holds after rfl)

theorem Reaches.mono {weaker : α → Notes κ → Prop} {program : CellProgram κ α}
    (reaches : Reaches rank needs post notes program)
    (results : ∀ value after, post value after → weaker value after) :
    Reaches rank needs weaker notes program :=
  Follows.mono reaches fun value _ holds after member => results value after (holds after member)

namespace CellProgram

variable {cell : κ} {arguments : CellProgram κ (List (Option Nat))}

/-- No lock is held but above the rank of the cell. -/
def Below (rank : κ → Nat) (cell : κ) (notes : Notes κ) : Prop :=
  ∀ frame ∈ notes.held, rank cell < rank frame.1

omit [DecidableEq κ] in
theorem Below.notMem (below : Below rank cell notes) : cell ∉ notes.cells := by
  intro member
  obtain ⟨frame, listed, same⟩ := List.mem_map.mp member
  have above := below frame listed
  rw [same] at above
  exact lt_irrefl _ above

/-- Whenever the cell is locked and nothing below it, the arguments are pointers of the cells
that it needs. -/
def Provides (rank : κ → Nat) (needs : κ → List κ) (cell : κ)
    (arguments : CellProgram κ (List (Option Nat))) (notes : Notes κ) : Prop :=
  ∀ locked : Notes κ, notes.filled ⊆ locked.filled →
    (∀ frame ∈ locked.held, rank cell ≤ rank frame.1) →
    Reaches rank needs (fun values after => locked.Extends after ∧
      List.Forall₂ after.Names (needs cell) values) locked arguments

theorem Provides.mono {more : Notes κ} (provides : Provides rank needs cell arguments notes)
    (filled : notes.filled ⊆ more.filled) : Provides rank needs cell arguments more :=
  fun locked known => provides locked (List.Subset.trans filled known)

/-- A load below the held locks adds to what is known. -/
theorem reaches_load (below : Below rank cell notes) :
    Reaches rank needs (fun pointer after => notes.Extends after ∧
        (pointer = none ∨ after.Names cell pointer ∧ cell ∈ after.filled) ∧
          (cell ∈ notes.filled → pointer ≠ none)) notes (load cell) := by
  refine reaches_perform trivial fun pointer after member => ?_
  have unmarked : ∀ empty, Notes.mark cell empty notes.held = notes.held :=
    Notes.mark_of_notMem below.notMem
  cases pointer with
  | none =>
      simp only [Notes.next] at member
      split at member
      · cases member
      · rename_i unknown
        cases member
        exact ⟨⟨unmarked true, List.Subset.refl _, List.Subset.refl _⟩, .inl rfl,
          fun known => absurd known unknown⟩
  | some address =>
      cases member
      refine ⟨⟨unmarked false, List.subset_cons_self _ _, List.subset_cons_self _ _⟩, .inr ?_, ?_⟩
      · exact ⟨⟨address, rfl, List.mem_cons_self⟩, List.mem_cons_self⟩
      · rintro _ ⟨⟩

/-- Under the lock of a cell the cell is filled. -/
theorem reaches_makeOnce {held : List (κ × Bool)} (below : ∀ frame ∈ held, rank cell < rank frame.1)
    (locked : notes.held = (cell, false) :: held)
    (provides : Provides rank needs cell arguments notes) :
    Reaches rank needs (fun _ after => after.held = (cell, false) :: held ∧
        notes.seen ⊆ after.seen ∧ notes.filled ⊆ after.filled ∧ cell ∈ after.filled) notes
      (makeOnce cell arguments) := by
  have absent : cell ∉ held.map Prod.fst := by
    intro member
    obtain ⟨frame, listed, same⟩ := List.mem_map.mp member
    have above := below frame listed
    rw [same] at above
    exact lt_irrefl _ above
  have marked : ∀ found empty,
      Notes.mark cell empty ((cell, found) :: held) = (cell, empty) :: held := by
    intro found empty
    rw [Notes.mark, List.map_cons, if_pos rfl, ← Notes.mark, Notes.mark_of_notMem absent]
  have tested : Reaches rank needs (fun pointer after =>
      after.held = (cell, pointer.isNone) :: held ∧ notes.seen ⊆ after.seen ∧
        notes.filled ⊆ after.filled ∧ (pointer ≠ none → cell ∈ after.filled)) notes
      (load cell) := by
    refine reaches_perform trivial fun pointer after member => ?_
    cases pointer with
    | none =>
        simp only [Notes.next] at member
        split at member
        · cases member
        · cases member
          simp only [locked, marked]
          exact ⟨rfl, List.Subset.refl _, List.Subset.refl _, fun some => absurd rfl some⟩
    | some address =>
        cases member
        simp only [locked, marked]
        exact ⟨rfl, List.subset_cons_self _ _, List.subset_cons_self _ _,
          fun _ => List.mem_cons_self⟩
  apply tested.bind
  rintro pointer after ⟨same, seen, filled, known⟩
  cases pointer with
  | some address => exact reaches_pure ⟨same, seen, filled, known (Option.some_ne_none _)⟩
  | none =>
      have above : ∀ frame ∈ after.held, rank cell ≤ rank frame.1 := by
        rw [same]
        rintro frame (_ | ⟨_, listed⟩)
        · exact le_refl _
        · exact (below frame listed).le
      refine (provides after filled above).bind fun values last given => ?_
      obtain ⟨grown, named⟩ := given
      have still : last.held = (cell, true) :: held := grown.held.trans same
      refine reaches_perform ⟨?_, named⟩ fun _ final member => ?_
      · rw [still]
        exact List.mem_cons_self
      · cases member
        simp only [Notes.install, still, marked]
        exact ⟨trivial, List.Subset.trans seen grown.seen,
          List.subset_cons_of_subset _ (List.Subset.trans filled grown.filled),
          List.mem_cons_self⟩

theorem reaches_ensure (below : Below rank cell notes)
    (provides : Provides rank needs cell arguments notes) :
    Reaches rank needs (fun _ after => notes.Extends after ∧ cell ∈ after.filled) notes
      (ensure cell arguments) := by
  apply (reaches_load below).bind
  rintro pointer after ⟨grown, found, -⟩
  cases pointer with
  | some address =>
      obtain ⟨-, filled⟩ := found.resolve_left (Option.some_ne_none _)
      exact reaches_pure ⟨grown, filled⟩
  | none =>
      have still : Below rank cell after := by
        rw [Below, grown.held]
        exact below
      have taken : Reaches rank needs (fun _ locked =>
          locked.held = (cell, false) :: after.held ∧ locked.seen = after.seen ∧
            locked.filled = after.filled) after (lock cell) := by
        refine reaches_perform still fun _ locked member => ?_
        cases member
        exact ⟨rfl, rfl, rfl⟩
      apply taken.bind
      rintro _ locked ⟨held, sameSeen, sameFilled⟩
      have known : notes.filled ⊆ locked.filled := sameFilled ▸ grown.filled
      apply (reaches_makeOnce still held (provides.mono known)).bind
      rintro _ unlocked ⟨held', seen, filled, full⟩
      refine reaches_perform ⟨false, after.held, held'⟩ fun _ last member => ?_
      cases member
      refine ⟨⟨?_, ?_, ?_⟩, full⟩
      · rw [held']
        exact grown.held
      · exact List.Subset.trans grown.seen (sameSeen ▸ seen)
      · exact List.Subset.trans grown.filled (sameFilled ▸ filled)

/-- A first use ends with a pointer of the cell. -/
theorem reaches_firstUse (below : Below rank cell notes)
    (provides : Provides rank needs cell arguments notes) :
    Reaches rank needs (fun pointer after => notes.Extends after ∧ after.Names cell pointer) notes
      (firstUse cell arguments) := by
  apply (reaches_ensure below provides).bind
  rintro _ after ⟨grown, filled⟩
  have still : Below rank cell after := by
    rw [Below, grown.held]
    exact below
  refine (reaches_load still).mono fun pointer last given => ?_
  obtain ⟨more, found, known⟩ := given
  exact ⟨grown.trans more, (found.resolve_left (known filled)).1⟩

end CellProgram

/-! ## What is true of the memory -/

/-- What a thread knows is true of the memory, and its locks were taken in order. -/
structure Notes.Holds (rank : κ → Nat) (m : CellMemory κ) (notes : Notes κ) : Prop where
  seen : ∀ cell address, (cell, address) ∈ notes.seen → m.pointer cell = some address
  filled : ∀ cell ∈ notes.filled, (m.pointer cell).isSome
  empty : ∀ cell, (cell, true) ∈ notes.held → m.pointer cell = none
  order : notes.cells.Pairwise fun lower higher => rank lower < rank higher

/-- Every lock is held by one thread, and every object was made once, from the pointers of
the cells that it needs. -/
structure CellMemory.Sound {ι : Type} (rank : κ → Nat) (needs : κ → List κ) (m : CellMemory κ)
    (notes : ι → Notes κ) : Prop where
  holds : ∀ i, (notes i).Holds rank m
  locked : ∀ cell, m.locked cell = true ↔ ∃ i, cell ∈ (notes i).cells
  alone : ∀ i j cell, cell ∈ (notes i).cells → cell ∈ (notes j).cells → i = j
  once : (m.made.map Prod.fst).Nodup
  filled : ∀ object ∈ m.made, (m.pointer object.1).isSome
  wired : ∀ object ∈ m.made,
    List.Forall₂ (fun needed argument => argument ≠ none ∧ m.pointer needed = argument)
      (needs object.1) object.2

omit [DecidableEq κ] in
/-- What is known does not depend on the locks. -/
theorem Notes.Holds.relock {m : CellMemory κ} {known : Notes κ} (holds : known.Holds rank m)
    (locked : κ → Bool) : known.Holds rank { m with locked := locked } :=
  ⟨holds.seen, holds.filled, holds.empty, holds.order⟩

namespace CellMemory.Sound

variable {ι : Type} [DecidableEq ι] {m : CellMemory κ} {notes : ι → Notes κ} {i : ι} {cell : κ}

omit [DecidableEq κ] in
/-- The notes of one thread change, but not its locks. -/
theorem note (sound : m.Sound rank needs notes) {after : Notes κ}
    (cells : after.cells = (notes i).cells) (holds : after.Holds rank m) :
    m.Sound rank needs (Function.update notes i after) := by
  have same : ∀ j, (Function.update notes i after j).cells = (notes j).cells := by
    intro j
    by_cases here : j = i
    · subst here
      rw [Function.update_self, cells]
    · rw [Function.update_of_ne here]
  refine ⟨?_, ?_, ?_, sound.once, sound.filled, sound.wired⟩
  · exact (Function.forall_update_iff notes fun _ known => known.Holds rank m).mpr
      ⟨holds, fun j _ => sound.holds j⟩
  · simp only [same]
    exact sound.locked
  · simp only [same]
    exact sound.alone

theorem load (sound : m.Sound rank needs notes) (i : ι) (cell : κ) :
    ∃ after, (notes i).next (.load cell) (m.pointer cell) = some after ∧
      m.Sound rank needs (Function.update notes i after) := by
  have holds := sound.holds i
  have order : ∀ empty, (Notes.mark cell empty (notes i).held).map Prod.fst = (notes i).cells :=
    fun empty => Notes.map_fst_mark cell empty (notes i).held
  cases found : m.pointer cell with
  | none =>
      have unknown : cell ∉ (notes i).filled := by
        intro known
        have filled := holds.filled cell known
        rw [found] at filled
        cases filled
      refine ⟨_, if_neg unknown, sound.note (order true) ⟨holds.seen, holds.filled, ?_, ?_⟩⟩
      · intro other member
        rcases Notes.mem_mark member with ⟨rfl, -⟩ | ⟨-, listed⟩
        · exact found
        · exact holds.empty other listed
      · rw [Notes.cells, order]
        exact holds.order
  | some address =>
      refine ⟨_, rfl, sound.note (order false) ⟨?_, ?_, ?_, ?_⟩⟩
      · rintro other pointer (_ | ⟨_, member⟩)
        · exact found
        · exact holds.seen other pointer member
      · rintro other (_ | ⟨_, member⟩)
        · rw [found]
          rfl
        · exact holds.filled other member
      · intro other member
        rcases Notes.mem_mark member with ⟨-, absurdity⟩ | ⟨-, listed⟩
        · cases absurdity
        · exact holds.empty other listed
      · rw [Notes.cells, order]
        exact holds.order

/-- A lock that is free is taken below the held ones. -/
theorem lock (sound : m.Sound rank needs notes)
    (below : ∀ frame ∈ (notes i).held, rank cell < rank frame.1) (free : m.locked cell = false) :
    ({ m with locked := Function.update m.locked cell true } : CellMemory κ).Sound rank needs
      (Function.update notes i { notes i with held := (cell, false) :: (notes i).held }) := by
  have nobody : ∀ j, cell ∉ (notes j).cells := by
    intro j member
    rw [(sound.locked cell).mpr ⟨j, member⟩] at free
    cases free
  have cells : ∀ j other, other ∈ (Function.update notes i
      { notes i with held := (cell, false) :: (notes i).held } j).cells ↔
        other ∈ (notes j).cells ∨ j = i ∧ other = cell := by
    intro j other
    by_cases here : j = i
    · subst here
      simp [Notes.cells, or_comm]
    · simp [here]
  refine ⟨?_, ?_, ?_, sound.once, sound.filled, sound.wired⟩
  · refine (Function.forall_update_iff notes fun _ known => known.Holds rank _).mpr ⟨?_, ?_⟩
    · have holds := sound.holds i
      refine ⟨holds.seen, holds.filled, ?_, ?_⟩
      · rintro other (_ | ⟨_, listed⟩)
        exact holds.empty other listed
      · rw [Notes.cells, List.map_cons, List.pairwise_cons]
        refine ⟨fun higher member => ?_, holds.order⟩
        obtain ⟨frame, listed, rfl⟩ := List.mem_map.mp member
        exact below frame listed
    · exact fun j _ => (sound.holds j).relock _
  · intro other
    simp only [cells]
    by_cases same : other = cell
    · subst same
      simp
    · rw [Function.update_of_ne same, sound.locked]
      simp [same]
  · intro j k other first second
    rcases (cells j other).mp first with before | ⟨rfl, rfl⟩
    · rcases (cells k other).mp second with before' | ⟨rfl, rfl⟩
      · exact sound.alone j k other before before'
      · exact absurd before (nobody j)
    · rcases (cells k other).mp second with before' | ⟨rfl, -⟩
      · exact absurd before' (nobody k)
      · rfl

/-- The lock that was taken last is given back. -/
theorem unlock (sound : m.Sound rank needs notes) {empty : Bool} {rest : List (κ × Bool)}
    (last : (notes i).held = (cell, empty) :: rest) :
    ({ m with locked := Function.update m.locked cell false } : CellMemory κ).Sound rank needs
      (Function.update notes i { notes i with held := (notes i).held.tail }) := by
  have holds := sound.holds i
  have order := holds.order
  rw [Notes.cells, last, List.map_cons, List.pairwise_cons] at order
  have absent : cell ∉ rest.map Prod.fst := fun member => lt_irrefl _ (order.1 cell member)
  have cells : ∀ j other, other ∈ (Function.update notes i
      { notes i with held := (notes i).held.tail } j).cells ↔
        other ∈ (notes j).cells ∧ other ≠ cell := by
    intro j other
    by_cases here : j = i
    · subst here
      simp only [Function.update_self, Notes.cells, last, List.tail_cons, List.map_cons,
        List.mem_cons]
      constructor
      · intro member
        refine ⟨.inr member, ?_⟩
        rintro rfl
        exact absent member
      · rintro ⟨same | member, other⟩
        · exact absurd same other
        · exact member
    · rw [Function.update_of_ne here]
      refine ⟨fun member => ⟨member, ?_⟩, fun both => both.1⟩
      rintro rfl
      exact here (sound.alone j i other member (by simp [Notes.cells, last]))
  refine ⟨?_, ?_, ?_, sound.once, sound.filled, sound.wired⟩
  · refine (Function.forall_update_iff notes fun _ known => known.Holds rank _).mpr ⟨?_, ?_⟩
    · refine ⟨holds.seen, holds.filled, fun other listed => ?_, ?_⟩
      · exact holds.empty other (List.mem_of_mem_tail listed)
      · rw [Notes.cells, last]
        exact order.2
    · exact fun j _ => (sound.holds j).relock _
  · intro other
    simp only [cells]
    by_cases same : other = cell
    · subst same
      simp
    · rw [Function.update_of_ne same, sound.locked]
      simp [same]
  · intro j k other first second
    exact sound.alone j k other ((cells j other).mp first).1 ((cells k other).mp second).1

/-- The object of a cell that was found empty under its lock. -/
theorem install (sound : m.Sound rank needs notes) (empty : (cell, true) ∈ (notes i).held)
    {arguments : List (Option Nat)}
    (named : List.Forall₂ (notes i).Names (needs cell) arguments) :
    (m.install cell arguments).Sound rank needs
      (Function.update notes i ((notes i).install cell)) := by
  have null := (sound.holds i).empty cell empty
  have others : ∀ other address, m.pointer other = some address →
      Function.update m.pointer cell (some m.next) other = some address := by
    intro other address found
    rw [Function.update_of_ne, found]
    rintro rfl
    rw [null] at found
    cases found
  have filled : ∀ other, (m.pointer other).isSome →
      (Function.update m.pointer cell (some m.next) other).isSome := by
    intro other some
    obtain ⟨address, found⟩ := Option.isSome_iff_exists.mp some
    rw [others other address found]
    rfl
  have cells : ∀ j,
      (Function.update notes i ((notes i).install cell) j).cells = (notes j).cells := by
    intro j
    by_cases here : j = i
    · subst here
      rw [Function.update_self]
      exact Notes.map_fst_mark cell false (notes j).held
    · rw [Function.update_of_ne here]
  refine ⟨?_, ?_, ?_, ?_, ?_, ?_⟩
  · refine (Function.forall_update_iff notes fun _ known => known.Holds rank _).mpr ⟨?_, ?_⟩
    · have holds := sound.holds i
      refine ⟨fun other address member => others other address (holds.seen other address member),
        ?_, ?_, ?_⟩
      · rintro other (_ | ⟨_, member⟩)
        · simp [CellMemory.install]
        · exact filled other (holds.filled other member)
      · intro other member
        rcases Notes.mem_mark member with ⟨-, absurdity⟩ | ⟨apart, listed⟩
        · cases absurdity
        · exact (Function.update_of_ne apart _ _).trans (holds.empty other listed)
      · rw [Notes.cells, Notes.install, Notes.map_fst_mark]
        exact holds.order
    · intro j other
      have holds := sound.holds j
      refine ⟨fun other address member => others other address (holds.seen other address member),
        fun other member => filled other (holds.filled other member), ?_, holds.order⟩
      intro found listed
      refine (Function.update_of_ne ?_ _ _).trans (holds.empty found listed)
      rintro rfl
      exact other (sound.alone j i found (List.mem_map.mpr ⟨_, listed, rfl⟩)
        (List.mem_map.mpr ⟨_, empty, rfl⟩))
  · simp only [cells]
    exact sound.locked
  · simp only [cells]
    exact sound.alone
  · rw [CellMemory.install, List.map_append, List.map_singleton, ← List.concat_eq_append]
    apply sound.once.concat
    intro member
    obtain ⟨object, listed, rfl⟩ := List.mem_map.mp member
    have some := sound.filled object listed
    rw [null] at some
    cases some
  · intro object member
    rcases List.mem_append.mp member with before | new
    · exact filled object.1 (sound.filled object before)
    · rw [List.mem_singleton.mp new]
      simp [CellMemory.install]
  · intro object member
    rcases List.mem_append.mp member with before | new
    · refine (sound.wired object before).imp fun needed argument known => ?_
      obtain ⟨address, rfl⟩ := Option.ne_none_iff_exists'.mp known.1
      exact ⟨known.1, others needed address known.2⟩
    · rw [List.mem_singleton.mp new]
      refine named.imp fun needed argument names => ?_
      obtain ⟨address, rfl, seen⟩ := names
      exact ⟨Option.some_ne_none _,
        others needed address ((sound.holds i).seen needed address seen)⟩

omit [DecidableEq κ] [DecidableEq ι] in
/-- An object was made from the pointers of the cells that it needs. -/
theorem eq_map (sound : m.Sound rank needs notes) {object : κ × List (Option Nat)}
    (made : object ∈ m.made) :
    none ∉ object.2 ∧ object.2 = (needs object.1).map m.pointer := by
  have wired := sound.wired object made
  generalize needs object.1 = cells, object.2 = arguments at wired ⊢
  induction wired with
  | nil => exact ⟨List.not_mem_nil, rfl⟩
  | cons wired _ ih =>
      refine ⟨List.not_mem_cons_of_ne_of_not_mem (Ne.symm wired.1) ih.1, ?_⟩
      rw [List.map_cons, wired.2, ← ih.2]

/-- A call that is permitted and answered. -/
theorem step (sound : m.Sound rank needs notes) {call : CellCall κ} {response : call.Response}
    {m' : CellMemory κ} (permitted : (notes i).Permits rank needs call)
    (answered : CellMemory.handler call m = some (response, m')) :
    ∃ after, (notes i).next call response = some after ∧
      m'.Sound rank needs (Function.update notes i after) := by
  cases call with
  | load cell =>
      cases answered
      exact sound.load i cell
  | lock cell =>
      simp only [CellMemory.handler] at answered
      split at answered
      · cases answered
      · rename_i free
        cases answered
        exact ⟨_, rfl, sound.lock permitted (Bool.eq_false_of_not_eq_true free)⟩
  | unlock cell =>
      cases answered
      obtain ⟨empty, rest, last⟩ := permitted
      exact ⟨_, rfl, sound.unlock last⟩
  | install cell arguments =>
      cases answered
      exact ⟨_, rfl, sound.install permitted.1 permitted.2⟩
  | terminate => exact permitted.elim

end CellMemory.Sound

/-! ## Threads -/

section Threads

variable {ι : Type} [DecidableEq ι] {post : ι → α → Notes κ → Prop}
  {s last : Threads (CellCall κ) CellCall.Response α (Option (Notes κ)) (CellMemory κ) ι}

/-- The threads have these notes, none of them is astray, and the memory is sound. -/
def SoundThreads (rank : κ → Nat) (needs : κ → List κ) (phases : ι → Option (Notes κ))
    (m : CellMemory κ) : Prop :=
  ∃ notes : ι → Notes κ, (phases = fun i => some (notes i)) ∧ m.Sound rank needs notes

theorem SoundThreads.step {phases : ι → Option (Notes κ)} {m m' : CellMemory κ} {i : ι}
    {call : CellCall κ} {response : call.Response} (sound : SoundThreads rank needs phases m)
    (allowed : (firstUseProtocol rank needs).allows (phases i) call)
    (answered : CellMemory.handler call m = some (response, m')) :
    SoundThreads rank needs
      (Function.update phases i ((firstUseProtocol rank needs).next (phases i) call response))
      m' := by
  obtain ⟨notes, rfl, sound⟩ := sound
  obtain ⟨after, next, sound'⟩ := sound.step (allowed (notes i) rfl) answered
  refine ⟨Function.update notes i after, ?_, sound'⟩
  have noted : (firstUseProtocol rank needs).next (some (notes i)) call response = some after :=
    next
  rw [noted]
  exact (Function.comp_update some notes i after).symm

/-- After every schedule the memory is sound. -/
theorem sound_of_run
    (follow : s.Follow (fun _ => firstUseProtocol rank needs)
      fun i value phase => ∀ after ∈ phase, post i value after)
    (initial : SoundThreads rank needs s.phases s.shared) {schedule : List ι}
    {turns : List (Turn (CellCall κ) CellCall.Response α (Option (Notes κ)) (CellMemory κ) ι)}
    (ran : (interleaving (fun _ => firstUseProtocol rank needs) CellMemory.handler).run s schedule =
      .ok (last, turns)) :
    last.Follow (fun _ => firstUseProtocol rank needs)
        (fun i value phase => ∀ after ∈ phase, post i value after) ∧
      SoundThreads rank needs last.phases last.shared :=
  Threads.invariant_of_run (SoundThreads rank needs) (fun _ => True)
    (fun _ _ _ _ _ allowed _ sound answered => sound.step allowed answered)
    follow initial ran fun _ _ => trivial

/-- A cell that is filled was filled at the start, or its object was made since. -/
theorem made_of_filled
    (follow : s.Follow (fun _ => firstUseProtocol rank needs)
      fun i value phase => ∀ after ∈ phase, post i value after)
    {schedule : List ι}
    {turns : List (Turn (CellCall κ) CellCall.Response α (Option (Notes κ)) (CellMemory κ) ι)}
    (ran : (interleaving (fun _ => firstUseProtocol rank needs) CellMemory.handler).run s schedule =
      .ok (last, turns)) (cell : κ) (filled : (last.shared.pointer cell).isSome) :
    (s.shared.pointer cell).isSome ∨ cell ∈ last.shared.made.map Prod.fst := by
  have origin := Threads.invariant_of_run
    (fun _ m => ∀ cell, (m.pointer cell).isSome →
      (s.shared.pointer cell).isSome ∨ cell ∈ m.made.map Prod.fst)
    (fun _ => True) ?_ follow (fun _ already => .inl already) ran fun _ _ => trivial
  · exact origin.2 cell filled
  · intro s' _ call response m' _ _ holds answered
    cases call with
    | load other =>
        cases answered
        exact holds
    | lock other =>
        simp only [CellMemory.handler] at answered
        split at answered
        · cases answered
        · cases answered
          exact holds
    | unlock other =>
        cases answered
        exact holds
    | install other arguments =>
        cases answered
        intro found full
        rw [CellMemory.install, List.map_append, List.mem_append]
        by_cases same : found = other
        · exact .inr (.inr (by simp [same]))
        · have before : (s'.shared.pointer found).isSome := by
            simpa [CellMemory.install, Function.update_of_ne same] using full
          exact (holds found before).imp_right .inl
    | terminate => cases answered

/-- A thread that waits for a lock waits for a thread whose locks are lower, so that one of
them can go on. -/
theorem exists_turn_of_unfinished
    (follow : s.Follow (fun _ => firstUseProtocol rank needs)
      fun i value phase => ∀ after ∈ phase, post i value after)
    (released : ∀ i value after, post i value after → after.held = [])
    (sound : SoundThreads rank needs s.phases s.shared)
    (unfinished : ∃ i, ∀ value, s.programs i ≠ .done value) :
    ∃ i next, (interleaving (fun _ => firstUseProtocol rank needs) CellMemory.handler).step s i =
      .ok next := by
  obtain ⟨notes, phases, sound⟩ := sound
  -- Induction on the rank of the lock that the thread waits for.
  have waiting : ∀ bound i cell next, rank cell < bound →
      s.programs i = .call (.lock cell) next →
      ∃ i next, (interleaving (fun _ => firstUseProtocol rank needs) CellMemory.handler).step s i =
        .ok next := by
    intro bound
    induction bound with
    | zero => exact fun _ _ _ below => absurd below (Nat.not_lt_zero _)
    | succ bound ih =>
        intro i cell next below calls
        cases taken : s.shared.locked cell with
        | false =>
            have answered : CellMemory.handler (.lock cell) s.shared =
                some ((), { s.shared with
                  locked := Function.update s.shared.locked cell true }) := by
              rw [CellMemory.handler, taken]
              rfl
            exact ⟨i, _, Threads.step_of_answered calls answered⟩
        | true =>
            obtain ⟨j, member⟩ := (sound.locked cell).mp taken
            have here := follow j
            rw [phases] at here
            cases program : s.programs j with
            | done value =>
                rw [program] at here
                have none := released j value (notes j) (here (notes j) rfl)
                rw [Notes.cells, none] at member
                cases member
            | call call rest =>
                rw [program] at here
                have permitted := here.1 (notes j) rfl
                cases call with
                | load other => exact ⟨j, _, Threads.step_of_answered program rfl⟩
                | unlock other => exact ⟨j, _, Threads.step_of_answered program rfl⟩
                | install other arguments => exact ⟨j, _, Threads.step_of_answered program rfl⟩
                | terminate => exact permitted.elim
                | lock other =>
                    obtain ⟨frame, listed, rfl⟩ := List.mem_map.mp member
                    have lower := permitted frame listed
                    exact ih j other rest (by omega) program
  obtain ⟨i, unfinished⟩ := unfinished
  have here := follow i
  rw [phases] at here
  cases program : s.programs i with
  | done value => exact absurd program (unfinished value)
  | call call rest =>
      rw [program] at here
      have permitted := here.1 (notes i) rfl
      cases call with
      | load cell => exact ⟨i, _, Threads.step_of_answered program rfl⟩
      | unlock cell => exact ⟨i, _, Threads.step_of_answered program rfl⟩
      | install cell arguments => exact ⟨i, _, Threads.step_of_answered program rfl⟩
      | terminate => exact permitted.elim
      | lock cell => exact waiting (rank cell + 1) i cell rest (Nat.lt_succ_self _) program

end Threads

end FirstUse

end CleanArchitecture
