import CleanArchitecture.StandardLibrary
import Mathlib.Data.List.Basic
import Mathlib.Data.List.Induction
import Mathlib.Logic.Function.Basic

/-!
# The environment file

Every line of the file is split at its first equals sign.  Where there is none the search
answers the largest index, which wraps to zero when one is added to it, so that the line is
set to itself.
-/

namespace CleanArchitecture.Env

/-! ## The environment of a process -/

/-- The variables of a process; their values are C strings. -/
structure ProcessEnv where
  lookup : Bytes → Option Bytes
  isCString : ∀ name value, lookup name = some value → 0 ∉ value

theorem isCString_update (env : ProcessEnv) (name value : Bytes) :
    ∀ other text, Function.update env.lookup name (some (cStr value)) other = some text →
      0 ∉ text := by
  intro other text held
  by_cases same : other = name
  · rw [same, Function.update_self] at held
    rw [← Option.some.inj held]
    exact zero_notMem_cStr value
  · rw [Function.update_of_ne same] at held
    exact env.isCString other text held

/-- `setenv(name, value, 1)`, which fails and changes nothing when the name is empty or
has an equals sign. -/
def setenv (env : ProcessEnv) (name value : Bytes) : ProcessEnv :=
  if cStr name = [] ∨ 61 ∈ cStr name then env
  else
    { lookup := Function.update env.lookup (cStr name) (some (cStr value))
      isCString := isCString_update env (cStr name) value }

/-! ## Reading the file -/

/-- The lines that `std::getline` reads one after the other: a line feed ends a line, and
the last line need not have one. -/
def fileLines : Bytes → List Bytes
  | [] => []
  | c :: rest =>
      if c = 10 then [] :: fileLines rest
      else
        match fileLines rest with
        | [] => [[c]]
        | line :: lines => (c :: line) :: lines

/-- The body of the loop.  The position is `npos` when it is `none`: the name is then the
whole line, and `pos + 1` is zero. -/
def initLine (env : ProcessEnv) (line : Bytes) : Except StdException ProcessEnv :=
  if line = [] ∨ line.head? = some 35 then .ok env
  else
    match find line 61 0 with
    | some n => do
        let name ← substr line 0 n
        let value ← substrFrom line (n + 1)
        return setenv env name value
    | none => do
        let value ← substrFrom line 0
        return setenv env line value

/-- `init_env` on the content of the file, if it can be opened. -/
def initEnv (file : Option Bytes) (env : ProcessEnv) : Except StdException ProcessEnv :=
  match file with
  | none => .ok env
  | some content => (fileLines content).foldlM initLine env

/-- `get_env`, for keys and defaults that are strings or C strings. -/
def getEnv (env : ProcessEnv) (key default : Bytes) : Bytes :=
  match env.lookup (cStr key) with
  | none => default
  | some value => if value = [] then default else value

example : fileLines (ascii "A=1\n\n#B\nC") = [ascii "A=1", [], ascii "#B", ascii "C"] := by decide

/-! ## What the lines say -/

/-- The name and the value that a line assigns. -/
def assignment (line : Bytes) : Option (Bytes × Bytes) :=
  if line.head? = some 35 ∨ line.head? = some 61 then none
  else
    match find line 61 0 with
    | some n => some (line.take n, line.drop (n + 1))
    | none => none

/-- The old variables updated by the lines in their order. -/
def assigned (vars : Bytes → Option Bytes) (lines : List Bytes) : Bytes → Option Bytes :=
  lines.foldl (fun vars line =>
    match assignment line with
    | some (name, value) => Function.update vars name (some value)
    | none => vars) vars

/-- A line that neither assigns a value nor is empty or a comment. -/
def Unassigned (line : Bytes) : Prop :=
  line ≠ [] ∧ line.head? ≠ some 35 ∧ 61 ∉ line

/-- The environment after the file is the old one updated by the assigning lines, and
`get_env` answers the values it holds unless they are empty. -/
def ReadExactly (env : ProcessEnv) (content : Bytes) : Prop :=
  ∃ after, initEnv (some content) env = .ok after ∧
    after.lookup = assigned env.lookup (fileLines content) ∧
    ∀ key default, getEnv after key default =
      match assigned env.lookup (fileLines content) (cStr key) with
      | none => default
      | some value => if value = [] then default else value

/-- A search that succeeds splits the line at its first equals sign. -/
theorem find_equals_iff {line name value : Bytes} :
    (∃ n, find line 61 0 = some n ∧ line.take n = name ∧ line.drop (n + 1) = value) ↔
      line = name ++ 61 :: value ∧ 61 ∉ name := by
  constructor
  · rintro ⟨n, found, rfl, rfl⟩
    exact find_eq_some found
  · rintro ⟨split, noEquals⟩
    cases found : find line 61 0 with
    | none =>
        have absent := find_eq_none found
        exact absurd (by simp [split]) absent
    | some n =>
        obtain ⟨split', noEquals'⟩ := find_eq_some found
        rw [List.drop_zero, Nat.sub_zero] at split' noEquals'
        have sameName : line.take n = name := by
          rw [← takeWhile_ne_append noEquals' (line.drop (n + 1)), ← split', split,
            takeWhile_ne_append noEquals]
        have sameRest : name ++ 61 :: line.drop (n + 1) = name ++ 61 :: value := by
          rw [← split, ← sameName]
          exact split'.symm
        exact ⟨n, rfl, sameName, (List.cons.inj (List.append_cancel_left sameRest)).2⟩

/-- A line assigns exactly what stands around its first equals sign, if there is something
before it and the line is no comment. -/
theorem assignment_eq_some_iff {line name value : Bytes} :
    assignment line = some (name, value) ↔
      line = name ++ 61 :: value ∧ name ≠ [] ∧ name.head? ≠ some 35 ∧ 61 ∉ name := by
  constructor
  · intro assigns
    unfold assignment at assigns
    split at assigns
    · cases assigns
    · rename_i first
      obtain ⟨noComment, noEquals⟩ := not_or.mp first
      split at assigns
      · rename_i n found
        obtain ⟨rfl, rfl⟩ := Prod.mk.inj (Option.some.inj assigns)
        obtain ⟨split, inside⟩ := find_equals_iff.mp ⟨n, found, rfl, rfl⟩
        have nonempty : line.take n ≠ [] := by
          intro empty
          rw [empty] at split
          rw [split] at noEquals
          exact noEquals rfl
        refine ⟨split, nonempty, ?_, inside⟩
        rw [split, List.head?_append_of_ne_nil _ nonempty] at noComment
        exact noComment
      · cases assigns
  · rintro ⟨split, nonempty, noComment, noEquals⟩
    obtain ⟨n, found, rfl, rfl⟩ := find_equals_iff.mpr ⟨split, noEquals⟩
    have first : line.head? = (line.take n).head? := by
      conv_lhs => rw [split]
      rw [List.head?_append_of_ne_nil _ nonempty]
    have noEqualsFirst : (line.take n).head? ≠ some 61 := by
      intro equals
      exact noEquals (List.mem_of_mem_head? equals)
    rw [assignment, first, if_neg (not_or.mpr ⟨noComment, noEqualsFirst⟩), found]

theorem assignment_of_unassigned {line : Bytes} (unassigned : Unassigned line) :
    assignment line = none := by
  cases assigns : assignment line with
  | none => rfl
  | some pair =>
      obtain ⟨split, -⟩ := assignment_eq_some_iff.mp assigns
      exact absurd (by simp [split]) unassigned.2.2

/-! ## What the code does -/

/-- The variables after a line. -/
inductive LineStep (vars : Bytes → Option Bytes) (line : Bytes) : (Bytes → Option Bytes) → Prop
  | ignored (none : assignment line = none) (other : ¬ Unassigned line) : LineStep vars line vars
  | assigned {name value : Bytes} (assigns : assignment line = some (name, value)) :
      LineStep vars line (Function.update vars name (some value))
  | unassigned (malformed : Unassigned line) :
      LineStep vars line (Function.update vars line (some line))

theorem lookup_setenv {name value : Bytes} (env : ProcessEnv) (nonempty : name ≠ [])
    (noEquals : 61 ∉ name) (nameWhole : 0 ∉ name) (valueWhole : 0 ∉ value) :
    (setenv env name value).lookup = Function.update env.lookup name (some value) := by
  have allowed : ¬ (cStr name = [] ∨ 61 ∈ cStr name) := by
    rw [cStr_eq_self nameWhole]
    exact not_or.mpr ⟨nonempty, noEquals⟩
  rw [setenv, if_neg allowed]
  simp only [cStr_eq_self nameWhole, cStr_eq_self valueWhole]

/-- The loop's body never throws, and it sets a line without an equals sign to itself. -/
theorem lineStep_of_initLine (env : ProcessEnv) {line : Bytes} (noNul : 0 ∉ line) :
    ∃ after, initLine env line = .ok after ∧ LineStep env.lookup line after.lookup := by
  by_cases skipped : line = [] ∨ line.head? = some 35
  · refine ⟨env, if_pos skipped, .ignored ?_ ?_⟩
    · rcases skipped with rfl | comment
      · rfl
      · exact if_pos (Or.inl comment)
    · rintro ⟨nonempty, noComment, -⟩
      rcases skipped with empty | comment
      · exact nonempty empty
      · exact noComment comment
  · obtain ⟨nonempty, noComment⟩ := not_or.mp skipped
    rw [initLine, if_neg skipped]
    cases found : find line 61 0 with
    | none =>
        have absent := find_eq_none found
        refine ⟨setenv env line line, rfl, ?_⟩
        rw [lookup_setenv env nonempty absent noNul noNul]
        exact .unassigned ⟨nonempty, noComment, absent⟩
    | some n =>
        obtain ⟨split, inside⟩ := find_equals_iff.mp ⟨n, found, rfl, rfl⟩
        have bound := (find_bounds found).2
        refine ⟨setenv env (line.take n) (line.drop (n + 1)), ?_, ?_⟩
        · have name := substr_of_le (Nat.zero_le line.length) n
          have value : substrFrom line (n + 1) = .ok (line.drop (n + 1)) :=
            substrFrom_of_le (by omega)
          simp only [name, value]
          rfl
        · have nameWhole : 0 ∉ line.take n := fun nul => noNul (List.mem_of_mem_take nul)
          have valueWhole : 0 ∉ line.drop (n + 1) := fun nul => noNul (List.mem_of_mem_drop nul)
          by_cases empty : line.take n = []
          · -- an empty name is refused by `setenv`
            have first : line.head? = some 61 := by
              rw [split, empty]
              rfl
            have unchanged : setenv env (line.take n) (line.drop (n + 1)) = env := by
              rw [empty]
              exact if_pos (Or.inl rfl)
            rw [unchanged]
            refine .ignored (if_pos (Or.inr first)) ?_
            rintro ⟨-, -, absent⟩
            exact absent (List.mem_of_mem_head? first)
          · rw [lookup_setenv env empty inside nameWhole valueWhole]
            apply LineStep.assigned
            rw [assignment_eq_some_iff]
            refine ⟨split, empty, ?_, inside⟩
            rw [split, List.head?_append_of_ne_nil _ empty] at noComment
            exact noComment

/-! ## The whole file -/

/-- A line without a value that no later line assigns one. -/
def Pending (name : Bytes) (lines : List Bytes) : Prop :=
  ∃ before after, lines = before ++ name :: after ∧ Unassigned name ∧
    ∀ line ∈ after, ∀ value, assignment line ≠ some (name, value)

theorem pending_concat_iff {name line : Bytes} {lines : List Bytes} :
    Pending name (lines ++ [line]) ↔
      name = line ∧ Unassigned name ∨
        Pending name lines ∧ ∀ value, assignment line ≠ some (name, value) := by
  constructor
  · rintro ⟨before, after, split, unassigned, never⟩
    cases after using List.reverseRecOn with
    | nil =>
        obtain ⟨-, last⟩ := List.append_inj' split rfl
        exact Or.inl ⟨(List.singleton_inj.mp last).symm, unassigned⟩
    | append_singleton after last =>
        rw [← List.cons_append, ← List.append_assoc] at split
        obtain ⟨earlier, same⟩ := List.append_inj' split rfl
        obtain rfl := List.singleton_inj.mp same
        obtain ⟨neverBefore, neverLast⟩ := List.forall_mem_append.mp never
        exact Or.inr ⟨⟨before, after, earlier, unassigned, neverBefore⟩,
          List.forall_mem_singleton.mp neverLast⟩
  · rintro (⟨rfl, unassigned⟩ | ⟨⟨before, after, rfl, unassigned, never⟩, neverLast⟩)
    · exact ⟨lines, [], rfl, unassigned, by simp⟩
    · refine ⟨before, after ++ [line], by simp, unassigned, ?_⟩
      exact List.forall_mem_append.mpr ⟨never, List.forall_mem_singleton.mpr neverLast⟩

theorem assigned_concat (vars : Bytes → Option Bytes) (lines : List Bytes) (line : Bytes) :
    assigned vars (lines ++ [line]) =
      match assignment line with
      | some (name, value) => Function.update (assigned vars lines) name (some value)
      | none => assigned vars lines := by
  rw [assigned, List.foldl_append]
  rfl

/-- Lines that never assign a name leave it alone. -/
theorem assigned_of_never {name : Bytes} (vars : Bytes → Option Bytes) (before : List Bytes)
    {after : List Bytes}
    (never : ∀ line ∈ after, ∀ value, assignment line ≠ some (name, value)) :
    assigned vars (before ++ after) name = assigned vars before name := by
  induction after using List.reverseRecOn with
  | nil => rw [List.append_nil]
  | append_singleton after line ih =>
      obtain ⟨neverBefore, neverLast⟩ := List.forall_mem_append.mp never
      rw [← List.append_assoc, assigned_concat, ← ih neverBefore]
      cases assigns : assignment line with
      | none => rfl
      | some pair =>
          have other : name ≠ pair.1 := by
            rintro rfl
            exact List.forall_mem_singleton.mp neverLast pair.2 assigns
          exact Function.update_of_ne other _ _

/-- A pending line is as the lines before it left it. -/
theorem assigned_of_pending {name : Bytes} (vars : Bytes → Option Bytes) (before : List Bytes)
    {after : List Bytes} (unassigned : Unassigned name)
    (never : ∀ line ∈ after, ∀ value, assignment line ≠ some (name, value)) :
    assigned vars (before ++ name :: after) name = assigned vars before name := by
  apply assigned_of_never vars before
  rw [List.forall_mem_cons]
  refine ⟨?_, never⟩
  intro value assigns
  rw [assignment_of_unassigned unassigned] at assigns
  cases assigns

section LineSteps

variable {vars vars' : Bytes → Option Bytes} {line : Bytes} (step : LineStep vars line vars')

include step

theorem LineStep.self (malformed : Unassigned line) : vars' line = some line := by
  cases step with
  | ignored none other => exact absurd malformed other
  | assigned assigns =>
      rw [assignment_of_unassigned malformed] at assigns
      cases assigns
  | unassigned => exact Function.update_self _ _ _

theorem LineStep.value {name value : Bytes} (assigns : assignment line = some (name, value)) :
    vars' name = some value := by
  cases step with
  | ignored none =>
      rw [none] at assigns
      cases assigns
  | assigned here =>
      rw [here] at assigns
      cases assigns
      exact Function.update_self _ _ _
  | unassigned malformed =>
      rw [assignment_of_unassigned malformed] at assigns
      cases assigns

theorem LineStep.other {name : Bytes} (notSelf : ¬ (name = line ∧ Unassigned name))
    (never : ∀ value, assignment line ≠ some (name, value)) : vars' name = vars name := by
  cases step with
  | ignored => rfl
  | @assigned assignedName value assigns =>
      have different : name ≠ assignedName := by
        rintro rfl
        exact never value assigns
      exact Function.update_of_ne different _ _
  | unassigned malformed =>
      have different : name ≠ line := by
        rintro rfl
        exact notSelf ⟨rfl, malformed⟩
      exact Function.update_of_ne different _ _

end LineSteps

/-- What the lines make of a variable: a pending line has set it to itself, and otherwise it
is as the assignments left it. -/
theorem lookup_initLines (env : ProcessEnv) {lines : List Bytes}
    (noNul : ∀ line ∈ lines, 0 ∉ line) :
    ∃ after, lines.foldlM initLine env = .ok after ∧ ∀ name,
      (Pending name lines → after.lookup name = some name) ∧
      (¬ Pending name lines → after.lookup name = assigned env.lookup lines name) := by
  induction lines using List.reverseRecOn with
  | nil =>
      refine ⟨env, rfl, ?_⟩
      intro name
      constructor
      · rintro ⟨before, after, split, -⟩
        simp at split
      · intro _
        rfl
  | append_singleton lines line ih =>
      obtain ⟨noNulBefore, noNulLast⟩ := List.forall_mem_append.mp noNul
      obtain ⟨middle, ran, held⟩ := ih noNulBefore
      obtain ⟨after, stepped, step⟩ :=
        lineStep_of_initLine middle (noNulLast line (List.mem_singleton_self line))
      refine ⟨after, ?_, ?_⟩
      · rw [List.foldlM_append, ran]
        change [line].foldlM initLine middle = _
        rw [List.foldlM_cons, stepped]
        rfl
      · intro name
        rw [pending_concat_iff]
        by_cases self : name = line ∧ Unassigned name
        · obtain ⟨rfl, malformed⟩ := self
          constructor
          · intro _
            exact step.self malformed
          · intro notPending
            exact absurd (Or.inl ⟨rfl, malformed⟩) notPending
        · by_cases assigns : ∃ value, assignment line = some (name, value)
          · obtain ⟨value, assigns⟩ := assigns
            constructor
            · rintro (same | ⟨-, never⟩)
              · exact absurd same self
              · exact absurd assigns (never value)
            · intro _
              rw [step.value assigns, assigned_concat, assigns]
              simp
          · have never : ∀ value, assignment line ≠ some (name, value) := by
              intro value here
              exact assigns ⟨value, here⟩
            rw [step.other self never, assigned_of_never env.lookup lines
              (List.forall_mem_singleton.mpr never)]
            constructor
            · rintro (same | ⟨pending, -⟩)
              · exact absurd same self
              · exact (held name).1 pending
            · intro notPending
              apply (held name).2
              intro pending
              exact notPending (Or.inr ⟨pending, never⟩)

/-- The lines consist of bytes of the file. -/
theorem mem_of_mem_fileLines {content : Bytes} :
    ∀ line ∈ fileLines content, ∀ c ∈ line, c ∈ content := by
  induction content with
  | nil => simp [fileLines]
  | cons c rest ih =>
      rw [fileLines]
      split
      · intro line member
        rcases List.mem_cons.mp member with rfl | later
        · simp
        · exact fun d inside => List.mem_cons_of_mem c (ih line later d inside)
      · split
        · simp
        · rename_i first lines split
          rw [split] at ih
          intro line member
          rcases List.mem_cons.mp member with rfl | later
          · intro d inside
            rcases List.mem_cons.mp inside with rfl | further
            · exact List.mem_cons_self
            · exact List.mem_cons_of_mem c (ih first List.mem_cons_self d further)
          · exact fun d inside =>
              List.mem_cons_of_mem c (ih line (List.mem_cons_of_mem first later) d inside)

/-- The file is read exactly if and only if every line that is neither empty nor a comment
and has no equals sign is the name of a variable that a later line assigns, or whose value
by the lines before is already that text. -/
theorem read_exactly_iff (env : ProcessEnv) {content : Bytes} (noNul : 0 ∉ content) :
    ReadExactly env content ↔
      ∀ before line after, fileLines content = before ++ line :: after → Unassigned line →
        (∃ later ∈ after, ∃ value, assignment later = some (line, value)) ∨
          assigned env.lookup before line = some line := by
  have noNulLines : ∀ line ∈ fileLines content, 0 ∉ line := by
    intro line member nul
    exact noNul (mem_of_mem_fileLines line member 0 nul)
  obtain ⟨vars, ran, held⟩ := lookup_initLines env noNulLines
  constructor
  · rintro ⟨vars', ran', same, -⟩ before line after split unassigned
    have started : initEnv (some content) env = .ok vars := ran
    rw [started] at ran'
    cases ran'
    by_cases later : ∃ later ∈ after, ∃ value, assignment later = some (line, value)
    · exact Or.inl later
    · have never : ∀ other ∈ after, ∀ value, assignment other ≠ some (line, value) := by
        intro other member value assigns
        exact later ⟨other, member, value, assigns⟩
      have self := (held line).1 ⟨before, after, split, unassigned, never⟩
      rw [same, split, assigned_of_pending env.lookup before unassigned never] at self
      exact Or.inr self
  · intro harmless
    have same : vars.lookup = assigned env.lookup (fileLines content) := by
      funext name
      by_cases pending : Pending name (fileLines content)
      · rw [(held name).1 pending]
        obtain ⟨before, after, split, unassigned, never⟩ := pending
        rcases harmless before name after split unassigned with ⟨later, member, value, assigns⟩ |
          already
        · exact absurd assigns (never later member value)
        · rw [split, assigned_of_pending env.lookup before unassigned never, already]
      · exact (held name).2 pending
    refine ⟨vars, ran, same, ?_⟩
    intro key default
    rw [getEnv, same]

/-- No variables. -/
def emptyEnv : ProcessEnv where
  lookup _ := none
  isCString name value held := by cases held

/-- A file with a comment, an empty line and two assignments of one name. -/
def sampleFile : Bytes :=
  ascii "# local\n\nPORT=80\nPORT=8080=x\n"

theorem read_exactly_sampleFile : ReadExactly emptyEnv sampleFile := by
  apply (read_exactly_iff emptyEnv (by decide +kernel)).mpr
  intro before line after split unassigned
  have member : line ∈ fileLines sampleFile := by simp [split]
  have lines : fileLines sampleFile =
      [ascii "# local", [], ascii "PORT=80", ascii "PORT=8080=x"] := by decide +kernel
  rw [lines] at member
  exfalso
  obtain ⟨nonempty, noComment, noEquals⟩ := unassigned
  simp only [List.mem_cons, List.not_mem_nil, or_false] at member
  rcases member with rfl | rfl | rfl | rfl
  · exact noComment (by decide)
  · exact nonempty rfl
  · exact noEquals (by decide)
  · exact noEquals (by decide)

/-- A line without an equals sign. -/
def bareLine : Bytes :=
  ascii "DEBUG"

/-- The variable of that name is set to its own name, where the file assigns it nothing. -/
theorem bareLine_is_set :
    (initEnv (some bareLine) emptyEnv).map (fun after => getEnv after bareLine (ascii "off")) =
        .ok bareLine ∧
      assigned emptyEnv.lookup (fileLines bareLine) bareLine = none ∧
      ¬ ReadExactly emptyEnv bareLine := by
  have wrong : (initEnv (some bareLine) emptyEnv).map
      (fun after => getEnv after bareLine (ascii "off")) = .ok bareLine := by
    rfl
  have nothing : assigned emptyEnv.lookup (fileLines bareLine) bareLine = none := by
    decide +kernel
  refine ⟨wrong, nothing, ?_⟩
  rintro ⟨after, ran, -, answers⟩
  rw [ran] at wrong
  have answer := answers bareLine (ascii "off")
  have same : cStr bareLine = bareLine := by decide +kernel
  rw [same, nothing] at answer
  have texts : getEnv after bareLine (ascii "off") = bareLine := Except.ok.inj wrong
  rw [answer] at texts
  exact absurd texts (by decide +kernel)

end CleanArchitecture.Env
