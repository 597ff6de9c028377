import CleanArchitecture.RequestParserGrammar
import Mathlib.Data.List.Induction

/-!
# The invariant of a parser that is never stopped

A parser may be called again after it has answered `good` or `bad`.  Every byte extends
at most one field of the request, by a byte of that field's class, and a rejected byte
changes nothing.  So the fields are well formed after any calls on any chunks, and in the
states of a header line there is a header to extend.
-/

namespace CleanArchitecture.RequestParser

open RequestGrammar ResultType State

/-! ## What one byte does -/

/-- The states inside a header line and just after its carriage return. -/
def InHeaderLine : State → Prop
  | headerLws | headerName | spaceBeforeHeaderValue | headerValue | expectingNewline2 => True
  | _ => False

/-- The outcomes of a byte. -/
inductive Effect (state : State) (req : Request) (b : UInt8) :
    ResultType × State × Request → Prop
  | rejected : Effect state req b (bad, state, req)
  | completed (ended : state = expectingNewline3) (lf : b = 10) :
      Effect state req b (good, state, req)
  | moved {next : State} (begun : state ≠ methodStart) (stays : next ≠ methodStart)
      (line : InHeaderLine next → InHeaderLine state ∨ req.headers ≠ []) :
      Effect state req b (indeterminate, next, req)
  | methodPushed (tchar : Tchar b) :
      Effect state req b (indeterminate, method, { req with method := req.method ++ [b] })
  | uriPushed (begun : state = uri) (notSpace : b ≠ 32) (plain : ¬ Ctl b) :
      Effect state req b (indeterminate, uri, { req with uri := req.uri ++ [b] })
  | versionStarted (begun : state = httpVersionSlash) :
      Effect state req b (indeterminate, httpVersionMajorStart,
        { req with httpVersionMajor := 0, httpVersionMinor := 0 })
  | majorPushed (begun : state = httpVersionMajorStart ∨ state = httpVersionMajor)
      (digit : Digit b) :
      Effect state req b (indeterminate, httpVersionMajor,
        { req with httpVersionMajor := versionDigit req.httpVersionMajor b })
  | minorPushed (begun : state = httpVersionMinorStart ∨ state = httpVersionMinor)
      (digit : Digit b) :
      Effect state req b (indeterminate, httpVersionMinor,
        { req with httpVersionMinor := versionDigit req.httpVersionMinor b })
  | nameStarted (begun : state = headerLineStart) (tchar : Tchar b) :
      Effect state req b (indeterminate, headerName,
        { req with headers := pushName (req.headers ++ [{}]) b })
  | namePushed (begun : state = headerName) (tchar : Tchar b) :
      Effect state req b
        (indeterminate, headerName, { req with headers := pushName req.headers b })
  | valuePushed (begun : state = headerLws ∨ state = headerValue) (plain : ¬ Ctl b) :
      Effect state req b
        (indeterminate, headerValue, { req with headers := pushValue req.headers b })

section Answers

variable {state : State} {req : Request} {b : UInt8} {p : Prop} [Decidable p]
  {answer other : ResultType × State × Request}

theorem effect_branch (first : p → Effect state req b answer)
    (second : ¬ p → Effect state req b other) :
    Effect state req b (if p then answer else other) := by
  by_cases holds : p
  · rw [if_pos holds]
    exact first holds
  · rw [if_neg holds]
    exact second holds

/-- A byte that has to be a certain one. -/
theorem effect_guard (step : p → Effect state req b answer) :
    Effect state req b (if p then answer else (bad, state, req)) :=
  effect_branch step fun _ => .rejected

/-- A byte that must not be of a certain class. -/
theorem effect_reject (step : ¬ p → Effect state req b answer) :
    Effect state req b (if p then (bad, state, req) else answer) :=
  effect_branch (fun _ => .rejected) step

end Answers

/-- Every byte in every state has one of the outcomes. -/
theorem effect_consume (state : State) (req : Request) (b : UInt8) :
    Effect state req b (consume state req b) := by
  have moves : ∀ next : State, state ≠ methodStart → next ≠ methodStart → ¬ InHeaderLine next →
      Effect state req b (indeterminate, next, req) := by
    intro next begun stays outside
    exact .moved begun stays fun line => absurd line outside
  have movesInside : ∀ next : State, InHeaderLine state → state ≠ methodStart →
      next ≠ methodStart → Effect state req b (indeterminate, next, req) := by
    intro next inside begun stays
    exact .moved begun stays fun _ => Or.inl inside
  cases state <;> simp only [consume]
  case methodStart =>
    apply effect_reject
    intro isToken
    exact .methodPushed (tchar_of_not isToken)
  case method =>
    apply effect_branch
    · intro _
      exact moves uri (by decide) (by decide) id
    · intro _
      apply effect_reject
      intro isToken
      exact .methodPushed (tchar_of_not isToken)
  case uri =>
    apply effect_branch
    · intro _
      exact moves httpVersionH (by decide) (by decide) id
    · intro notSpace
      apply effect_reject
      intro notCtl
      exact .uriPushed rfl notSpace (plain_of_not notCtl)
  case httpVersionH | httpVersionT1 | httpVersionT2 | httpVersionP | expectingNewline1 =>
    apply effect_guard
    intro _
    exact moves _ (by decide) (by decide) id
  case httpVersionSlash =>
    apply effect_guard
    intro _
    exact .versionStarted rfl
  case httpVersionMajorStart =>
    apply effect_guard
    intro isDig
    exact .majorPushed (.inl rfl) ((isDigit_eq_true_iff b).mp isDig)
  case httpVersionMajor =>
    apply effect_branch
    · intro _
      exact moves httpVersionMinorStart (by decide) (by decide) id
    · intro _
      apply effect_guard
      intro isDig
      exact .majorPushed (.inr rfl) ((isDigit_eq_true_iff b).mp isDig)
  case httpVersionMinorStart =>
    apply effect_guard
    intro isDig
    exact .minorPushed (.inl rfl) ((isDigit_eq_true_iff b).mp isDig)
  case httpVersionMinor =>
    apply effect_branch
    · intro _
      exact moves expectingNewline1 (by decide) (by decide) id
    · intro _
      apply effect_guard
      intro isDig
      exact .minorPushed (.inr rfl) ((isDigit_eq_true_iff b).mp isDig)
  case headerLineStart =>
    apply effect_branch
    · intro _
      exact moves expectingNewline3 (by decide) (by decide) id
    · intro _
      apply effect_branch
      · -- the folding branch is guarded by the headers
        intro folding
        have headers : req.headers ≠ [] := by
          intro none
          simp [none] at folding
        exact .moved (by decide) (by decide) fun _ => Or.inr headers
      · intro _
        apply effect_reject
        intro isToken
        exact .nameStarted rfl (tchar_of_not isToken)
  case headerLws =>
    apply effect_branch
    · intro _
      exact movesInside expectingNewline2 trivial (by decide) (by decide)
    · intro _
      apply effect_branch
      · intro _
        exact movesInside headerLws trivial (by decide) (by decide)
      · intro _
        apply effect_reject
        intro notCtl
        exact .valuePushed (.inl rfl) (plain_of_not notCtl)
  case headerName =>
    apply effect_branch
    · intro _
      exact movesInside spaceBeforeHeaderValue trivial (by decide) (by decide)
    · intro _
      apply effect_reject
      intro isToken
      exact .namePushed rfl (tchar_of_not isToken)
  case spaceBeforeHeaderValue =>
    apply effect_guard
    intro _
    exact movesInside headerValue trivial (by decide) (by decide)
  case headerValue =>
    apply effect_branch
    · intro _
      exact movesInside expectingNewline2 trivial (by decide) (by decide)
    · intro _
      apply effect_reject
      intro notCtl
      exact .valuePushed (.inr rfl) (plain_of_not notCtl)
  case expectingNewline2 =>
    apply effect_guard
    intro _
    exact moves headerLineStart (by decide) (by decide) id
  case expectingNewline3 =>
    apply effect_guard
    intro lf
    exact .completed rfl lf

/-- A byte answered `bad` changes nothing. -/
theorem consume_bad {state : State} {req : Request} {b : UInt8} {next : State × Request}
    (step : consume state req b = (bad, next)) : next = (state, req) := by
  have effect := effect_consume state req b
  rw [step] at effect
  cases effect
  rfl

/-! ## The invariant -/

/-- The fields of the request in every state of the parser. -/
structure WellFormed (state : State) (req : Request) : Prop where
  method : ∀ b ∈ req.method, Tchar b
  begun : state ≠ methodStart → req.method ≠ []
  uri : UriText req.uri
  names : ∀ h ∈ req.headers, Token h.name
  values : ∀ h ∈ req.headers, Text h.value
  line : InHeaderLine state → req.headers ≠ []

theorem wellFormed_fresh : WellFormed methodStart {} where
  method := by simp
  begun := by simp
  uri := by simp [UriText]
  names := by simp
  values := by simp
  line := False.elim

theorem forall_mem_concat {p : Header → Prop} {hs : List Header} {last : Header} :
    (∀ h ∈ hs ++ [last], p h) ↔ (∀ h ∈ hs, p h) ∧ p last := by
  rw [List.forall_mem_append, List.forall_mem_singleton]

section Pushes

variable {state : State} {req : Request} {b : UInt8} (wellFormed : WellFormed state req)

include wellFormed

/-- The version numbers do not matter. -/
theorem WellFormed.withVersion (major minor : Int) {next : State} (begun : state ≠ methodStart)
    (outside : ¬ InHeaderLine next) :
    WellFormed next { req with httpVersionMajor := major, httpVersionMinor := minor } where
  method := wellFormed.method
  begun _ := wellFormed.begun begun
  uri := wellFormed.uri
  names := wellFormed.names
  values := wellFormed.values
  line inside := absurd inside outside

/-- The headers may be replaced by well formed ones. -/
theorem WellFormed.withHeaders {before : List Header} {last : Header} {next : State}
    (begun : state ≠ methodStart) (names : ∀ h ∈ before, Token h.name)
    (values : ∀ h ∈ before, Text h.value) (name : Token last.name) (value : Text last.value) :
    WellFormed next { req with headers := before ++ [last] } where
  method := wellFormed.method
  begun _ := wellFormed.begun begun
  uri := wellFormed.uri
  names := forall_mem_concat.mpr ⟨names, name⟩
  values := forall_mem_concat.mpr ⟨values, value⟩
  line _ := by simp

/-- In a header line there is a last header, and it is well formed. -/
theorem WellFormed.exists_last (inside : InHeaderLine state) :
    ∃ before last, req.headers = before ++ [last] ∧
      (∀ h ∈ before, Token h.name) ∧ (∀ h ∈ before, Text h.value) ∧
      Token last.name ∧ Text last.value := by
  have split := List.dropLast_append_getLast (wellFormed.line inside)
  have names := wellFormed.names
  have values := wellFormed.values
  rw [← split, forall_mem_concat] at names values
  exact ⟨_, _, split.symm, names.1, values.1, names.2, values.2⟩

theorem WellFormed.pushMethod (tchar : Tchar b) :
    WellFormed .method { req with method := req.method ++ [b] } where
  method := List.forall_mem_append.mpr
    ⟨wellFormed.method, List.forall_mem_singleton.mpr tchar⟩
  begun _ := by simp
  uri := wellFormed.uri
  names := wellFormed.names
  values := wellFormed.values
  line := False.elim

theorem WellFormed.pushUri (begun : state ≠ methodStart) (notSpace : b ≠ 32) (plain : ¬ Ctl b) :
    WellFormed .uri { req with uri := req.uri ++ [b] } where
  method := wellFormed.method
  begun _ := wellFormed.begun begun
  uri := uriText_push wellFormed.uri notSpace plain
  names := wellFormed.names
  values := wellFormed.values
  line := False.elim

theorem WellFormed.startName (begun : state ≠ methodStart) (tchar : Tchar b) :
    WellFormed headerName
      { req with headers := RequestParser.pushName (req.headers ++ [{}]) b } := by
  rw [pushName_concat]
  have name : Token [b] := token_push (w := []) (by simp) tchar
  exact wellFormed.withHeaders begun wellFormed.names wellFormed.values name text_nil

theorem WellFormed.pushName (begun : state ≠ methodStart) (inside : InHeaderLine state)
    (tchar : Tchar b) :
    WellFormed headerName { req with headers := RequestParser.pushName req.headers b } := by
  obtain ⟨before, last, split, names, values, name, value⟩ := wellFormed.exists_last inside
  rw [split, pushName_concat]
  exact wellFormed.withHeaders begun names values (token_push name.2 tchar) value

theorem WellFormed.pushValue (begun : state ≠ methodStart) (inside : InHeaderLine state)
    (plain : ¬ Ctl b) :
    WellFormed headerValue { req with headers := RequestParser.pushValue req.headers b } := by
  obtain ⟨before, last, split, names, values, name, value⟩ := wellFormed.exists_last inside
  rw [split, pushValue_concat]
  have longer : Text (last.value ++ [b]) :=
    List.forall_mem_append.mpr ⟨value, List.forall_mem_singleton.mpr plain⟩
  exact wellFormed.withHeaders begun names values name longer

end Pushes

/-- Every byte in every state keeps the fields well formed. -/
theorem wellFormed_step {state : State} {req : Request} (wellFormed : WellFormed state req)
    (b : UInt8) : WellFormed (consume state req b).2.1 (consume state req b).2.2 := by
  have effect := effect_consume state req b
  rcases answered : consume state req b with ⟨verdict, next, req'⟩
  rw [answered] at effect
  cases effect with
  | rejected => exact wellFormed
  | completed => exact wellFormed
  | moved begun stays line =>
      exact { wellFormed with
        begun := fun _ => wellFormed.begun begun
        line := fun inside => (line inside).elim wellFormed.line id }
  | methodPushed tchar => exact wellFormed.pushMethod tchar
  | uriPushed begun notSpace plain =>
      exact wellFormed.pushUri (by simp [begun]) notSpace plain
  | versionStarted begun => exact wellFormed.withVersion 0 0 (by simp [begun]) id
  | majorPushed begun =>
      apply wellFormed.withVersion _ req.httpVersionMinor _ id
      rcases begun with rfl | rfl <;> decide
  | minorPushed begun =>
      apply wellFormed.withVersion req.httpVersionMajor _ _ id
      rcases begun with rfl | rfl <;> decide
  | nameStarted begun tchar => exact wellFormed.startName (by simp [begun]) tchar
  | namePushed begun tchar =>
      subst begun
      exact wellFormed.pushName (by decide) trivial tchar
  | valuePushed begun plain =>
      rcases begun with rfl | rfl
      · exact wellFormed.pushValue (by decide) trivial plain
      · exact wellFormed.pushValue (by decide) trivial plain

/-! ## Calls -/

/-- The parser and its request after calls of `parse` on these chunks, whatever they
answered. -/
def parseAll (config : State × Request) (chunks : List Bytes) : State × Request :=
  chunks.foldl (fun config chunk => (parse config.1 config.2 chunk).state) config

theorem wellFormed_parse {state : State} {req : Request} (wellFormed : WellFormed state req)
    (chunk : Bytes) :
    WellFormed (parse state req chunk).state.1 (parse state req chunk).state.2 := by
  apply Scanner.scan_invariant (fun config : State × Request => WellFormed config.1 config.2) _
    wellFormed
  intro config b kept
  exact wellFormed_step kept b

theorem parseAll_concat (config : State × Request) (chunks : List Bytes) (chunk : Bytes) :
    parseAll config (chunks ++ [chunk]) =
      (parse (parseAll config chunks).1 (parseAll config chunks).2 chunk).state := by
  simp [parseAll]

theorem wellFormed_parseAll (chunks : List Bytes) :
    WellFormed (parseAll (methodStart, {}) chunks).1 (parseAll (methodStart, {}) chunks).2 := by
  induction chunks using List.reverseRecOn with
  | nil => exact wellFormed_fresh
  | append_singleton chunks chunk ih =>
      rw [parseAll_concat]
      exact wellFormed_parse ih chunk

/-- The states inside a call are those after a call on the bytes consumed so far. -/
theorem parseAll_of_advance {config next : State × Request} {chunks : List Bytes} {consumed : Bytes}
    (advanced : scanner.advance (parseAll config chunks) consumed = some next) :
    parseAll config (chunks ++ [consumed]) = next := by
  rw [parseAll_concat]
  exact congrArg ScanResult.state (Scanner.scan_of_advance advanced)

/-- After any calls on any chunks, and after every byte of the next one, the fields of the
request are well formed, with a header in the states of a header line, and a byte that is
answered `bad` changes neither the state nor the request. -/
theorem parser_invariant (chunks : List Bytes) :
    WellFormed (parseAll (methodStart, {}) chunks).1 (parseAll (methodStart, {}) chunks).2 ∧
    (∀ consumed state req, scanner.advance (parseAll (methodStart, {}) chunks) consumed =
      some (state, req) →
        WellFormed state req ∧
        ∀ b next, consume state req b = (bad, next) → next = (state, req)) := by
  refine ⟨wellFormed_parseAll chunks, ?_⟩
  intro consumed state req advanced
  constructor
  · have wellFormed := wellFormed_parseAll (chunks ++ [consumed])
    rwa [parseAll_of_advance advanced] at wellFormed
  · intro b next step
    exact consume_bad step

end CleanArchitecture.RequestParser
