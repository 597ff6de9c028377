import CleanArchitecture.RequestGrammar
import Mathlib.Data.List.ModifyLast

/-!
# The parser accepts exactly the grammar

Soundness comes from an invariant that says, for every parser state, which part
of a request head has been consumed and which request it has been turned into.
Completeness follows the derivation of a request head, and every state still has
an accepted continuation, so a scan is idle exactly on proper prefixes of heads.
-/

namespace CleanArchitecture.RequestParser

open RequestGrammar ResultType State

/-! ## Character classes -/

private theorem forall_byte {p : UInt8 → Prop} (all : ∀ n : Fin 256, p (UInt8.ofNat n.val))
    (b : UInt8) : p b := by
  have value := all ⟨b.toNat, b.toNat_lt⟩
  rwa [UInt8.ofNat_toNat] at value

theorem notToken_eq_false_iff (b : UInt8) : notToken b = false ↔ Tchar b := by
  apply forall_byte (p := fun b => notToken b = false ↔ Tchar b)
  decide +kernel

theorem isCtl_eq_true_iff (b : UInt8) : isCtl (charToInt b) = true ↔ Ctl b := by
  apply forall_byte (p := fun b => isCtl (charToInt b) = true ↔ Ctl b)
  decide +kernel

theorem isDigit_eq_true_iff (b : UInt8) : isDigit (charToInt b) = true ↔ Digit b := by
  apply forall_byte (p := fun b => isDigit (charToInt b) = true ↔ Digit b)
  decide +kernel

theorem ctl_ne_of_plain {b c : UInt8} (plain : ¬ Ctl b) (ctl : Ctl c) : b ≠ c := by
  rintro rfl
  exact plain ctl

theorem tchar_ne {b c : UInt8} (tchar : Tchar b) (other : ¬ Tchar c) : b ≠ c := by
  rintro rfl
  exact other tchar

theorem isCtl_of_plain {b : UInt8} (plain : ¬ Ctl b) : isCtl (charToInt b) = false := by
  rw [← Bool.not_eq_true, isCtl_eq_true_iff]
  exact plain

/-! ## What the parser does on the pieces of a head -/

theorem advance_byte {state next : State} {req req' : Request} {b : UInt8}
    (consumed : consume state req b = (indeterminate, next, req')) :
    scanner.advance (state, req) [b] = some (next, req') :=
  Scanner.advance_singleton consumed rfl

/-- The request after a method and a uri. -/
def targetRequest (m u : Bytes) : Request :=
  { method := m, uri := u }

def versionNumber (digits : Bytes) : Int :=
  digits.foldl versionDigit 0

/-- The request after a request line. -/
def lineRequest (line : RequestLine) : Request :=
  { targetRequest line.method line.uri with
    httpVersionMajor := versionNumber line.major
    httpVersionMinor := versionNumber line.minor }

/-- The request after a request line and some header fields. -/
def headRequest (line : RequestLine) (hs : List Header) : Request :=
  { lineRequest line with headers := hs }

theorem versionNumber_push (digits : Bytes) (b : UInt8) :
    versionNumber (digits ++ [b]) = versionDigit (versionNumber digits) b := by
  simp [versionNumber]

theorem pushName_concat (hs : List Header) (h : Header) (b : UInt8) :
    pushName (hs ++ [h]) b = hs ++ [{ h with name := h.name ++ [b] }] := by
  simp [pushName, List.modifyLast_concat]

theorem pushValue_concat (hs : List Header) (h : Header) (b : UInt8) :
    pushValue (hs ++ [h]) b = hs ++ [{ h with value := h.value ++ [b] }] := by
  simp [pushValue, List.modifyLast_concat]

/-- Bytes that only extend one field of the request are consumed one after the
other. -/
theorem advance_push (f : Bytes → State × Request) (allowed : UInt8 → Prop)
    (extends_by : ∀ w b, allowed b → consume (f w).1 (f w).2 b = (indeterminate, f (w ++ [b])))
    (w : Bytes) {bs : Bytes} (all : ∀ b ∈ bs, allowed b) :
    scanner.advance (f w) bs = some (f (w ++ bs)) := by
  apply Scanner.advance_accumulate f allowed _ w all
  intro v b ok
  exact ⟨indeterminate, extends_by v b ok, rfl⟩

theorem advance_method {m : Bytes} (token : Token m) :
    scanner.advance (methodStart, {}) m = some (method, { method := m }) := by
  obtain ⟨nonempty, all⟩ := token
  obtain ⟨b, rest, rfl⟩ := List.exists_cons_of_ne_nil nonempty
  have first : scanner.advance (methodStart, {}) [b] = some (method, { method := [b] }) := by
    apply advance_byte
    have isToken := (notToken_eq_false_iff b).mpr (all b (by simp))
    simp [consume, isToken]
  refine (Scanner.advance_append_of first rest).trans ?_
  apply advance_push (fun w => (method, { method := w })) Tchar _ [b]
    (fun c member => all c (List.mem_cons_of_mem b member))
  intro w c tchar
  have isToken := (notToken_eq_false_iff c).mpr tchar
  have notSpace : c ≠ 32 := tchar_ne tchar (by decide)
  simp [consume, isToken, notSpace]

theorem advance_uri (m : Bytes) {u : Bytes} (text : UriText u) :
    scanner.advance (uri, { method := m }) u = some (uri, targetRequest m u) := by
  apply advance_push (fun w => (uri, targetRequest m w)) (fun b => b ≠ 32 ∧ ¬ Ctl b) _ [] text
  rintro w b ⟨notSpace, plain⟩
  simp [consume, notSpace, isCtl_of_plain plain, targetRequest]

theorem advance_http (req : Request) :
    scanner.advance (httpVersionH, req) (ascii "HTTP/") =
      some (httpVersionMajorStart, { req with httpVersionMajor := 0, httpVersionMinor := 0 }) :=
  rfl

/-- The digits of a version number: the first in the start state, the others in
the state it leads to. -/
theorem advance_digits (start running : State) (f : Bytes → Request) {d : Bytes}
    (digits : Digits d)
    (first : ∀ b, Digit b → consume start (f []) b = (indeterminate, running, f [b]))
    (more : ∀ w b, Digit b → consume running (f w) b = (indeterminate, running, f (w ++ [b]))) :
    scanner.advance (start, f []) d = some (running, f d) := by
  obtain ⟨nonempty, all⟩ := digits
  obtain ⟨b, rest, rfl⟩ := List.exists_cons_of_ne_nil nonempty
  have head := advance_byte (first b (all b (by simp)))
  refine (Scanner.advance_append_of head rest).trans ?_
  exact advance_push (fun w => (running, f w)) Digit more [b]
    (fun c member => all c (List.mem_cons_of_mem b member))

theorem digit_ne {b c : UInt8} (digit : Digit b) (other : ¬ Digit c) : b ≠ c := by
  rintro rfl
  exact other digit

theorem advance_major (m u : Bytes) {d : Bytes} (digits : Digits d) :
    scanner.advance (httpVersionMajorStart, targetRequest m u) d =
      some (httpVersionMajor,
        { targetRequest m u with httpVersionMajor := versionNumber d }) := by
  apply advance_digits _ _ (fun w => { targetRequest m u with httpVersionMajor := versionNumber w })
    digits
  · intro b digit
    have isDig := (isDigit_eq_true_iff b).mpr digit
    simp [consume, isDig, versionNumber]
  · intro w b digit
    have isDig := (isDigit_eq_true_iff b).mpr digit
    have notDot : b ≠ 46 := digit_ne digit (by decide)
    simp [consume, isDig, notDot, versionNumber_push]

theorem advance_minor (m u : Bytes) (major : Int) {d : Bytes} (digits : Digits d) :
    scanner.advance
        (httpVersionMinorStart, { targetRequest m u with httpVersionMajor := major }) d =
      some (httpVersionMinor,
        { targetRequest m u with
          httpVersionMajor := major
          httpVersionMinor := versionNumber d }) := by
  apply advance_digits _ _
    (fun w => { targetRequest m u with
      httpVersionMajor := major
      httpVersionMinor := versionNumber w }) digits
  · intro b digit
    have isDig := (isDigit_eq_true_iff b).mpr digit
    simp [consume, isDig, versionNumber]
  · intro w b digit
    have isDig := (isDigit_eq_true_iff b).mpr digit
    have notCr : b ≠ 13 := digit_ne digit (by decide)
    simp [consume, isDig, notCr, versionNumber_push]

/-- The request line up to its version. -/
theorem advance_target {m u : Bytes} (token : Token m) (text : UriText u) :
    scanner.advance (methodStart, {}) (m ++ [32] ++ u ++ [32] ++ ascii "HTTP/") =
      some (httpVersionMajorStart, targetRequest m u) := by
  have afterMethod := advance_method token
  have afterSpace : scanner.advance (method, { method := m }) [32] =
      some (uri, { method := m }) := rfl
  have afterUri := advance_uri m text
  have afterTarget : scanner.advance (uri, targetRequest m u) [32] =
      some (httpVersionH, targetRequest m u) := rfl
  have toTarget := Scanner.advance_trans
    (Scanner.advance_trans (Scanner.advance_trans afterMethod afterSpace) afterUri) afterTarget
  exact Scanner.advance_trans toTarget (advance_http (targetRequest m u))

theorem advance_line (line : RequestLine) :
    scanner.advance (methodStart, {}) line.text = some (headerLineStart, lineRequest line) := by
  have toVersion := advance_target line.method_token line.uri_text
  have afterMajor := advance_major line.method line.uri line.major_digits
  have afterDot : ∀ req, scanner.advance (httpVersionMajor, req) [46] =
      some (httpVersionMinorStart, req) := fun _ => rfl
  have afterMinor := advance_minor line.method line.uri (versionNumber line.major)
    line.minor_digits
  have afterCrlf : ∀ req, scanner.advance (httpVersionMinor, req) crlf =
      some (headerLineStart, req) := fun _ => rfl
  have toMajor := Scanner.advance_trans toVersion afterMajor
  have toMinor := Scanner.advance_trans (Scanner.advance_trans toMajor (afterDot _)) afterMinor
  exact Scanner.advance_trans toMinor (afterCrlf _)

section Fields

variable (line : RequestLine) (hs : List Header)

theorem advance_name {n : Bytes} (token : Token n) :
    scanner.advance (headerLineStart, headRequest line hs) n =
      some (headerName, headRequest line (hs ++ [⟨n, []⟩])) := by
  obtain ⟨nonempty, all⟩ := token
  obtain ⟨b, rest, rfl⟩ := List.exists_cons_of_ne_nil nonempty
  have tchar : Tchar b := all b (by simp)
  have first : scanner.advance (headerLineStart, headRequest line hs) [b] =
      some (headerName, headRequest line (hs ++ [⟨[b], []⟩])) := by
    apply advance_byte
    have isToken := (notToken_eq_false_iff b).mpr tchar
    have notCr : b ≠ 13 := tchar_ne tchar (by decide)
    have notSpace : b ≠ 32 := tchar_ne tchar (by decide)
    have notTab : b ≠ 9 := tchar_ne tchar (by decide)
    simp [consume, isToken, notCr, notSpace, notTab, headRequest, pushName_concat]
  refine (Scanner.advance_append_of first rest).trans ?_
  apply advance_push (fun w => (headerName, headRequest line (hs ++ [(⟨w, []⟩ : Header)]))) Tchar _ [b]
    (fun c member => all c (List.mem_cons_of_mem b member))
  intro w c tchar
  have isToken := (notToken_eq_false_iff c).mpr tchar
  have notColon : c ≠ 58 := tchar_ne tchar (by decide)
  simp [consume, isToken, notColon, headRequest, pushName_concat]

theorem advance_value (h : Header) {text : Bytes} (plain : Text text) :
    scanner.advance (headerValue, headRequest line (hs ++ [h])) text =
      some (headerValue, headRequest line (hs ++ [{ h with value := h.value ++ text }])) := by
  have start : headRequest line (hs ++ [h]) =
      headRequest line (hs ++ [{ h with value := h.value ++ [] }]) := by simp
  rw [start]
  apply advance_push
    (fun w => (headerValue, headRequest line (hs ++ [({ h with value := h.value ++ w } : Header)])))
    (fun b => ¬ Ctl b) _ [] plain
  intro w b ok
  have notCr : b ≠ 13 := ctl_ne_of_plain ok (by decide)
  simp [consume, isCtl_of_plain ok, notCr, headRequest, pushValue_concat]

/-- Leading blanks of a continuation line are skipped. -/
theorem advance_lws (h : Header) {lws : Bytes} (nonempty : lws ≠ [])
    (blanks : ∀ b ∈ lws, Blank b) :
    scanner.advance (headerLineStart, headRequest line (hs ++ [h])) lws =
      some (headerLws, headRequest line (hs ++ [h])) := by
  obtain ⟨b, rest, rfl⟩ := List.exists_cons_of_ne_nil nonempty
  have first : scanner.advance (headerLineStart, headRequest line (hs ++ [h])) [b] =
      some (headerLws, headRequest line (hs ++ [h])) := by
    apply advance_byte
    rcases blanks b (by simp) with rfl | rfl <;> simp [consume, headRequest]
  refine (Scanner.advance_append_of first rest).trans ?_
  apply advance_push (fun _ => (headerLws, headRequest line (hs ++ [h]))) Blank _ []
    (fun c member => blanks c (List.mem_cons_of_mem b member))
  intro w c blank
  rcases blank with rfl | rfl <;> simp [consume]

/-- A continuation text and the carriage return after it. -/
theorem advance_folded (h : Header) {text : Bytes} (folded : FoldedText text) :
    scanner.advance (headerLws, headRequest line (hs ++ [h])) (text ++ [13]) =
      some (expectingNewline2,
        headRequest line (hs ++ [{ h with value := h.value ++ text }])) := by
  rcases folded with rfl | ⟨b, rest, rfl, plain, notSpace, text⟩
  · simp only [List.append_nil]
    rfl
  · have first : scanner.advance (headerLws, headRequest line (hs ++ [h])) [b] =
        some (headerValue, headRequest line (hs ++ [{ h with value := h.value ++ [b] }])) := by
      apply advance_byte
      have notCr : b ≠ 13 := ctl_ne_of_plain plain (by decide)
      have notTab : b ≠ 9 := ctl_ne_of_plain plain (by decide)
      simp [consume, notCr, notTab, notSpace, isCtl_of_plain plain, headRequest, pushValue_concat]
    have rest_eq := advance_value line hs { h with value := h.value ++ [b] } text
    have finish : ∀ req, scanner.advance (headerValue, req) [13] =
        some (expectingNewline2, req) := fun _ => rfl
    calc
      scanner.advance (headerLws, headRequest line (hs ++ [h])) ([b] ++ rest ++ [13]) =
          scanner.advance (headerValue,
            headRequest line (hs ++ [{ h with value := h.value ++ [b] ++ rest }])) [13] := by
        rw [Scanner.advance_append, Scanner.advance_append_of first, rest_eq, Option.bind_some]
      _ = _ := by
        rw [finish, List.append_assoc]
        rfl

theorem advance_field {w : Bytes} {h : Header} (field : FieldText w h) :
    scanner.advance (headerLineStart, headRequest line hs) (w ++ [13]) =
      some (expectingNewline2, headRequest line (hs ++ [h])) := by
  induction field with
  | @first name value token text =>
      have afterName := advance_name line hs token
      have afterColon : ∀ req, scanner.advance (headerName, req) [58, 32] =
          some (headerValue, req) := fun _ => rfl
      have afterValue := advance_value line hs ⟨name, []⟩ text
      have afterCr : ∀ req, scanner.advance (headerValue, req) [13] =
          some (expectingNewline2, req) := fun _ => rfl
      have toValue := Scanner.advance_trans (Scanner.advance_trans afterName (afterColon _)) afterValue
      exact Scanner.advance_trans toValue (afterCr _)
  | @continued w h lws text field nonempty blanks folded ih =>
      have afterLf : ∀ req, scanner.advance (expectingNewline2, req) [10] =
          some (headerLineStart, req) := fun _ => rfl
      have afterLws := advance_lws line hs h nonempty blanks
      have afterText := advance_folded line hs h folded
      have split : w ++ crlf ++ lws ++ text ++ [13] = (w ++ [13]) ++ [10] ++ lws ++ (text ++ [13]) := by
        simp [crlf]
      rw [split]
      have toLws := Scanner.advance_trans (Scanner.advance_trans ih (afterLf _)) afterLws
      exact Scanner.advance_trans toLws afterText

end Fields

theorem advance_fields (line : RequestLine) {w : Bytes} {hs : List Header}
    (fields : Fields w hs) :
    scanner.advance (headerLineStart, lineRequest line) w =
      some (headerLineStart, headRequest line hs) := by
  induction fields with
  | nil => rfl
  | @snoc w v hs h _ field ih =>
      have afterField := advance_field line hs field
      have afterLf : ∀ req, scanner.advance (expectingNewline2, req) [10] =
          some (headerLineStart, req) := fun _ => rfl
      have split : w ++ v ++ crlf = w ++ (v ++ [13]) ++ [10] := by simp [crlf]
      rw [split]
      exact Scanner.advance_trans (Scanner.advance_trans ih afterField) (afterLf _)

/-- Every request head is parsed to its last byte, into the request it denotes. -/
theorem parse_of_head {w : Bytes} {line : RequestLine} {hs : List Header}
    (head : Head w line hs) :
    parse methodStart {} w = ⟨good, (expectingNewline3, headRequest line hs), w.length⟩ := by
  obtain ⟨line, fields⟩ := head
  rename_i w
  have afterCr : ∀ req, scanner.advance (headerLineStart, req) [13] =
      some (expectingNewline3, req) := fun _ => rfl
  have before : scanner.advance (methodStart, {}) (line.text ++ w ++ [13]) =
      some (expectingNewline3, headRequest line hs) :=
    Scanner.advance_trans
      (Scanner.advance_trans (advance_line line) (advance_fields line fields)) (afterCr _)
  have split : line.text ++ w ++ crlf = (line.text ++ w ++ [13]) ++ [10] := by simp [crlf]
  have lengthEq : (line.text ++ w ++ [13] ++ [10]).length = (line.text ++ w ++ [13]).length + 1 :=
    List.length_append
  rw [split, parse, Scanner.scan_append_of_advance before, lengthEq]
  rfl

/-! ## The invariant of a running parser -/

/-- A request line up to the end of its uri and some of what follows it. -/
def AfterTarget (req : Request) (consumed suffix : Bytes) : Prop :=
  ∃ m u, Token m ∧ UriText u ∧ req = targetRequest m u ∧
    consumed = m ++ [32] ++ u ++ [32] ++ suffix

/-- A request line up to its major version number. -/
def AfterMajor (req : Request) (consumed suffix : Bytes) : Prop :=
  ∃ m u d, Token m ∧ UriText u ∧ Digits d ∧
    req = { targetRequest m u with httpVersionMajor := versionNumber d } ∧
    consumed = m ++ [32] ++ u ++ [32] ++ ascii "HTTP/" ++ d ++ suffix

/-- A request line up to its minor version number. -/
def AfterMinor (req : Request) (consumed suffix : Bytes) : Prop :=
  ∃ m u d e, Token m ∧ UriText u ∧ Digits d ∧ Digits e ∧
    req = { targetRequest m u with
      httpVersionMajor := versionNumber d
      httpVersionMinor := versionNumber e } ∧
    consumed = m ++ [32] ++ u ++ [32] ++ ascii "HTTP/" ++ d ++ [46] ++ e ++ suffix

/-- A request line, complete fields and some of what follows them. -/
def AfterFields (req : Request) (consumed suffix : Bytes) (last : List Header) : Prop :=
  ∃ line w hs, Fields w hs ∧ req = headRequest line (hs ++ last) ∧
    consumed = line.text ++ w ++ suffix

/-- What has been consumed, and turned into which request, in each state. -/
def Progress : State → Request → Bytes → Prop
  | methodStart, req, consumed => req = {} ∧ consumed = []
  | method, req, consumed => Token consumed ∧ req = { method := consumed }
  | uri, req, consumed =>
      ∃ m u, Token m ∧ UriText u ∧ req = targetRequest m u ∧ consumed = m ++ [32] ++ u
  | httpVersionH, req, consumed => AfterTarget req consumed []
  | httpVersionT1, req, consumed => AfterTarget req consumed (ascii "H")
  | httpVersionT2, req, consumed => AfterTarget req consumed (ascii "HT")
  | httpVersionP, req, consumed => AfterTarget req consumed (ascii "HTT")
  | httpVersionSlash, req, consumed => AfterTarget req consumed (ascii "HTTP")
  | httpVersionMajorStart, req, consumed => AfterTarget req consumed (ascii "HTTP/")
  | httpVersionMajor, req, consumed => AfterMajor req consumed []
  | httpVersionMinorStart, req, consumed => AfterMajor req consumed [46]
  | httpVersionMinor, req, consumed => AfterMinor req consumed []
  | expectingNewline1, req, consumed => AfterMinor req consumed [13]
  | headerLineStart, req, consumed => AfterFields req consumed [] []
  | headerLws, req, consumed =>
      ∃ v h lws, FieldText v h ∧ lws ≠ [] ∧ (∀ b ∈ lws, Blank b) ∧
        AfterFields req consumed (v ++ crlf ++ lws) [h]
  | headerName, req, consumed => ∃ n, Token n ∧ AfterFields req consumed n [⟨n, []⟩]
  | spaceBeforeHeaderValue, req, consumed =>
      ∃ n, Token n ∧ AfterFields req consumed (n ++ [58]) [⟨n, []⟩]
  | headerValue, req, consumed => ∃ v h, OpenField v h ∧ AfterFields req consumed v [h]
  | expectingNewline2, req, consumed =>
      ∃ v h, FieldText v h ∧ AfterFields req consumed (v ++ [13]) [h]
  | expectingNewline3, req, consumed => AfterFields req consumed [13] []

theorem token_push {w : Bytes} (all : ∀ b ∈ w, Tchar b) {b : UInt8} (tchar : Tchar b) :
    Token (w ++ [b]) :=
  ⟨by simp, List.forall_mem_append.mpr ⟨all, List.forall_mem_singleton.mpr tchar⟩⟩

theorem uriText_push {w : Bytes} (text : UriText w) {b : UInt8} (notSpace : b ≠ 32)
    (plain : ¬ Ctl b) : UriText (w ++ [b]) :=
  List.forall_mem_append.mpr ⟨text, List.forall_mem_singleton.mpr ⟨notSpace, plain⟩⟩

theorem digits_push {w : Bytes} (all : ∀ b ∈ w, Digit b) {b : UInt8} (digit : Digit b) :
    Digits (w ++ [b]) :=
  ⟨by simp, List.forall_mem_append.mpr ⟨all, List.forall_mem_singleton.mpr digit⟩⟩

theorem AfterTarget.push {req : Request} {consumed suffix : Bytes}
    (after : AfterTarget req consumed suffix) (b : UInt8) :
    AfterTarget req (consumed ++ [b]) (suffix ++ [b]) := by
  obtain ⟨m, u, token, text, rfl, rfl⟩ := after
  exact ⟨m, u, token, text, rfl, by simp⟩

theorem AfterFields.push {req : Request} {consumed suffix : Bytes} {last : List Header}
    (after : AfterFields req consumed suffix last) (b : UInt8) :
    AfterFields req (consumed ++ [b]) (suffix ++ [b]) last := by
  obtain ⟨line, w, hs, fields, rfl, rfl⟩ := after
  exact ⟨line, w, hs, fields, rfl, by simp⟩

section Inversion

variable {p : Prop} [Decidable p] {answer : ResultType × State × Request}
  {state next : State} {req req' : Request}

theorem of_guard
    (step : (if p then answer else (bad, state, req)) = (indeterminate, next, req')) :
    p ∧ answer = (indeterminate, next, req') := by
  by_cases holds : p
  · exact ⟨holds, by simpa [holds] using step⟩
  · simp [holds] at step

theorem of_reject
    (step : (if p then (bad, state, req) else answer) = (indeterminate, next, req')) :
    ¬ p ∧ answer = (indeterminate, next, req') := by
  by_cases holds : p
  · simp [holds] at step
  · exact ⟨holds, by simpa [holds] using step⟩

theorem of_branch {other : ResultType × State × Request}
    (step : (if p then answer else other) = (indeterminate, next, req')) :
    p ∧ answer = (indeterminate, next, req') ∨ ¬ p ∧ other = (indeterminate, next, req') := by
  by_cases holds : p
  · exact Or.inl ⟨holds, by simpa [holds] using step⟩
  · exact Or.inr ⟨holds, by simpa [holds] using step⟩

end Inversion

theorem tchar_of_not {b : UInt8} (isToken : ¬ notToken b = true) : Tchar b :=
  (notToken_eq_false_iff b).mp (by simpa using isToken)

theorem plain_of_not {b : UInt8} (notCtl : ¬ isCtl (charToInt b) = true) : ¬ Ctl b :=
  fun ctl => notCtl ((isCtl_eq_true_iff b).mpr ctl)

/-- Every byte that does not stop the parser keeps the invariant. -/
theorem progress_step {state next : State} {req req' : Request} {consumed : Bytes} {b : UInt8}
    (progress : Progress state req consumed)
    (step : consume state req b = (indeterminate, next, req')) :
    Progress next req' (consumed ++ [b]) := by
  cases state <;> simp only [consume] at step
  case methodStart =>
    obtain ⟨rfl, rfl⟩ := progress
    obtain ⟨isToken, answer⟩ := of_reject step
    cases answer
    exact ⟨token_push (w := []) (by simp) (tchar_of_not isToken), rfl⟩
  case method =>
    obtain ⟨token, rfl⟩ := progress
    rcases of_branch step with ⟨rfl, answer⟩ | ⟨-, rest⟩
    · cases answer
      exact ⟨consumed, [], token, by simp [UriText], rfl, by simp⟩
    · obtain ⟨isToken, answer⟩ := of_reject rest
      cases answer
      exact ⟨token_push token.2 (tchar_of_not isToken), rfl⟩
  case uri =>
    obtain ⟨m, u, token, text, rfl, rfl⟩ := progress
    rcases of_branch step with ⟨rfl, answer⟩ | ⟨notSpace, rest⟩
    · cases answer
      exact ⟨m, u, token, text, rfl, by simp⟩
    · obtain ⟨notCtl, answer⟩ := of_reject rest
      cases answer
      exact ⟨m, u ++ [b], token, uriText_push text notSpace (plain_of_not notCtl), rfl, by simp⟩
  case httpVersionH | httpVersionT1 | httpVersionT2 | httpVersionP =>
    obtain ⟨rfl, answer⟩ := of_guard step
    cases answer
    exact AfterTarget.push progress _
  case httpVersionSlash =>
    obtain ⟨m, u, token, text, rfl, rfl⟩ := progress
    obtain ⟨rfl, answer⟩ := of_guard step
    cases answer
    exact ⟨m, u, token, text, rfl, by simp [ascii]⟩
  case httpVersionMajorStart =>
    obtain ⟨m, u, token, text, rfl, rfl⟩ := progress
    obtain ⟨isDig, answer⟩ := of_guard step
    cases answer
    exact ⟨m, u, [b], token, text,
      digits_push (w := []) (by simp) ((isDigit_eq_true_iff b).mp isDig),
      by simp [versionNumber, targetRequest], by simp⟩
  case httpVersionMajor =>
    obtain ⟨m, u, d, token, text, digits, rfl, rfl⟩ := progress
    rcases of_branch step with ⟨rfl, answer⟩ | ⟨-, rest⟩
    · cases answer
      exact ⟨m, u, d, token, text, digits, rfl, by simp⟩
    · obtain ⟨isDig, answer⟩ := of_guard rest
      cases answer
      exact ⟨m, u, d ++ [b], token, text,
        digits_push digits.2 ((isDigit_eq_true_iff b).mp isDig), by simp [versionNumber_push],
        by simp⟩
  case httpVersionMinorStart =>
    obtain ⟨m, u, d, token, text, digits, rfl, rfl⟩ := progress
    obtain ⟨isDig, answer⟩ := of_guard step
    cases answer
    exact ⟨m, u, d, [b], token, text, digits,
      digits_push (w := []) (by simp) ((isDigit_eq_true_iff b).mp isDig),
      by simp [versionNumber, targetRequest], by simp⟩
  case httpVersionMinor =>
    obtain ⟨m, u, d, e, token, text, major, minor, rfl, rfl⟩ := progress
    rcases of_branch step with ⟨rfl, answer⟩ | ⟨-, rest⟩
    · cases answer
      exact ⟨m, u, d, e, token, text, major, minor, rfl, by simp⟩
    · obtain ⟨isDig, answer⟩ := of_guard rest
      cases answer
      exact ⟨m, u, d, e ++ [b], token, text, major,
        digits_push minor.2 ((isDigit_eq_true_iff b).mp isDig), by simp [versionNumber_push],
        by simp⟩
  case expectingNewline1 =>
    obtain ⟨m, u, d, e, token, text, major, minor, rfl, rfl⟩ := progress
    obtain ⟨rfl, answer⟩ := of_guard step
    cases answer
    exact ⟨⟨m, u, d, e, token, text, major, minor⟩, [], [], .nil, rfl,
      by simp [RequestLine.text, crlf]⟩
  case headerLineStart =>
    rcases of_branch step with ⟨rfl, answer⟩ | ⟨-, rest⟩
    · cases answer
      exact AfterFields.push progress _
    · obtain ⟨line, w, hs, fields, rfl, rfl⟩ := progress
      rcases of_branch rest with ⟨folding, answer⟩ | ⟨-, rest⟩
      · cases answer
        simp only [headRequest, List.append_nil, Bool.and_eq_true, Bool.not_eq_true',
          List.isEmpty_eq_false_iff, Bool.or_eq_true, beq_iff_eq] at folding
        -- the guard on the headers means that the last derivation step added a field
        cases fields with
        | nil => exact absurd rfl folding.1
        | @snoc w v hs h fields field =>
            exact ⟨v, h, [b], field, by simp, by simpa [Blank] using folding.2, line, w, hs, fields,
              by simp, by simp⟩
      · obtain ⟨isToken, answer⟩ := of_reject rest
        cases answer
        exact ⟨[b], token_push (w := []) (by simp) (tchar_of_not isToken), line, w, hs, fields,
          by simp [headRequest, pushName_concat], by simp⟩
  case headerLws =>
    obtain ⟨v, h, lws, field, nonempty, blanks, after⟩ := progress
    rcases of_branch step with ⟨rfl, answer⟩ | ⟨-, rest⟩
    · cases answer
      have continued := FieldText.continued field nonempty blanks (Or.inl rfl)
      refine ⟨v ++ crlf ++ lws, h, by simpa using continued, ?_⟩
      simpa using AfterFields.push after 13
    · rcases of_branch rest with ⟨blank, answer⟩ | ⟨notBlank, rest⟩
      · cases answer
        refine ⟨v, h, lws ++ [b], field, by simp, ?_, ?_⟩
        · exact List.forall_mem_append.mpr ⟨blanks, List.forall_mem_singleton.mpr blank⟩
        · simpa using AfterFields.push after b
      · obtain ⟨notCtl, answer⟩ := of_reject rest
        cases answer
        obtain ⟨line, w, hs, fields, rfl, rfl⟩ := after
        have opened := openField_continued field nonempty blanks (plain_of_not notCtl)
          (fun space => notBlank (Or.inl space))
        exact ⟨_, _, opened, line, w, hs, fields, by simp [headRequest, pushValue_concat], by simp⟩
  case headerName =>
    obtain ⟨n, token, after⟩ := progress
    rcases of_branch step with ⟨rfl, answer⟩ | ⟨-, rest⟩
    · cases answer
      exact ⟨n, token, AfterFields.push after 58⟩
    · obtain ⟨isToken, answer⟩ := of_reject rest
      cases answer
      obtain ⟨line, w, hs, fields, rfl, rfl⟩ := after
      exact ⟨n ++ [b], token_push token.2 (tchar_of_not isToken), line, w, hs, fields,
        by simp [headRequest, pushName_concat], by simp⟩
  case spaceBeforeHeaderValue =>
    obtain ⟨n, token, after⟩ := progress
    obtain ⟨rfl, answer⟩ := of_guard step
    cases answer
    refine ⟨n ++ [58, 32], ⟨n, []⟩, openField_first token, ?_⟩
    simpa using AfterFields.push after 32
  case headerValue =>
    obtain ⟨v, h, opened, after⟩ := progress
    rcases of_branch step with ⟨rfl, answer⟩ | ⟨-, rest⟩
    · cases answer
      exact ⟨v, h, opened.field, AfterFields.push after 13⟩
    · obtain ⟨notCtl, answer⟩ := of_reject rest
      cases answer
      obtain ⟨line, w, hs, fields, rfl, rfl⟩ := after
      exact ⟨v ++ [b], _, opened.push (plain_of_not notCtl), line, w, hs, fields,
        by simp [headRequest, pushValue_concat], by simp⟩
  case expectingNewline2 =>
    obtain ⟨v, h, field, line, w, hs, fields, rfl, rfl⟩ := progress
    obtain ⟨rfl, answer⟩ := of_guard step
    cases answer
    exact ⟨line, w ++ v ++ crlf, hs ++ [h], .snoc fields field, by simp, by simp [crlf]⟩
  case expectingNewline3 =>
    split at step <;> cases step

/-! ## Acceptance -/

/-- Only the last line feed completes a head. -/
theorem consume_good {state next : State} {req req' : Request} {b : UInt8}
    (step : consume state req b = (good, next, req')) :
    state = expectingNewline3 ∧ b = 10 ∧ next = expectingNewline3 ∧ req' = req := by
  cases state <;> simp only [consume] at step
  case expectingNewline3 =>
    split at step
    · rename_i lf
      cases step
      exact ⟨rfl, lf, rfl, rfl⟩
    · cases step
  all_goals
    repeat' split at step
    all_goals cases step

/-- A completed head leaves the parser in its last state. -/
theorem parse_good_state {state next : State} {req head : Request} {input : Bytes} {n : Nat}
    (parsed : parse state req input = ⟨good, (next, head), n⟩) : next = expectingNewline3 := by
  rcases scanner.scan_cases (state, req) input with ⟨last, -, scanned⟩ |
    ⟨us, b, vs, ⟨before, reqBefore⟩, verdict, last, -, -, step, -, scanned⟩
  · rw [parse, scanned] at parsed
    cases parsed
  · rw [parse, scanned] at parsed
    cases parsed
    exact (consume_good step).2.2.1

theorem stops_good : scanner.stops good = true := rfl

theorem progress_of_advance {state : State} {req : Request} {w : Bytes}
    (advanced : scanner.advance (methodStart, {}) w = some (state, req)) :
    Progress state req w := by
  have start : Progress methodStart {} [] := ⟨rfl, rfl⟩
  rw [← List.nil_append w]
  apply Scanner.advance_invariant (fun config consumed => Progress config.1 config.2 consumed) _
    start advanced
  rintro ⟨state, req⟩ consumed b r ⟨next, req'⟩ progress step continues
  have idle : r = indeterminate := by
    cases r
    · cases continues
    · cases continues
    · rfl
  rw [idle] at step
  exact progress_step progress step

/-- The shortest text that completes a head from each state. -/
def finish : State → Bytes
  | methodStart => ascii "G  HTTP/1.1\r\n\r\n"
  | method => ascii "  HTTP/1.1\r\n\r\n"
  | uri => ascii " HTTP/1.1\r\n\r\n"
  | httpVersionH => ascii "HTTP/1.1\r\n\r\n"
  | httpVersionT1 => ascii "TTP/1.1\r\n\r\n"
  | httpVersionT2 => ascii "TP/1.1\r\n\r\n"
  | httpVersionP => ascii "P/1.1\r\n\r\n"
  | httpVersionSlash => ascii "/1.1\r\n\r\n"
  | httpVersionMajorStart => ascii "1.1\r\n\r\n"
  | httpVersionMajor => ascii ".1\r\n\r\n"
  | httpVersionMinorStart => ascii "1\r\n\r\n"
  | httpVersionMinor => ascii "\r\n\r\n"
  | expectingNewline1 => ascii "\n\r\n"
  | headerLineStart => ascii "\r\n"
  | headerLws => ascii "\r\n\r\n"
  | headerName => ascii ": \r\n\r\n"
  | spaceBeforeHeaderValue => ascii " \r\n\r\n"
  | headerValue => ascii "\r\n\r\n"
  | expectingNewline2 => ascii "\n\r\n"
  | expectingNewline3 => ascii "\n"

theorem accepts_finish (state : State) (req : Request) :
    scanner.Accepts good (state, req) (finish state) := by
  cases state <;> exact ⟨rfl, rfl⟩

theorem live (start : State × Request) : scanner.Live good start :=
  fun _ next _ => ⟨finish next.1, accepts_finish next.1 next.2⟩

/-- A scan that stops with `good` has consumed a request head and holds the
request it denotes. -/
theorem head_of_good {s : Bytes} {n : Nat} {config : State × Request}
    (parsed : parse methodStart {} s = ⟨good, config, n⟩) :
    n ≤ s.length ∧ ∃ line hs, Head (s.take n) line hs ∧
      config = (expectingNewline3, headRequest line hs) := by
  rcases scanner.scan_cases (methodStart, {}) s with ⟨config', -, scanned⟩ |
    ⟨us, b, vs, ⟨state, req⟩, r, last, rfl, advanced, step, -, scanned⟩
  · rw [parse, scanned] at parsed
    cases parsed
  · rw [parse, scanned] at parsed
    obtain ⟨rfl, rfl, rfl⟩ := ScanResult.mk.inj parsed
    obtain ⟨next, req'⟩ := last
    obtain ⟨rfl, rfl, rfl, rfl⟩ := consume_good step
    obtain ⟨line, w, hs, fields, reqEq, rfl⟩ := progress_of_advance advanced
    have bound := scanner.scan_consumed_le (methodStart, {}) (line.text ++ w ++ [13] ++ 10 :: vs)
    rw [scanned] at bound
    refine ⟨bound, line, hs, ?_, ?_⟩
    · rw [List.take_length_add_append, List.append_assoc _ [13]]
      exact Head.mk line fields
    · rw [reqEq, List.append_nil]

theorem accepts_iff (w : Bytes) : scanner.Accepts good (methodStart, {}) w ↔ IsHead w := by
  constructor
  · rintro ⟨verdict, consumed⟩
    have parsed : parse methodStart {} w = ⟨good, (parse methodStart {} w).state, w.length⟩ := by
      rw [parse, ← verdict, ← consumed]
    obtain ⟨-, line, hs, head, -⟩ := head_of_good parsed
    rw [List.take_length] at head
    exact ⟨line, hs, head⟩
  · rintro ⟨line, hs, head⟩
    have parsed := parse_of_head head
    exact ⟨congrArg ScanResult.verdict parsed, congrArg ScanResult.consumed parsed⟩

theorem good_iff (s : Bytes) (n : Nat) :
    ((parse methodStart {} s).verdict = good ∧ (parse methodStart {} s).consumed = n) ↔
      n ≤ s.length ∧ IsHead (s.take n) := by
  rw [← accepts_iff]
  exact Scanner.accept_iff stops_good (methodStart, {}) s n

theorem indeterminate_iff (s : Bytes) :
    (parse methodStart {} s).verdict = indeterminate ↔ ∃ rest, rest ≠ [] ∧ IsHead (s ++ rest) := by
  simp only [← accepts_iff]
  exact Scanner.idle_iff stops_good (live _) s

/-- The parser gives up at the first byte after which no head continues what it
has consumed. -/
theorem bad_iff (s : Bytes) (n : Nat) :
    ((parse methodStart {} s).verdict = bad ∧ (parse methodStart {} s).consumed = n + 1) ↔
      n < s.length ∧ (∃ rest, rest ≠ [] ∧ IsHead (s.take n ++ rest)) ∧
        ¬ ∃ rest, IsHead (s.take (n + 1) ++ rest) := by
  simp only [← accepts_iff]
  rw [← Scanner.reject_iff stops_good (live _) s n]
  constructor
  · rintro ⟨rejected, consumed⟩
    rw [parse] at rejected
    exact ⟨by rw [rejected]; decide, by rw [rejected]; decide, consumed⟩
  · rintro ⟨notIdle, notGood, consumed⟩
    refine ⟨?_, consumed⟩
    change (parse methodStart {} s).verdict ≠ indeterminate at notIdle
    change (parse methodStart {} s).verdict ≠ good at notGood
    cases verdict : (parse methodStart {} s).verdict with
    | good => exact absurd verdict notGood
    | bad => rfl
    | indeterminate => exact absurd verdict notIdle

/-- The request of an accepted input is the one its head denotes. -/
theorem request_of_head {s : Bytes} {n : Nat} (bound : n ≤ s.length) {line : RequestLine}
    {hs : List Header} (head : Head (s.take n) line hs) :
    parse methodStart {} s = ⟨good, (expectingNewline3, headRequest line hs), n⟩ := by
  have parsed := parse_of_head head
  have stopped : scanner.stops (parse methodStart {} (s.take n)).verdict = true := by
    rw [parsed]
    rfl
  have whole := Scanner.scan_append_of_stops stopped (s.drop n)
  rw [List.take_append_drop] at whole
  rw [parse, whole, ← parse, parsed, List.length_take, Nat.min_eq_left bound]

/-- A fresh parser recognises exactly the request heads: it answers `good` after
the bytes of a head, with the method, the uri and the header fields of that
head, is undecided on the proper prefixes of heads, and rejects every other
input at the first byte that no head continues. -/
theorem parse_recognises_heads (s : Bytes) :
    (∀ n, ((parse methodStart {} s).verdict = good ∧ (parse methodStart {} s).consumed = n) ↔
      n ≤ s.length ∧ IsHead (s.take n)) ∧
    (∀ n line hs, n ≤ s.length → Head (s.take n) line hs →
      (parse methodStart {} s).state.2.method = line.method ∧
      (parse methodStart {} s).state.2.uri = line.uri ∧
      (parse methodStart {} s).state.2.headers = hs) ∧
    ((parse methodStart {} s).verdict = indeterminate ↔
      ∃ rest, rest ≠ [] ∧ IsHead (s ++ rest)) ∧
    ((parse methodStart {} s).verdict = bad ↔
      (¬ ∃ n, n ≤ s.length ∧ IsHead (s.take n)) ∧ ¬ ∃ rest, rest ≠ [] ∧ IsHead (s ++ rest)) ∧
    (∀ n, ((parse methodStart {} s).verdict = bad ∧ (parse methodStart {} s).consumed = n + 1) ↔
      n < s.length ∧ (∃ rest, rest ≠ [] ∧ IsHead (s.take n ++ rest)) ∧
        ¬ ∃ rest, IsHead (s.take (n + 1) ++ rest)) := by
  have someGood : (parse methodStart {} s).verdict = good ↔
      ∃ n, n ≤ s.length ∧ IsHead (s.take n) := by
    simp only [← good_iff]
    exact ⟨fun verdict => ⟨_, verdict, rfl⟩, fun ⟨_, verdict, _⟩ => verdict⟩
  refine ⟨good_iff s, ?_, indeterminate_iff s, ?_, bad_iff s⟩
  · intro n line hs bound head
    rw [request_of_head bound head]
    exact ⟨rfl, rfl, rfl⟩
  · rw [← someGood, ← indeterminate_iff]
    cases (parse methodStart {} s).verdict <;> decide

end CleanArchitecture.RequestParser
