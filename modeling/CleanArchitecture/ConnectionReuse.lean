import CleanArchitecture.ContentLength

/-!
# One connection for several requests

After a response the connection goes back to reading, but its parser still waits
for the end of the first head.  Nothing is dispatched again until it gets there.
-/

namespace CleanArchitecture.Connection

open RequestParser ResultType RequestGrammar

/-- The requests given to the request handler, with the responses it starts from. -/
def dispatches (out : List Action) : List (Request × Response) :=
  out.filterMap fun
    | .handleRequest req res => some (req, res)
    | _ => none

/-- A request that is well formed for the parser, declares its own length
correctly and fits one read. -/
structure WellFormedRequest where
  line : RequestLine
  headers : List Header
  head : Bytes
  isHead : Head head line headers
  body : Bytes
  declared : ∀ h ∈ headers, IsContentLength h → IsNumeral h.value body.length
  undeclared : (∀ h ∈ headers, ¬ IsContentLength h) → body = []
  fits : (head ++ body).length ≤ bufferSize

/-- A request that arrives in one read, and what the request handler does with it. -/
structure Exchange where
  request : WellFormedRequest
  handler : Handler

def Exchange.read (e : Exchange) : ReadCompletion where
  chunk := ⟨e.request.head ++ e.request.body, e.request.fits⟩
  available := 0
  handler := e.handler

/-- The fields of a request that an earlier exchange could spoil. -/
def SameRequest (a b : Request) : Prop :=
  a.method = b.method ∧ a.uri = b.uri ∧ a.headers = b.headers ∧ a.contentLen = b.contentLen ∧
    a.contentType = b.contentType ∧ a.sessionId = b.sessionId ∧ a.cookies = b.cookies ∧
    a.body = b.body

/-- A read is dispatched once, as on a fresh connection, with a default response. -/
def FaithfulRead (r : ReadCompletion) (out : List Action) : Prop :=
  ∃ req alone c out', dispatches out = [(req, {})] ∧ onRead {} r = .ok (c, out') ∧
    dispatches out' = [(alone, {})] ∧ SameRequest req alone

/-- Every exchange on one connection is dispatched as on a connection of its own. -/
def ReusedFaithfully (exchanges : List Exchange) : Prop :=
  ∃ c outputs, machine.run {} (exchanges.map Exchange.read) = .ok (c, outputs) ∧
    List.Forall₂ (fun e out => FaithfulRead e.read out) exchanges outputs

/-- The header values of a request can be converted. -/
def ScansHeaders (request : WellFormedRequest) : Prop :=
  ∃ answer, scanHeaders request.headers 0 (headRequest request.line request.headers) = .ok answer

theorem parse_exchange (e : Exchange) :
    parse .methodStart {} e.read.chunk.bytes =
      ⟨good, (.expectingNewline3, headRequest e.request.line e.request.headers),
        e.request.head.length⟩ := by
  have bound : e.request.head.length ≤ e.read.chunk.bytes.length := by
    change _ ≤ (e.request.head ++ e.request.body).length
    simp
  apply request_of_head bound
  change Head ((e.request.head ++ e.request.body).take e.request.head.length) _ _
  rw [List.take_left']
  · exact e.request.isHead
  · rfl

/-- A correct length is never exceeded. -/
theorem body_fits (request : WellFormedRequest) {i : Nat} {values : Request}
    (scanned : scanHeaders request.headers 0 (headRequest request.line request.headers) =
      .ok (i, values)) : request.body.length ≤ toUint32 values.contentLen := by
  have settled := @lengthSettled_of_scan (headRequest request.line request.headers) values i
    ⟨rfl, rfl, rfl⟩ scanned
  have small : request.body.length ≤ bufferSize := by
    have fits := request.fits
    rw [List.length_append] at fits
    omega
  rw [le_toUint32_iff small settled.lower settled.upper]
  intro nonneg
  rcases settled.set_or_default with default | ⟨before, h, after, k, req, split, -, -, -, name,
    converted⟩
  · omega
  · have member : h ∈ request.headers := by
      change request.headers = _ at split
      simp [split]
    have numeral := stoi_of_isNumeral (request.declared h member name)
      (by unfold bufferSize at small; omega)
    rw [numeral] at converted
    have value := Except.ok.inj converted
    omega

/-- The first request of a connection, when its header values can be converted. -/
theorem onRead_exchange (e : Exchange) (scans : ScansHeaders e.request) :
    ∃ c req res, onRead {} e.read = .ok (c, [.handleRequest req {}, .doWrite res]) := by
  obtain ⟨⟨i, values⟩, scanned⟩ := scans
  have fits : e.read.chunk.bytes.length - e.request.head.length ≤ toUint32 values.contentLen := by
    change (e.request.head ++ e.request.body).length - e.request.head.length ≤ _
    simpa using body_fits e.request scanned
  have dispatched := onRead_of_good (c := {}) rfl (parse_exchange e) scanned
  have nothingLeft : e.read.available = 0 := rfl
  rw [if_pos nothingLeft, if_neg (Nat.not_lt_of_le fits)] at dispatched
  exact ⟨_, _, _, dispatched⟩

/-- The first request leaves the parser behind its head. -/
theorem after_exchange {e : Exchange} {c : Connection} {out : List Action}
    (stepped : onRead {} e.read = .ok (c, out)) :
    ScansHeaders e.request ∧ c.headerBuffer = true ∧ c.requestParser = .expectingNewline3 := by
  have parsedGood := parse_exchange e
  cases readStep_of_onRead stepped with
  | headContinues _ parsed | headBad _ parsed =>
      rw [parsedGood] at parsed
      cases parsed
  | headTooLong _ parsed scanned | headDispatched _ parsed scanned =>
      rw [parsedGood] at parsed
      cases parsed
      exact ⟨⟨_, scanned⟩, rfl, rfl⟩
  | headThenBody _ _ _ moreLeft => exact absurd rfl moreLeft
  | bodyTooLong collecting | bodyDispatched collecting | bodyContinues collecting =>
      cases collecting

/-- A further request is taken for the missing end of the first head. -/
theorem next_exchange {c c' : Connection} {e : Exchange} {out : List Action}
    (header : c.headerBuffer = true) (parser : c.requestParser = .expectingNewline3)
    (stepped : onRead c e.read = .ok (c', out)) : dispatches out = [] := by
  obtain ⟨b, rest, headEq, tchar⟩ := e.request.isHead.first
  have notLf : b ≠ 10 := tchar_ne tchar (by decide)
  have rejected : parse c.requestParser c.req e.read.chunk.bytes =
      ⟨bad, (.expectingNewline3, c.req), 1⟩ := by
    have bytes : e.read.chunk.bytes = b :: (rest ++ e.request.body) := by
      change e.request.head ++ e.request.body = _
      rw [headEq, List.cons_append]
    rw [bytes, parser]
    simp [parse, Scanner.scan, scanner, consume, notLf]
  cases readStep_of_onRead stepped with
  | headContinues _ parsed | headTooLong _ parsed | headDispatched _ parsed
    | headThenBody _ parsed =>
      rw [rejected] at parsed
      cases parsed
  | headBad => rfl
  | bodyTooLong collecting | bodyDispatched collecting | bodyContinues collecting =>
      rw [header] at collecting
      cases collecting

theorem not_reused_of_two (first second : Exchange) (rest : List Exchange) :
    ¬ ReusedFaithfully (first :: second :: rest) := by
  rintro ⟨c, outputs, ran, faithful⟩
  obtain ⟨c₁, out₁, outputs₁, stepped₁, ran₁, rfl⟩ := EventMachine.run_cons_ok.mp ran
  obtain ⟨c₂, out₂, outputs₂, stepped₂, -, rfl⟩ := EventMachine.run_cons_ok.mp ran₁
  obtain ⟨-, header, parser⟩ := after_exchange stepped₁
  have silent := next_exchange header parser stepped₂
  cases faithful with
  | cons _ faithful =>
      cases faithful with
      | cons faithfulRead _ =>
          obtain ⟨req, alone, c, out, dispatched, -⟩ := faithfulRead
          rw [silent] at dispatched
          cases dispatched

/-- A connection serves one request faithfully, if its header values can be
converted, and never a second one. -/
theorem reused_faithfully_iff (exchanges : List Exchange) :
    ReusedFaithfully exchanges ↔
      exchanges = [] ∨ ∃ e, exchanges = [e] ∧ ScansHeaders e.request := by
  constructor
  · intro reused
    match exchanges with
    | [] => exact Or.inl rfl
    | [e] =>
        obtain ⟨c, outputs, ran, -⟩ := reused
        obtain ⟨c₁, out, rest, stepped, -, -⟩ := EventMachine.run_cons_ok.mp ran
        exact Or.inr ⟨e, rfl, (after_exchange stepped).1⟩
    | first :: second :: rest => exact absurd reused (not_reused_of_two first second rest)
  · rintro (rfl | ⟨e, rfl, scans⟩)
    · exact ⟨{}, [], rfl, .nil⟩
    · obtain ⟨c, req, res, stepped⟩ := onRead_exchange e scans
      refine ⟨c, _, EventMachine.run_cons_ok.mpr ⟨c, _, [], stepped, rfl, rfl⟩, .cons ?_ .nil⟩
      exact ⟨req, req, c, _, rfl, stepped, rfl, rfl, rfl, rfl, rfl, rfl, rfl, rfl, rfl⟩

/-- `GET / HTTP/1.1` with `Content-Length: 0`. -/
def plainLine : RequestLine where
  method := ascii "GET"
  uri := ascii "/"
  major := ascii "1"
  minor := ascii "1"
  method_token := ⟨by decide, by decide +kernel⟩
  uri_text := by unfold UriText; decide +kernel
  major_digits := ⟨by decide, by decide +kernel⟩
  minor_digits := ⟨by decide, by decide +kernel⟩

def plainHeader : Header :=
  ⟨ascii "Content-Length", ascii "0"⟩

theorem plainHeader_fields :
    Fields ([] ++ (plainHeader.name ++ [58, 32] ++ plainHeader.value) ++ crlf)
      ([] ++ [plainHeader]) := by
  apply Fields.snoc .nil
  apply FieldText.first
  · exact ⟨by decide, by decide +kernel⟩
  · unfold Text
    decide +kernel

def plainExchange : Exchange where
  request :=
    { line := plainLine
      headers := [] ++ [plainHeader]
      head := plainLine.text ++ ([] ++ (plainHeader.name ++ [58, 32] ++ plainHeader.value) ++ crlf)
        ++ crlf
      isHead := .mk plainLine plainHeader_fields
      body := []
      declared := by
        intro h member _
        rw [List.mem_singleton.mp member]
        exact ⟨by decide, by decide +kernel, by decide⟩
      undeclared := fun _ => rfl
      fits := by decide }
  handler req res := (req, res)

/-- Two requests without bodies are not served faithfully by one connection. -/
theorem not_reused_faithfully_plain :
    ¬ ∀ exchanges : List Exchange, ReusedFaithfully exchanges := by
  intro reused
  exact not_reused_of_two plainExchange plainExchange [] (reused _)

end CleanArchitecture.Connection
