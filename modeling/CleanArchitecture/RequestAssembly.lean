import CleanArchitecture.ConnectionSteps

/-!
# How a request is assembled from reads

While no response has been started, the connection has parsed the concatenation
of its reads as one text: either that text is still part of a head, or the head
is complete and everything after it is the body collected so far.
-/

namespace CleanArchitecture.Connection

open RequestParser ResultType

/-- The bytes of a sequence of reads. -/
def stream (reads : List ReadCompletion) : Bytes :=
  reads.flatMap fun r => r.chunk.bytes

@[simp] theorem stream_concat (reads : List ReadCompletion) (r : ReadCompletion) :
    stream (reads ++ [r]) = stream reads ++ r.chunk.bytes := by
  simp [stream]

/-- No response was started. -/
def Quiet (outputs : List (List Action)) : Prop :=
  ∀ out ∈ outputs, ∀ res, Action.doWrite res ∉ out

/-- No request was given to the request handler. -/
def Undispatched (outputs : List (List Action)) : Prop :=
  ∀ out ∈ outputs, ∀ req res, Action.handleRequest req res ∉ out

theorem quiet_concat {outputs : List (List Action)} {out : List Action} :
    Quiet (outputs ++ [out]) ↔ Quiet outputs ∧ ∀ res, Action.doWrite res ∉ out := by
  constructor
  · intro quiet
    exact ⟨fun o member => quiet o (by simp [member]), quiet out (by simp)⟩
  · rintro ⟨before, last⟩ o member
    rcases List.mem_append.mp member with earlier | final
    · exact before o earlier
    · rw [List.mem_singleton.mp final]
      exact last

/-- The head parsed from a text, scanned for the header values. -/
structure Parsed (p : State) (r : Request) (s : Bytes) (n : Nat) (next : State)
    (head values : Request) : Prop where
  good : parse p r s = ⟨good, (next, head), n⟩
  scanned : ∃ i, scanHeaders head.headers 0 head = .ok (i, values)

/-- What the connection has made of the bytes `s`, starting from the parser state
`p` and the request `r`. -/
inductive Assembling (p : State) (r : Request) (s : Bytes) (c : Connection) : Prop
  | head (header : c.headerBuffer = true)
      (advanced : scanner.advance (p, r) s = some (c.requestParser, c.req))
  | body {n : Nat} {head values : Request} (collecting : c.headerBuffer = false)
      (parsed : Parsed p r s n c.requestParser head values)
      (assembled : c.req = { values with body := s.drop n })

/-- Reads continue the text that has been parsed so far. -/
theorem parse_continues {p next : State} {r req : Request} {s : Bytes}
    (advanced : scanner.advance (p, r) s = some (next, req)) (more : Bytes) :
    parse p r (s ++ more) =
      ⟨(parse next req more).verdict, (parse next req more).state,
        s.length + (parse next req more).consumed⟩ :=
  Scanner.scan_append_of_advance advanced more

theorem advance_of_indeterminate {p : State} {r : Request} {s : Bytes} {config : State × Request}
    {n : Nat} (parsed : parse p r s = ⟨indeterminate, config, n⟩) :
    scanner.advance (p, r) s = some config := by
  rcases scanner.scan_cases (p, r) s with ⟨last, advanced, scanned⟩ |
    ⟨us, b, vs, s₁, verdict, s₂, -, -, -, stops, scanned⟩
  · rw [parse, scanned] at parsed
    cases parsed
    exact advanced
  · rw [parse, scanned] at parsed
    cases parsed
    cases stops

/-- A head that ends in the current read has been parsed from the whole text. -/
theorem parsed_of_read {p next last : State} {r req head values : Request} {s more : Bytes}
    {n i : Nat} (advanced : scanner.advance (p, r) s = some (next, req))
    (parsed : parse next req more = ⟨good, (last, head), n⟩)
    (scanned : scanHeaders head.headers 0 head = .ok (i, values)) :
    Parsed p r (s ++ more) (s.length + n) last head values where
  good := by rw [parse_continues advanced, parsed]
  scanned := ⟨i, scanned⟩

theorem Parsed.append {p next : State} {r head values : Request} {s : Bytes} {n : Nat}
    (parsed : Parsed p r s n next head values) (more : Bytes) :
    Parsed p r (s ++ more) n next head values where
  good := by
    have stopped : scanner.stops (parse p r s).verdict = true := by
      rw [parsed.good]
      rfl
    rw [parse, Scanner.scan_append_of_stops stopped more, ← parse, parsed.good]
  scanned := parsed.scanned

theorem Parsed.within {p next : State} {r head values : Request} {s : Bytes} {n : Nat}
    (parsed : Parsed p r s n next head values) : n ≤ s.length := by
  have bound := parse_consumed_le p r s
  rwa [parsed.good] at bound

/-- Every read that starts no response keeps the assembly. -/
theorem assembling_step {p : State} {r : Request} {s : Bytes} {c c' : Connection}
    {last : ReadCompletion} {out : List Action} (assembling : Assembling p r s c)
    (step : ReadStep c last c' out) (quiet : ∀ res, Action.doWrite res ∉ out) :
    Assembling p r (s ++ last.chunk.bytes) c' := by
  cases step with
  | headContinues header parsed =>
      cases assembling with
      | head _ advanced =>
          exact .head header (Scanner.advance_trans advanced (advance_of_indeterminate parsed))
      | body collecting => simp [header] at collecting
  | headBad | headTooLong | bodyTooLong => simp at quiet
  | headDispatched | bodyDispatched => simp [respond] at quiet
  | headThenBody header parsed scanned moreLeft =>
      cases assembling with
      | head _ advanced =>
          refine .body rfl (parsed_of_read advanced parsed scanned) ?_
          simp [List.drop_append]
      | body collecting => simp [header] at collecting
  | bodyContinues collecting appended fits moreLeft =>
      cases assembling with
      | head header => simp [header] at collecting
      | body _ parsed assembled =>
          refine .body collecting (parsed.append _) ?_
          rw [List.drop_append_of_le_length parsed.within]
          simp [assembled]

/-- The request a read dispatches is the head parsed from the whole text with
all the rest of the text as its body. -/
theorem dispatched_of_assembling {p : State} {r : Request} {s : Bytes} {c c' : Connection}
    {last : ReadCompletion} {out : List Action} {req : Request} {res : Response}
    (assembling : Assembling p r s c) (step : ReadStep c last c' out)
    (dispatched : Action.handleRequest req res ∈ out) :
    ∃ n next head values, Parsed p r (s ++ last.chunk.bytes) n next head values ∧
      req = { values with body := (s ++ last.chunk.bytes).drop n } ∧ res = c.res ∧
      (req.body.length ≤ toUint32 values.contentLen ∨
        req.body.length ≤ toSizeT values.contentLen) := by
  cases step with
  | headContinues | headBad | headTooLong | headThenBody | bodyTooLong | bodyContinues =>
      simp at dispatched
  | @headDispatched config n i values header parsed scanned nothingLeft fits =>
      cases assembling with
      | head _ advanced =>
          simp only [respond, List.mem_cons, Action.handleRequest.injEq, reduceCtorEq,
            List.not_mem_nil, or_false] at dispatched
          obtain ⟨rfl, rfl⟩ := dispatched
          have bodyEq : (s ++ last.chunk.bytes).drop (s.length + n) = last.chunk.bytes.drop n := by
            simp [List.drop_append]
          refine ⟨_, _, _, values, parsed_of_read advanced parsed scanned, ?_, rfl, Or.inl ?_⟩
          · rw [bodyEq]
          · simpa using fits
      | body collecting => simp [header] at collecting
  | bodyDispatched collecting appended fits nothingLeft =>
      cases assembling with
      | head header => simp [header] at collecting
      | @body n head values _ parsed assembled =>
          simp only [respond, List.mem_cons, Action.handleRequest.injEq, reduceCtorEq,
            List.not_mem_nil, or_false] at dispatched
          obtain ⟨rfl, rfl⟩ := dispatched
          refine ⟨n, _, head, values, parsed.append _, ?_, rfl, Or.inr ?_⟩
          · rw [List.drop_append_of_le_length parsed.within]
            simp [assembled]
          · simpa [assembled] using fits

/-! ## Runs -/

/-- `current` is what has been read since the last response was started, by the
connection `start` that was left then, and `c` is what it has become. -/
structure SinceResponse (reads : List ReadCompletion) (start : Connection)
    (current : List ReadCompletion) (c : Connection) : Prop where
  began : ∃ before outputs, reads = before ++ current ∧
    machine.run {} before = .ok (start, outputs) ∧
    (before = [] ∨ ∃ earlier out res, outputs = earlier ++ [out] ∧ Action.doWrite res ∈ out)
  continued : ∃ outputs, machine.run start current = .ok (c, outputs) ∧ Quiet outputs

/-- A read that starts a response leaves the connection at the start of a head. -/
theorem headerBuffer_of_response {c c' : Connection} {r : ReadCompletion} {out : List Action}
    {res : Response} (step : ReadStep c r c' out) (responded : Action.doWrite res ∈ out) :
    c'.headerBuffer = true := by
  cases step with
  | headContinues | headThenBody | bodyContinues => simp at responded
  | headBad header | headTooLong header | headDispatched header => exact header
  | bodyTooLong | bodyDispatched => rfl

theorem sinceResponse_assembling {reads : List ReadCompletion} {c : Connection}
    {outputs : List (List Action)} (ran : machine.run {} reads = .ok (c, outputs)) :
    ∃ start current, SinceResponse reads start current c ∧
      Assembling start.requestParser start.req (stream current) c := by
  apply EventMachine.run_invariant (M := machine) (fun events _ c =>
    ∃ start current, SinceResponse events start current c ∧
      Assembling start.requestParser start.req (stream current) c) _ _ ran
  · exact ⟨{}, [], ⟨⟨[], [], rfl, rfl, Or.inl rfl⟩, ⟨[], rfl, by simp [Quiet]⟩⟩, .head rfl rfl⟩
  · rintro events outputs c r c' out begun ⟨start, current, since, assembling⟩ stepped
    have step := readStep_of_onRead stepped
    by_cases responded : ∃ res, Action.doWrite res ∈ out
    · -- the text starts again after a response
      obtain ⟨res, written⟩ := responded
      have whole := EventMachine.run_concat_ok.mpr ⟨c, outputs, out, begun, stepped, rfl⟩
      refine ⟨c', [], ⟨⟨events ++ [r], outputs ++ [out], by simp, whole,
        Or.inr ⟨outputs, out, res, rfl, written⟩⟩, ⟨[], rfl, by simp [Quiet]⟩⟩, ?_⟩
      exact .head (headerBuffer_of_response step written) rfl
    · have quiet : ∀ res, Action.doWrite res ∉ out := fun res member => responded ⟨res, member⟩
      obtain ⟨before, earlier, split, ranBefore, boundary⟩ := since.began
      obtain ⟨rest, continued, quietRest⟩ := since.continued
      refine ⟨start, current ++ [r], ⟨⟨before, earlier, ?_, ranBefore, boundary⟩,
        ⟨rest ++ [out], ?_, ?_⟩⟩, ?_⟩
      · rw [split, List.append_assoc]
      · exact EventMachine.run_concat_ok.mpr ⟨c, rest, out, continued, stepped, rfl⟩
      · exact quiet_concat.mpr ⟨quietRest, quiet⟩
      · rw [stream_concat]
        exact assembling_step assembling step quiet

/-- A run without a response is one text from the start. -/
theorem assembling_of_quiet {reads : List ReadCompletion} {c : Connection}
    {outputs : List (List Action)} (ran : machine.run {} reads = .ok (c, outputs))
    (quiet : Quiet outputs) : Assembling .methodStart {} (stream reads) c := by
  obtain ⟨start, current, ⟨⟨before, earlier, rfl, ranBefore, boundary⟩, continued⟩, assembling⟩ :=
    sinceResponse_assembling ran
  rcases boundary with rfl | ⟨first, out, res, rfl, written⟩
  · cases ranBefore
    exact assembling
  · -- the response at the boundary contradicts the silence of the run
    obtain ⟨s', before', after', ran', -, rfl⟩ := EventMachine.run_append_ok.mp ran
    rw [ranBefore] at ran'
    cases ran'
    exact absurd written (quiet out (by simp) res)

/-- However the bytes were cut into reads, the first response of a connection, if
it comes from the request handler, is given the head that one parse of all the
bytes finds, with all the bytes after that head as its body. -/
theorem dispatched_request_of_stream {reads : List ReadCompletion} {last : ReadCompletion}
    {c c' : Connection} {outputs : List (List Action)} {out : List Action} {req : Request}
    {res : Response} (ran : machine.run {} reads = .ok (c, outputs)) (first : Quiet outputs)
    (stepped : onRead c last = .ok (c', out)) (dispatched : Action.handleRequest req res ∈ out) :
    (parse .methodStart {} (stream (reads ++ [last]))).verdict = good ∧
      req.method = (parse .methodStart {} (stream (reads ++ [last]))).state.2.method ∧
      req.uri = (parse .methodStart {} (stream (reads ++ [last]))).state.2.uri ∧
      req.headers = (parse .methodStart {} (stream (reads ++ [last]))).state.2.headers ∧
      req.body = (stream (reads ++ [last])).drop
        (parse .methodStart {} (stream (reads ++ [last]))).consumed := by
  have assembling := assembling_of_quiet ran first
  obtain ⟨n, next, head, values, parsed, rfl, -, -⟩ :=
    dispatched_of_assembling assembling (readStep_of_onRead stepped) dispatched
  obtain ⟨i, scanned⟩ := parsed.scanned
  have sameHead := scanHeaders_sameHead scanned
  rw [stream_concat, parsed.good]
  exact ⟨rfl, sameHead.1, sameHead.2.1, sameHead.2.2.2.2.1, rfl⟩

/-- A read that delivers a text to a handler that changes nothing. -/
def textRead (text : String) (available : Nat) (fits : (ascii text).length ≤ bufferSize) :
    ReadCompletion where
  chunk := ⟨ascii text, fits⟩
  available := available
  handler req res := (req, res)

/-- A head that ends inside the second of three reads. -/
def splitHead : List ReadCompletion :=
  [textRead "PU" 40 (by decide), textRead "T /a HTTP/1.1\r\n\r\none" 4 (by decide)]

def splitTail : ReadCompletion :=
  textRead " two" 0 (by decide)

theorem dispatched_request_of_splitHead :
    ∃ req : Request,
      (machine.run {} (splitHead ++ [splitTail])).map Prod.snd =
        .ok [[.doRead], [], [.handleRequest req {}, .doWrite {}]] ∧
      req.method = (parse .methodStart {} (stream (splitHead ++ [splitTail]))).state.2.method ∧
      req.body = (stream (splitHead ++ [splitTail])).drop
        (parse .methodStart {} (stream (splitHead ++ [splitTail]))).consumed := by
  let req : Request :=
    { method := ascii "PUT"
      uri := ascii "/a"
      httpVersionMajor := 1
      httpVersionMinor := 1
      body := ascii "one two" }
  have produced : (machine.run {} (splitHead ++ [splitTail])).map Prod.snd =
      .ok ([[.doRead], []] ++ [[.handleRequest req {}, .doWrite {}]]) := by
    decide +kernel
  obtain ⟨c', whole⟩ := EventMachine.exists_of_output produced
  obtain ⟨c, before, out, ran, stepped, outputs⟩ := EventMachine.run_concat_ok.mp whole
  obtain ⟨rfl, same⟩ := List.append_inj' outputs rfl
  obtain rfl := List.singleton_inj.mp same
  have assembled := dispatched_request_of_stream ran (by simp [Quiet]) stepped
    (List.mem_cons_self : Action.handleRequest req {} ∈ _)
  exact ⟨req, produced, assembled.2.1, assembled.2.2.2.2⟩

end CleanArchitecture.Connection
