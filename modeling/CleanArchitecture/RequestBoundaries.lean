import CleanArchitecture.ConnectionReuse
import CleanArchitecture.ParserInvariant

/-!
# Which bytes a dispatch belongs to

An observer of a connection counts the bytes it receives and notes where the head
of each dispatched request ended.  While every head is parsed from the initial
parser state, each dispatch owns a segment of the bytes that is a request head.
-/

namespace CleanArchitecture.Connection

open RequestParser ResultType RequestGrammar

/-- A connection and what an observer remembers of its reads: whether the last
read of a head ended or broke it, and where heads have ended. -/
structure Observation where
  connection : Connection := {}
  received : Nat := 0
  stopped : Bool := false
  headEnd : Nat := 0
  dispatchEnds : List Nat := []

namespace Observation

/-- The verdict on a read, while the connection reads a head. -/
def verdict (o : Observation) (r : ReadCompletion) : Option (ScanResult (State × Request) ResultType) :=
  if o.connection.headerBuffer then
    some (parse o.connection.requestParser o.connection.req r.chunk.bytes)
  else none

def stoppedAfter (o : Observation) (r : ReadCompletion) : Bool :=
  match o.verdict r with
  | some parsed => parsed.verdict != indeterminate
  | none => o.stopped

def headEndAfter (o : Observation) (r : ReadCompletion) : Nat :=
  match o.verdict r with
  | some parsed => if parsed.verdict = good then o.received + parsed.consumed else o.headEnd
  | none => o.headEnd

/-- What the observer notes of a read that left the connection `c` and caused
`out`: the end of the last head once for each dispatch. -/
def next (o : Observation) (r : ReadCompletion) (c : Connection) (out : List Action) :
    Observation where
  connection := c
  received := o.received + r.chunk.bytes.length
  stopped := o.stoppedAfter r
  headEnd := o.headEndAfter r
  dispatchEnds := o.dispatchEnds ++ (dispatches out).map fun _ => o.headEndAfter r

def onRead (o : Observation) (r : ReadCompletion) :
    Except StdException (Observation × List Action) :=
  match Connection.onRead o.connection r with
  | .error e => .error e
  | .ok (c, out) => .ok (o.next r c out, out)

def machine : EventMachine Observation ReadCompletion (List Action) StdException where
  step := onRead

/-- A read of a head after a head that ended or broke finds a parser in its
initial state. -/
def Restarted (o : Observation) : Prop :=
  o.stopped = true → o.connection.headerBuffer = true → o.connection.requestParser = .methodStart

end Observation

/-- The bytes from `start` on up to `stop`. -/
def segment (s : Bytes) (start stop : Nat) : Bytes :=
  (s.take stop).drop start

/-- Every dispatch has a segment of its own that is a request head and ends where
the parser completed the head of this dispatch. -/
def OwnSegments (s : Bytes) (ends : List Nat) : Prop :=
  ∃ segments : List (Nat × Nat), segments.map Prod.snd = ends ∧
    (∀ bounds ∈ segments, bounds.2 ≤ s.length ∧ IsHead (segment s bounds.1 bounds.2)) ∧
    segments.Pairwise fun a b => a.2 ≤ b.1 ∨ b.2 ≤ a.1

theorem segment_append {s : Bytes} {stop : Nat} (within : stop ≤ s.length) (more : Bytes)
    (start : Nat) : segment (s ++ more) start stop = segment s start stop := by
  rw [segment, List.take_append_of_le_length within, segment]

theorem segment_skip (skipped current : Bytes) (n : Nat) :
    segment (skipped ++ current) skipped.length (skipped.length + n) = current.take n := by
  rw [segment, List.take_length_add_append, List.drop_left]

/-- A parser that gives up in its initial state has not touched the request. -/
theorem untouched_of_bad {current chunk : Bytes} {p : State} {r req : Request} {n : Nat}
    (advanced : scanner.advance (.methodStart, {}) current = some (p, r))
    (parsed : parse p r chunk = ⟨bad, (.methodStart, req), n⟩) : req = {} := by
  rcases scanner.scan_cases (p, r) chunk with ⟨last, -, scanned⟩ |
    ⟨us, b, vs, ⟨before, reqBefore⟩, verdict, last, -, reached, step, -, scanned⟩
  · rw [parse, scanned] at parsed
    cases parsed
  · rw [parse, scanned] at parsed
    cases parsed
    have same := consume_bad step
    cases same
    exact (progress_of_advance (Scanner.advance_trans advanced reached)).1

/-- Where a connection stands in the bytes it has received, as long as every head
is started afresh. -/
inductive Standing (s : Bytes) (o : Observation) : Prop
  | reading (skipped current : Bytes) (split : s = skipped ++ current)
      (header : o.connection.headerBuffer = true) (none : o.dispatchEnds = [])
      (advanced : scanner.advance (.methodStart, {}) current =
        some (o.connection.requestParser, o.connection.req))
  | collecting (start : Nat) (body : o.connection.headerBuffer = false)
      (parser : o.connection.requestParser = .expectingNewline3) (stopped : o.stopped = true)
      (none : o.dispatchEnds = []) (within : o.headEnd ≤ s.length)
      (head : IsHead (segment s start o.headEnd))
  | finished (header : o.connection.headerBuffer = true) (stopped : o.stopped = true)
      (parser : o.connection.requestParser ≠ .methodStart) (own : OwnSegments s o.dispatchEnds)

theorem ownSegments_nil (s : Bytes) : OwnSegments s [] :=
  ⟨[], rfl, by simp, .nil⟩

theorem ownSegments_singleton {s : Bytes} {start stop : Nat} (within : stop ≤ s.length)
    (head : IsHead (segment s start stop)) : OwnSegments s [stop] :=
  ⟨[(start, stop)], rfl, by simpa using ⟨within, head⟩, List.pairwise_singleton _ _⟩

theorem Standing.own {s : Bytes} {o : Observation} (standing : Standing s o) :
    OwnSegments s o.dispatchEnds := by
  cases standing with
  | reading skipped current split header none =>
      rw [none]
      exact ownSegments_nil s
  | collecting start body parser stopped none =>
      rw [none]
      exact ownSegments_nil s
  | finished header stopped parser own => exact own

theorem verdict_of_header {o : Observation} {r : ReadCompletion}
    {parsed : ScanResult (State × Request) ResultType} (header : o.connection.headerBuffer = true)
    (parsedEq : parse o.connection.requestParser o.connection.req r.chunk.bytes = parsed) :
    o.verdict r = some parsed := by
  rw [Observation.verdict, if_pos header, parsedEq]

theorem verdict_of_body {o : Observation} {r : ReadCompletion}
    (body : o.connection.headerBuffer = false) : o.verdict r = none := by
  rw [Observation.verdict, body]
  rfl

/-- The head that a read completes is a segment of everything received. -/
theorem head_of_read (skipped : Bytes) {current chunk : Bytes} {p next : State} {r head : Request} {n : Nat}
    (advanced : scanner.advance (.methodStart, {}) current = some (p, r))
    (parsed : parse p r chunk = ⟨good, (next, head), n⟩) :
    (skipped ++ current).length + n ≤ (skipped ++ current ++ chunk).length ∧
      IsHead (segment (skipped ++ current ++ chunk) skipped.length
        ((skipped ++ current).length + n)) := by
  have whole := parse_continues advanced chunk
  rw [parsed] at whole
  have within := parse_consumed_le p r chunk
  rw [parsed] at within
  have isHead := (good_iff (current ++ chunk) (current.length + n)).mp
    ⟨congrArg ScanResult.verdict whole, congrArg ScanResult.consumed whole⟩
  refine ⟨by simp only [List.length_append] at within ⊢; omega, ?_⟩
  rw [List.append_assoc, List.length_append, Nat.add_assoc, segment_skip]
  exact isHead.2

theorem standing_reading {s : Bytes} {o : Observation} {r : ReadCompletion} {c : Connection}
    {out : List Action} {skipped current : Bytes} (received : o.received = s.length)
    (split : s = skipped ++ current) (none : o.dispatchEnds = [])
    (advanced : scanner.advance (.methodStart, {}) current =
      some (o.connection.requestParser, o.connection.req))
    (header : o.connection.headerBuffer = true) (step : ReadStep o.connection r c out) :
    Standing (s ++ r.chunk.bytes) (o.next r c out) := by
  subst split
  cases step with
  | headContinues _ parsed =>
      refine .reading skipped (current ++ r.chunk.bytes) (by simp) header ?_ ?_
      · simp [Observation.next, none, dispatches]
      · exact Scanner.advance_trans advanced (advance_of_indeterminate parsed)
  | @headBad config n _ parsed =>
      have verdict := verdict_of_header header parsed
      by_cases again : config.1 = .methodStart
      · -- rejected at its first byte: the text starts again after this read
        obtain ⟨state, req⟩ := config
        obtain rfl : state = .methodStart := again
        obtain rfl := untouched_of_bad advanced parsed
        refine .reading (skipped ++ current ++ r.chunk.bytes) [] (by simp) header ?_ rfl
        simp [Observation.next, none, dispatches]
      · refine .finished header ?_ again ?_
        · simp [Observation.next, Observation.stoppedAfter, verdict]
        · simpa [Observation.next, none, dispatches] using ownSegments_nil _
  | headTooLong _ parsed scanned =>
      have verdict := verdict_of_header header parsed
      refine .finished header ?_ ?_ ?_
      · simp [Observation.next, Observation.stoppedAfter, verdict]
      · simp [Observation.next, reject, parse_good_state parsed]
      · simpa [Observation.next, none, dispatches] using ownSegments_nil _
  | headDispatched _ parsed scanned =>
      have verdict := verdict_of_header header parsed
      obtain ⟨within, isHead⟩ := head_of_read skipped advanced parsed
      refine .finished header ?_ ?_ ?_
      · simp [Observation.next, Observation.stoppedAfter, verdict]
      · simp [Observation.next, respond, parse_good_state parsed]
      · have ends := ownSegments_singleton within isHead
        simpa [Observation.next, none, respond, dispatches, Observation.headEndAfter, verdict,
          received] using ends
  | @headThenBody config n i values _ parsed scanned =>
      have verdict := verdict_of_header header parsed
      obtain ⟨within, isHead⟩ := head_of_read skipped advanced parsed
      have headEnd : o.headEndAfter r = (skipped ++ current).length + n := by
        simp only [Observation.headEndAfter, verdict, received]
        rfl
      refine .collecting skipped.length rfl (parse_good_state parsed) ?_ ?_ ?_ ?_
      · simp [Observation.next, Observation.stoppedAfter, verdict]
      · simp [Observation.next, none, dispatches]
      · simpa only [Observation.next, headEnd] using within
      · simpa only [Observation.next, headEnd] using isHead
  | bodyTooLong body | bodyDispatched body | bodyContinues body =>
      rw [header] at body
      cases body

theorem standing_collecting {s : Bytes} {o : Observation} {r : ReadCompletion} {c : Connection}
    {out : List Action} {start : Nat} (body : o.connection.headerBuffer = false)
    (parser : o.connection.requestParser = .expectingNewline3) (stopped : o.stopped = true)
    (none : o.dispatchEnds = []) (within : o.headEnd ≤ s.length)
    (head : IsHead (segment s start o.headEnd)) (step : ReadStep o.connection r c out) :
    Standing (s ++ r.chunk.bytes) (o.next r c out) := by
  have verdict := verdict_of_body (r := r) body
  have stopped' : o.stoppedAfter r = true := by rw [Observation.stoppedAfter, verdict, stopped]
  have headEnd : o.headEndAfter r = o.headEnd := by rw [Observation.headEndAfter, verdict]
  have within' : o.headEnd ≤ (s ++ r.chunk.bytes).length := by
    rw [List.length_append]
    omega
  have head' : IsHead (segment (s ++ r.chunk.bytes) start o.headEnd) := by
    rw [segment_append within]
    exact head
  cases step with
  | headContinues header | headBad header | headTooLong header | headDispatched header
    | headThenBody header =>
      rw [body] at header
      cases header
  | bodyTooLong =>
      refine .finished rfl stopped' ?_ ?_
      · simp [Observation.next, reject, parser]
      · simpa [Observation.next, none, dispatches] using ownSegments_nil _
  | bodyDispatched =>
      refine .finished rfl stopped' ?_ ?_
      · simp [Observation.next, respond, parser]
      · have ends := ownSegments_singleton within' head'
        simpa [Observation.next, none, respond, dispatches, headEnd] using ends
  | bodyContinues =>
      refine .collecting start body parser stopped' ?_ ?_ ?_
      · simp [Observation.next, none, dispatches]
      · simpa only [Observation.next, headEnd] using within'
      · simpa only [Observation.next, headEnd] using head'

/-- Every read of a run in which heads are started afresh. -/
def RestartedRun (reads : List ReadCompletion) : Prop :=
  ∀ before r after o outputs, reads = before ++ r :: after →
    Observation.machine.run {} before = .ok (o, outputs) → o.Restarted

theorem standing_of_run {reads : List ReadCompletion} {o : Observation}
    {outputs : List (List Action)} (ran : Observation.machine.run {} reads = .ok (o, outputs))
    (restarted : RestartedRun reads) :
    o.received = (stream reads).length ∧ Standing (stream reads) o := by
  revert restarted
  apply EventMachine.run_invariant (M := Observation.machine) (fun reads _ o =>
    RestartedRun reads → o.received = (stream reads).length ∧ Standing (stream reads) o) _ _ ran
  · intro _
    exact ⟨rfl, .reading [] [] rfl rfl rfl rfl⟩
  · intro before earlier o r o' out begun ih stepped restarted
    have restartedBefore : RestartedRun before := by
      intro first r' rest o'' outputs' split
      exact restarted first r' (rest ++ [r]) o'' outputs' (by simp [split])
    obtain ⟨received, standing⟩ := ih restartedBefore
    have fresh := restarted before r [] o earlier rfl begun
    change Observation.onRead o r = .ok (o', out) at stepped
    unfold Observation.onRead at stepped
    split at stepped
    · cases stepped
    · rename_i c out' read
      cases stepped
      have step := readStep_of_onRead read
      rw [stream_concat]
      refine ⟨by simp [Observation.next, received], ?_⟩
      cases standing with
      | reading skipped current split header none advanced =>
          exact standing_reading received split none advanced header step
      | collecting start body parser stopped none within head =>
          exact standing_collecting body parser stopped none within head step
      | finished header stopped parser own => exact absurd (fresh stopped header) parser

/-- Observing a connection does not change what it does. -/
theorem observed (o : Observation) (reads : List ReadCompletion) :
    (Observation.machine.run o reads).map (Prod.map Observation.connection id) =
      machine.run o.connection reads := by
  apply EventMachine.run_map
  intro o r
  change (Observation.onRead o r).map _ = Connection.onRead o.connection r
  unfold Observation.onRead
  cases Connection.onRead o.connection r <;> rfl

theorem exists_observation {reads : List ReadCompletion} {c : Connection}
    {outputs : List (List Action)} (ran : machine.run {} reads = .ok (c, outputs)) :
    ∃ o, Observation.machine.run {} reads = .ok (o, outputs) ∧ o.connection = c := by
  have projected := observed {} reads
  rw [ran] at projected
  cases watched : Observation.machine.run {} reads with
  | error e =>
      rw [watched] at projected
      cases projected
  | ok answer =>
      rw [watched] at projected
      cases projected
      exact ⟨answer.1, rfl, rfl⟩

/-- In a run whose heads all start with a fresh parser, the dispatches own
disjoint segments of the stream that are complete request heads. -/
theorem dispatches_own_segments {reads : List ReadCompletion} {c : Connection}
    {outputs : List (List Action)} (ran : machine.run {} reads = .ok (c, outputs))
    (restarted : RestartedRun reads) :
    ∃ o, Observation.machine.run {} reads = .ok (o, outputs) ∧ o.connection = c ∧
      OwnSegments (stream reads) o.dispatchEnds := by
  obtain ⟨o, watched, same⟩ := exists_observation ran
  exact ⟨o, watched, same, (standing_of_run watched restarted).2.own⟩

/-- A byte that starts no head, and then a request. -/
def restartedReads : List ReadCompletion :=
  [textRead "?" 0 (by decide), textRead "GET / HTTP/1.1\r\n\r\n" 0 (by decide)]

theorem restartedReads_restarted : RestartedRun restartedReads := by
  intro before r after o outputs split ran
  have parsers : ∀ first ∈ [[], [textRead "?" 0 (by decide)]],
      (Observation.machine.run {} first).map (fun answer => answer.1.connection.requestParser) =
        .ok .methodStart := by
    decide
  have member : before ∈ [[], [textRead "?" 0 (by decide)]] := by
    match before, split with
    | [], _ => simp
    | [first], split =>
        obtain ⟨rfl, -⟩ := List.cons.inj split
        simp
    | first :: second :: third, split =>
        have lengths := congrArg List.length split
        simp [restartedReads] at lengths
  have parser := parsers before member
  rw [ran] at parser
  intro _ _
  exact Except.ok.inj parser

theorem dispatches_own_segments_restartedReads :
    ∃ c o outputs, Observation.machine.run {} restartedReads = .ok (o, outputs) ∧
      o.connection = c ∧ OwnSegments (stream restartedReads) o.dispatchEnds := by
  let req : Request :=
    { method := ascii "GET", uri := ascii "/", httpVersionMajor := 1, httpVersionMinor := 1 }
  have produced : (machine.run {} restartedReads).map Prod.snd =
      .ok [[.doWrite (stockResponse statusBadRequest)],
        [.handleRequest req (stockResponse statusBadRequest),
          .doWrite (stockResponse statusBadRequest)]] := by
    decide +kernel
  obtain ⟨c, ran⟩ := EventMachine.exists_of_output produced
  obtain ⟨o, watched, same, own⟩ := dispatches_own_segments ran restartedReads_restarted
  exact ⟨c, o, _, watched, same, own⟩

/-- A request, and one more line feed. -/
def replayedReads : List ReadCompletion :=
  [textRead "GET / HTTP/1.1\r\n\r\n" 0 (by decide), textRead "\n" 0 (by decide)]

theorem replayedReads_ends :
    (Observation.machine.run {} replayedReads).map (fun answer => answer.1.dispatchEnds) =
      .ok [18, 19] := by
  decide

theorem no_segments_of_replay : ¬ OwnSegments (stream replayedReads) [18, 19] := by
  rintro ⟨segments, ends, heads, disjoint⟩
  have two : segments.length = 2 := by simpa using congrArg List.length ends
  obtain ⟨first, second, rfl⟩ := List.length_eq_two.mp two
  obtain ⟨firstEnd, rest⟩ := List.cons.inj ends
  obtain ⟨secondEnd, -⟩ := List.cons.inj rest
  have firstHead := (heads first (by simp)).2
  have secondHead := (heads second (by simp)).2
  rw [firstEnd] at firstHead
  rw [secondEnd] at secondHead
  obtain ⟨line, hs, head⟩ := firstHead
  obtain ⟨line', hs', head'⟩ := secondHead
  obtain ⟨b, more, starts, -⟩ := head.first
  obtain ⟨b', more', starts', tchar⟩ := head'.first
  have apart : first.2 ≤ second.1 ∨ second.2 ≤ first.1 := by simpa using disjoint
  rw [firstEnd, secondEnd] at apart
  rcases apart with after | before
  · -- the second segment is at most the last line feed
    have tail : ((stream replayedReads).take 19).drop 18 = [10] := by decide
    have whole : segment (stream replayedReads) second.1 19 = [10].drop (second.1 - 18) := by
      rw [segment, ← tail, List.drop_drop]
      congr 1
      omega
    rw [whole] at starts'
    cases position : second.1 - 18 with
    | zero =>
        rw [position] at starts'
        obtain rfl : 10 = b' := (List.cons.inj starts').1
        exact absurd tchar (by decide)
    | succ k =>
        rw [position] at starts'
        simp at starts'
  · -- the first segment is empty
    have lengths := congrArg List.length starts
    simp only [segment, List.length_drop, List.length_take, List.length_cons] at lengths
    omega

/-- A single line feed repeats the last request, and owns no head of its own. -/
theorem replayed_without_own_segment :
    ¬ ∀ (reads : List ReadCompletion) (o : Observation) (outputs : List (List Action)),
      Observation.machine.run {} reads = .ok (o, outputs) →
      OwnSegments (stream reads) o.dispatchEnds := by
  intro everyRun
  have ends := replayedReads_ends
  cases ran : Observation.machine.run {} replayedReads with
  | error e =>
      rw [ran] at ends
      cases ends
  | ok answer =>
      rw [ran] at ends
      have own := everyRun replayedReads answer.1 answer.2 ran
      have endsEq : answer.1.dispatchEnds = [18, 19] := Except.ok.inj ends
      rw [endsEq] at own
      exact no_segments_of_replay own

end CleanArchitecture.Connection
