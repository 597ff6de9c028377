import CleanArchitecture.LengthValues
import CleanArchitecture.ParserInvariant
import CleanArchitecture.RequestAssembly

/-!
# How much of a stream becomes a request head

Every read is bounded by the buffer, but the parser goes on with the next read as long as a
head is not complete.  What it consumes, and what the request collects meanwhile, is
bounded by the buffer only where the first bytes decide about the head.
-/

namespace CleanArchitecture.Connection

open RequestParser RequestGrammar ResultType State

/-! ## The size of a request -/

def fieldSize (h : Header) : Nat :=
  h.name.length + h.value.length

def headersSize (headers : List Header) : Nat :=
  (headers.map fieldSize).sum

/-- The bytes of the method, the uri and the header fields. -/
def headSize (req : Request) : Nat :=
  req.method.length + req.uri.length + headersSize req.headers

theorem headersSize_concat (headers : List Header) (last : Header) :
    headersSize (headers ++ [last]) = headersSize headers + fieldSize last := by
  simp [headersSize]

/-- A change of the last header that adds at most one byte to it. -/
theorem headersSize_modifyLast_le {f : Header → Header}
    (grows : ∀ h, fieldSize (f h) ≤ fieldSize h + 1) (headers : List Header) :
    headersSize (headers.modifyLast f) ≤ headersSize headers + 1 := by
  cases headers using List.reverseRecOn with
  | nil => exact Nat.zero_le _
  | append_singleton headers last =>
      have bound := grows last
      rw [List.modifyLast_concat, headersSize_concat, headersSize_concat]
      omega

theorem headersSize_pushName_le (headers : List Header) (b : UInt8) :
    headersSize (pushName headers b) ≤ headersSize headers + 1 := by
  apply headersSize_modifyLast_le
  intro h
  simp only [fieldSize, List.length_append, List.length_singleton]
  omega

theorem headersSize_pushValue_le (headers : List Header) (b : UInt8) :
    headersSize (pushValue headers b) ≤ headersSize headers + 1 := by
  apply headersSize_modifyLast_le
  intro h
  simp only [fieldSize, List.length_append, List.length_singleton]
  omega

/-- A byte adds at most itself to the request. -/
theorem headSize_consume_le (config : State × Request) (b : UInt8) :
    headSize (scanner.step config b).2.2 ≤ headSize config.2 + 1 := by
  obtain ⟨state, req⟩ := config
  change headSize (consume state req b).2.2 ≤ headSize req + 1
  have effect := effect_consume state req b
  rcases answered : consume state req b with ⟨verdict, next, req'⟩
  rw [answered] at effect
  cases effect with
  | rejected | completed | moved => exact Nat.le_succ _
  | versionStarted | majorPushed | minorPushed => exact Nat.le_succ (headSize req)
  | methodPushed =>
      simp only [headSize, List.length_append, List.length_singleton]
      omega
  | uriPushed =>
      simp only [headSize, List.length_append, List.length_singleton]
      omega
  | nameStarted =>
      have empty : fieldSize {} = 0 := rfl
      have bound := headersSize_pushName_le (req.headers ++ [({} : Header)]) b
      rw [headersSize_concat, empty] at bound
      simp only [headSize]
      omega
  | namePushed =>
      have bound := headersSize_pushName_le req.headers b
      simp only [headSize]
      omega
  | valuePushed =>
      have bound := headersSize_pushValue_le req.headers b
      simp only [headSize]
      omega

theorem headSize_parse_le (state : State) (req : Request) (input : Bytes) :
    headSize (parse state req input).state.2 ≤ headSize req + (parse state req input).consumed :=
  Scanner.scan_measure_le (fun config => headSize config.2) headSize_consume_le (state, req) input

/-! ## The first head of a connection -/

/-- What the parser consumes of the reads before it gives a verdict, and the request it
fills meanwhile. -/
def readHead (c : Connection) : List ReadCompletion → Nat × Request
  | [] => (0, c.req)
  | r :: reads =>
      let parsed := parse c.requestParser c.req r.chunk.bytes
      match parsed.verdict, onRead c r with
      | indeterminate, .ok (c', _) =>
          let rest := readHead c' reads
          (parsed.consumed + rest.1, rest.2)
      | _, _ => (parsed.consumed, parsed.state.2)

/-- After each of the reads at most a buffer of bytes has been consumed for the head, and the
request holds no more. -/
def HeadBounded (reads : List ReadCompletion) : Prop :=
  ∀ first, first <+: reads →
    (readHead {} first).1 ≤ bufferSize ∧ headSize (readHead {} first).2 ≤ bufferSize

/-- The reads are parsed as one text. -/
theorem readHead_eq {c : Connection} (header : c.headerBuffer = true)
    (reads : List ReadCompletion) :
    readHead c reads =
      ((parse c.requestParser c.req (stream reads)).consumed,
        (parse c.requestParser c.req (stream reads)).state.2) := by
  induction reads generalizing c with
  | nil => rfl
  | cons r reads ih =>
      have whole : stream (r :: reads) = r.chunk.bytes ++ stream reads := rfl
      rcases parsed : parse c.requestParser c.req r.chunk.bytes with ⟨verdict, config, n⟩
      have stopped : scanner.stops verdict = true →
          parse c.requestParser c.req (stream (r :: reads)) = ⟨verdict, config, n⟩ := by
        intro stops
        have here : scanner.stops (parse c.requestParser c.req r.chunk.bytes).verdict = true := by
          rw [parsed]
          exact stops
        rw [whole, parse, Scanner.scan_append_of_stops here, ← parse, parsed]
      cases verdict with
      | indeterminate =>
          have advanced := advance_of_indeterminate parsed
          have stepped := onRead_of_indeterminate header parsed
          have length : n = r.chunk.bytes.length := by
            have scanned := Scanner.scan_of_advance advanced
            rw [← parse, parsed] at scanned
            exact congrArg ScanResult.consumed scanned
          have rest := ih (c := { c.received r with requestParser := config.1, req := config.2 })
            header
          rw [whole, parse_continues advanced, ← length]
          simp only [readHead, parsed, stepped, rest]
      | good =>
          rw [stopped rfl]
          simp only [readHead, parsed]
      | bad =>
          rw [stopped rfl]
          simp only [readHead, parsed]

/-- The request holds no more than has been consumed. -/
theorem headSize_readHead_le (reads : List ReadCompletion) :
    headSize (readHead {} reads).2 ≤ (readHead {} reads).1 := by
  rw [readHead_eq rfl]
  have bound := headSize_parse_le methodStart {} (stream reads)
  have empty : headSize {} = 0 := rfl
  rwa [empty, Nat.zero_add] at bound

/-- At most a buffer of bytes is consumed exactly when there are no more bytes or the first
ones decide about the head. -/
theorem readHead_le_iff (reads : List ReadCompletion) :
    (readHead {} reads).1 ≤ bufferSize ↔
      (stream reads).length ≤ bufferSize ∨
        ¬ ∃ rest, rest ≠ [] ∧ IsHead ((stream reads).take bufferSize ++ rest) := by
  rw [readHead_eq rfl, ← indeterminate_iff]
  exact Scanner.consumed_le_iff (methodStart, ({} : Request)) (stream reads) bufferSize

theorem stream_append (first second : List ReadCompletion) :
    stream (first ++ second) = stream first ++ stream second :=
  List.flatMap_append

/-- The head of a new connection stays within the buffer, after each of its reads, if and
only if the bytes fit the buffer or its first bytes are not the beginning of a longer head. -/
theorem head_bounded_iff (reads : List ReadCompletion) :
    HeadBounded reads ↔
      (stream reads).length ≤ bufferSize ∨
        ¬ ∃ rest, rest ≠ [] ∧ IsHead ((stream reads).take bufferSize ++ rest) := by
  constructor
  · intro bounded
    exact (readHead_le_iff reads).mp (bounded reads (List.prefix_refl reads)).1
  · rintro decided first ⟨later, rfl⟩
    have within : (readHead {} first).1 ≤ bufferSize := by
      rw [readHead_le_iff]
      rw [stream_append, List.length_append] at decided
      by_cases short : (stream first).length ≤ bufferSize
      · exact Or.inl short
      · -- the first bytes are the same as those of all the reads
        rcases decided with fits | undecided
        · exact absurd ((Nat.le_add_right _ _).trans fits) short
        · rw [List.take_append_of_le_length (Nat.le_of_not_le short)] at undecided
          exact Or.inr undecided
    exact ⟨within, (headSize_readHead_le first).trans within⟩

/-! ## A method longer than the buffer -/

/-- A read of the letter G, as often as fits the buffer. -/
def fullRead : ReadCompletion where
  chunk := ⟨List.replicate bufferSize 71, Nat.le_of_eq List.length_replicate⟩
  available := 0
  handler req res := (req, res)

/-- Two reads are taken for the beginning of one method. -/
theorem long_method_is_collected :
    (readHead {} [fullRead, fullRead]).1 = 2 * bufferSize ∧
      (readHead {} [fullRead, fullRead]).2.method.length = 2 * bufferSize ∧
      ¬ HeadBounded [fullRead, fullRead] := by
  have text : stream [fullRead, fullRead] = List.replicate (2 * bufferSize) 71 := by
    rw [two_mul, ← List.replicate_append_replicate]
    simp [stream, fullRead]
  have token : Token (List.replicate (2 * bufferSize) 71) := by
    constructor
    · apply List.ne_nil_of_length_pos
      rw [List.length_replicate, bufferSize]
      omega
    · intro b member
      rw [List.eq_of_mem_replicate member]
      decide
  have parsed := Scanner.scan_of_advance (advance_method token)
  have progress : readHead {} [fullRead, fullRead] =
      (2 * bufferSize, { method := List.replicate (2 * bufferSize) 71 }) := by
    rw [readHead_eq rfl, text, parse, parsed, List.length_replicate]
  refine ⟨by rw [progress], by rw [progress, List.length_replicate], ?_⟩
  intro bounded
  have bound := (bounded [fullRead, fullRead] (List.prefix_refl _)).1
  rw [progress] at bound
  simp [bufferSize] at bound

end CleanArchitecture.Connection
