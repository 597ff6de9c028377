import CleanArchitecture.ConnectionReuse
import CleanArchitecture.SignedNumerals

/-!
# Values of Content-Length headers

The value of a Content-Length header is converted as it stands.  A value that does not
begin with a number ends the handler with an exception, and whatever follows the number
that a value begins with is ignored.
-/

namespace CleanArchitecture.Connection

open RequestParser RequestGrammar ResultType

/-! ## Numbers that an `int` represents -/

/-- Decimal digits with or without a sign, of a number that an `int` represents. -/
def IsIntNumeral (v : Bytes) : Prop :=
  ∃ digits N, IsNumeral digits N ∧
    (v = digits ∧ N < 2 ^ 31 ∨ v = ascii "+" ++ digits ∧ N < 2 ^ 31 ∨
      v = ascii "-" ++ digits ∧ N ≤ 2 ^ 31)

theorem isSignedNumeral_of_isIntNumeral {v : Bytes} (numeral : IsIntNumeral v) :
    ∃ z, IsSignedNumeral v z ∧ -2 ^ 31 ≤ z ∧ z < 2 ^ 31 := by
  obtain ⟨digits, N, isNumeral, kind⟩ := numeral
  rcases kind with ⟨rfl, small⟩ | ⟨rfl, small⟩ | ⟨rfl, small⟩
  · exact ⟨N, ⟨_, N, isNumeral, .inl ⟨rfl, rfl⟩⟩, by omega, by omega⟩
  · exact ⟨N, ⟨digits, N, isNumeral, .inr (.inl ⟨rfl, rfl⟩)⟩, by omega, by omega⟩
  · exact ⟨-N, ⟨digits, N, isNumeral, .inr (.inr ⟨rfl, rfl⟩)⟩, by omega, by omega⟩

/-- Every such number is converted. -/
theorem stoi_of_isIntNumeral {v : Bytes} (numeral : IsIntNumeral v) : ∃ n, stoi v = .ok n := by
  obtain ⟨z, isSigned, low, high⟩ := isSignedNumeral_of_isIntNumeral numeral
  have found : signedNumber v = some z :=
    signedNumber_eq_some_iff.mpr ⟨[], v, [], leadingNumber_whole isSigned⟩
  exact ⟨z, stoi_ok_iff.mpr ⟨found, low, high⟩⟩

/-! ## Answers to a value -/

/-- A read that completes a head. -/
def Completes (c : Connection) (last : ReadCompletion) (head : Request) : Prop :=
  c.headerBuffer = true ∧ ∃ next n,
    parse c.requestParser c.req last.chunk.bytes = ⟨good, (next, head), n⟩

/-- The header loop converts the value `v` of a Content-Length header when it has counted
to `i` and set the values of `req`. -/
def Converts (head : Request) (v : Bytes) (i : Nat) (req : Request) (h : Header) : Prop :=
  h.value = v ∧ IsContentLength h ∧ ∃ before after, head.headers = before ++ h :: after ∧
    scanHeaders before 0 head = .ok (i, req) ∧ i ≤ 2 ∧ req.contentLen = -1

/-- Whenever a connection converts the value, it throws no exception, and unless the value
is the decimal numeral of an `int`, the request is answered as a bad one. -/
def Survives (v : Bytes) : Prop :=
  ∀ reads last c outputs head i req h, machine.run {} reads = .ok (c, outputs) →
    Completes c last head → Converts head v i req h →
    (∃ next, scanHeader i req h = .ok next) ∧
      (¬ IsIntNumeral v →
        ∃ c', onRead c last = .ok (c', [.doWrite (stockResponse statusBadRequest)]))

theorem scanHeader_of_converts {head req : Request} {v : Bytes} {i : Nat} {h : Header}
    (converts : Converts head v i req h) :
    scanHeader i req h =
      (stoi v).map fun n => (i + 1, { req with contentLen := n }) := by
  obtain ⟨rfl, name, before, after, -, -, -, unset⟩ := converts
  rw [scanHeader, if_pos ⟨unset, name⟩]
  cases stoi h.value <;> rfl

/-! ## A head that arrives byte by byte -/

/-- A read of one byte, and a handler that changes nothing. -/
def byteRead (b : UInt8) : ReadCompletion where
  chunk := ⟨[b], by unfold bufferSize; simp⟩
  available := 0
  handler req res := (req, res)

theorem onRead_of_indeterminate {c : Connection} {r : ReadCompletion} {config : State × Request}
    {n : Nat} (header : c.headerBuffer = true)
    (parsed : parse c.requestParser c.req r.chunk.bytes = ⟨indeterminate, config, n⟩) :
    onRead c r =
      .ok ({ c.received r with requestParser := config.1, req := config.2 }, [.doRead]) := by
  have takeChunk : (c.received r).buffer.data.take r.chunk.bytes.length = r.chunk.bytes :=
    ReadBuffer.take_receive c.buffer r.chunk
  change (if c.headerBuffer then
      handleHeaderBuffer (c.received r) r.chunk.bytes.length r.available r.handler
    else handleBodyBuffer (c.received r) r.chunk.bytes.length r.available r.handler) = _
  rw [if_pos header, handleHeaderBuffer, takeChunk, received_requestParser, received_req, parsed]

/-- Bytes that the parser consumes without a verdict may be read one after the other. -/
theorem run_byteReads {c : Connection} {s : Bytes} {config : State × Request}
    (header : c.headerBuffer = true)
    (advanced : scanner.advance (c.requestParser, c.req) s = some config) :
    ∃ c' outputs, machine.run c (s.map byteRead) = .ok (c', outputs) ∧ c'.headerBuffer = true ∧
      (c'.requestParser, c'.req) = config := by
  induction s generalizing c with
  | nil =>
      cases advanced
      exact ⟨c, [], rfl, header, rfl⟩
  | cons b s ih =>
      rcases stepped : scanner.step (c.requestParser, c.req) b with ⟨verdict, next⟩
      cases stopped : scanner.stops verdict with
      | true => simp [Scanner.advance, stepped, stopped] at advanced
      | false =>
          rw [Scanner.advance_cons stepped stopped] at advanced
          have parsed : parse c.requestParser c.req (byteRead b).chunk.bytes =
              ⟨indeterminate, next, 1⟩ := by
            change scanner.scan (c.requestParser, c.req) [b] = _
            rw [Scanner.scan]
            simp only [stepped, stopped]
            rfl
          obtain ⟨c', outputs, ran, header', rest⟩ := ih
            (c := { c.received (byteRead b) with requestParser := next.1, req := next.2 })
            header advanced
          exact ⟨c', _, EventMachine.run_cons_ok.mpr
            ⟨_, _, outputs, onRead_of_indeterminate header parsed, ran, rfl⟩, header', rest⟩

/-- Every head can arrive at a new connection, its last byte in a read of its own. -/
theorem completes_of_head {w : Bytes} {line : RequestLine} {hs : List Header}
    (head : Head w line hs) :
    ∃ reads b c outputs, machine.run {} reads = .ok (c, outputs) ∧ c.headerBuffer = true ∧
      parse c.requestParser c.req (byteRead b).chunk.bytes =
        ⟨good, (.expectingNewline3, headRequest line hs), 1⟩ := by
  have whole := parse_of_head head
  rcases scanner.scan_cases (.methodStart, ({} : Request)) w with ⟨last, -, scanned⟩ |
    ⟨first, b, rest, config, verdict, last, -, advanced, stepped, stops, scanned⟩
  · rw [parse, scanned] at whole
    cases whole
  · rw [parse, scanned] at whole
    obtain ⟨rfl, rfl, -⟩ := ScanResult.mk.inj whole
    obtain ⟨c, outputs, ran, header, here⟩ := run_byteReads (c := {}) rfl advanced
    refine ⟨first.map byteRead, b, c, outputs, ran, header, ?_⟩
    change scanner.scan (c.requestParser, c.req) [b] = _
    rw [here, Scanner.scan]
    simp only [stepped, stops]
    rfl

/-- A head with one Content-Length header. -/
theorem head_of_value {v : Bytes} (plain : Text v) :
    ∃ w, Head w plainLine [⟨ascii "Content-Length", v⟩] := by
  have field : FieldText (ascii "Content-Length" ++ [58, 32] ++ v) ⟨ascii "Content-Length", v⟩ :=
    .first ⟨by decide, by decide +kernel⟩ plain
  exact ⟨_, .mk plainLine (.snoc .nil field)⟩

/-! ## The values that the handler survives -/

/-- A value of a Content-Length header is converted without an exception, and answered as a
bad request unless it is the decimal numeral of an `int`, if and only if it is one. -/
theorem survives_iff {v : Bytes} (plain : Text v) : Survives v ↔ IsIntNumeral v := by
  constructor
  · intro survives
    by_contra notNumeral
    obtain ⟨w, head⟩ := head_of_value plain
    obtain ⟨reads, b, c, outputs, ran, header, parsed⟩ := completes_of_head head
    have named : IsContentLength ⟨ascii "Content-Length", v⟩ := by
      change iequals (ascii "Content-Length") (ascii "content-length") = true
      decide
    have converts : Converts (headRequest plainLine [⟨ascii "Content-Length", v⟩]) v 0
        (headRequest plainLine [⟨ascii "Content-Length", v⟩]) ⟨ascii "Content-Length", v⟩ :=
      ⟨rfl, named, [], [], rfl, rfl, Nat.zero_le 2, rfl⟩
    obtain ⟨⟨next, scanned⟩, refused⟩ := survives reads (byteRead b) c outputs _ _ _ _ ran
      ⟨header, _, _, parsed⟩ converts
    obtain ⟨c', answered⟩ := refused notNumeral
    rw [scanHeader_of_converts converts] at scanned
    cases converted : stoi v with
    | error e =>
        rw [converted] at scanned
        cases scanned
    | ok n =>
        have values : scanHeaders [⟨ascii "Content-Length", v⟩] 0
            (headRequest plainLine [⟨ascii "Content-Length", v⟩]) =
              .ok (1, { headRequest plainLine [⟨ascii "Content-Length", v⟩] with
                contentLen := n }) := by
          rw [scanHeaders_cons]
          refine ⟨1, _, ?_, .inr ⟨by decide, rfl⟩⟩
          rw [scanHeader_of_converts converts, converted]
          rfl
        -- the head has no body, so any length lets it through to the request handler
        have dispatched := onRead_of_good header parsed values
        have nothingLeft : (byteRead b).available = 0 := rfl
        have fits : (byteRead b).chunk.bytes.length - 1 = 0 := rfl
        rw [if_pos nothingLeft, fits, if_neg (Nat.not_lt_zero _), answered] at dispatched
        cases dispatched
  · intro numeral reads last c outputs head i req h ran completes converts
    obtain ⟨n, converted⟩ := stoi_of_isIntNumeral numeral
    constructor
    · refine ⟨(i + 1, { req with contentLen := n }), ?_⟩
      rw [scanHeader_of_converts converts, converted]
      rfl
    · intro notNumeral
      exact absurd numeral notNumeral

theorem survives_minus_twelve : Survives (ascii "-12") :=
  (survives_iff (by unfold Text; decide +kernel)).mpr
    ⟨ascii "12", 12, ⟨by decide, by decide +kernel, by decide⟩, .inr (.inr ⟨rfl, by decide⟩)⟩

/-- A length that is a word. -/
def wordLengthRead : ReadCompletion :=
  textRead "POST / HTTP/1.1\r\nContent-Length: abc\r\n\r\n" 0 (by decide)

/-- The word throws, and is not answered. -/
theorem wordLength_throws : onRead {} wordLengthRead = .error .invalidArgument := by
  apply EventMachine.error_of_output
  decide +kernel

end CleanArchitecture.Connection
