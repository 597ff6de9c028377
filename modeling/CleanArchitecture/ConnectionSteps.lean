import CleanArchitecture.Connection
import CleanArchitecture.ParserInvariant

/-!
# What a completed read can do

One inversion lemma lists the eight outcomes of a completed read that does not
throw.  The buffer disappears from them: both handlers see exactly the bytes of
the last read.
-/

namespace CleanArchitecture.Connection

open RequestParser ResultType

theorem bodySize_eq {bytesTransferred consumed : Nat} (within : consumed ≤ bytesTransferred)
    (fits : bytesTransferred ≤ bufferSize) :
    bodySize bytesTransferred consumed = bytesTransferred - consumed := by
  unfold bufferSize at fits
  unfold bodySize toUint32 toSizeT
  omega

theorem parse_consumed_le (state : State) (req : Request) (input : Bytes) :
    (parse state req input).consumed ≤ input.length :=
  scanner.scan_consumed_le (state, req) input

/-- The connection after a read has been received into its buffer. -/
def received (c : Connection) (r : ReadCompletion) : Connection :=
  { c with buffer := c.buffer.receive r.chunk }

@[simp] theorem received_headerBuffer (c : Connection) (r : ReadCompletion) :
    (c.received r).headerBuffer = c.headerBuffer := rfl

@[simp] theorem received_req (c : Connection) (r : ReadCompletion) :
    (c.received r).req = c.req := rfl

@[simp] theorem received_requestParser (c : Connection) (r : ReadCompletion) :
    (c.received r).requestParser = c.requestParser := rfl

@[simp] theorem received_res (c : Connection) (r : ReadCompletion) :
    (c.received r).res = c.res := rfl

/-- The outcomes of a completed read. -/
inductive ReadStep (c : Connection) (r : ReadCompletion) : Connection → List Action → Prop
  | headContinues {config : State × Request} {n : Nat} (header : c.headerBuffer = true)
      (parsed : parse c.requestParser c.req r.chunk.bytes = ⟨indeterminate, config, n⟩) :
      ReadStep c r { c.received r with requestParser := config.1, req := config.2 } [.doRead]
  | headBad {config : State × Request} {n : Nat} (header : c.headerBuffer = true)
      (parsed : parse c.requestParser c.req r.chunk.bytes = ⟨bad, config, n⟩) :
      ReadStep c r (reject { c.received r with requestParser := config.1, req := config.2 }).1
        [.doWrite (stockResponse statusBadRequest)]
  | headTooLong {config : State × Request} {n i : Nat} {req : Request}
      (header : c.headerBuffer = true)
      (parsed : parse c.requestParser c.req r.chunk.bytes = ⟨good, config, n⟩)
      (scanned : scanHeaders config.2.headers 0 config.2 = .ok (i, req))
      (nothingLeft : r.available = 0)
      (tooLong : r.chunk.bytes.length - n > toUint32 req.contentLen) :
      ReadStep c r (reject { c.received r with requestParser := config.1, req := req }).1
        [.doWrite (stockResponse statusBadRequest)]
  | headDispatched {config : State × Request} {n i : Nat} {req : Request}
      (header : c.headerBuffer = true)
      (parsed : parse c.requestParser c.req r.chunk.bytes = ⟨good, config, n⟩)
      (scanned : scanHeaders config.2.headers 0 config.2 = .ok (i, req))
      (nothingLeft : r.available = 0)
      (fits : r.chunk.bytes.length - n ≤ toUint32 req.contentLen) :
      ReadStep c r
        (respond { c.received r with
          requestParser := config.1
          req := { req with body := r.chunk.bytes.drop n } } r.handler).1
        (respond { c.received r with
          requestParser := config.1
          req := { req with body := r.chunk.bytes.drop n } } r.handler).2
  | headThenBody {config : State × Request} {n i : Nat} {req : Request}
      (header : c.headerBuffer = true)
      (parsed : parse c.requestParser c.req r.chunk.bytes = ⟨good, config, n⟩)
      (scanned : scanHeaders config.2.headers 0 config.2 = .ok (i, req))
      (moreLeft : r.available ≠ 0) :
      ReadStep c r
        { c.received r with
          requestParser := config.1
          req := { req with body := r.chunk.bytes.drop n }
          headerBuffer := false } []
  | bodyTooLong (collecting : c.headerBuffer = false)
      (appended : (c.req.body ++ r.chunk.bytes).length ≤ maxSize)
      (tooLong : (c.req.body ++ r.chunk.bytes).length > toSizeT c.req.contentLen) :
      ReadStep c r
        (reject { c.received r with
          req := { c.req with body := c.req.body ++ r.chunk.bytes }
          headerBuffer := true }).1
        [.doWrite (stockResponse statusBadRequest)]
  | bodyDispatched (collecting : c.headerBuffer = false)
      (appended : (c.req.body ++ r.chunk.bytes).length ≤ maxSize)
      (fits : (c.req.body ++ r.chunk.bytes).length ≤ toSizeT c.req.contentLen)
      (nothingLeft : r.available = 0) :
      ReadStep c r
        (respond { c.received r with
          req := { c.req with body := c.req.body ++ r.chunk.bytes }
          headerBuffer := true } r.handler).1
        (respond { c.received r with
          req := { c.req with body := c.req.body ++ r.chunk.bytes }
          headerBuffer := true } r.handler).2
  | bodyContinues (collecting : c.headerBuffer = false)
      (appended : (c.req.body ++ r.chunk.bytes).length ≤ maxSize)
      (fits : (c.req.body ++ r.chunk.bytes).length ≤ toSizeT c.req.contentLen)
      (moreLeft : r.available ≠ 0) :
      ReadStep c r { c.received r with req := { c.req with body := c.req.body ++ r.chunk.bytes } }
        [.doRead]

/-- The bytes of a read after the head that ends in it. -/
theorem body_of_read (buffer : ReadBuffer) (chunk : Chunk) (n : Nat)
    (within : n ≤ chunk.bytes.length) :
    ((buffer.receive chunk).data.drop n).take (bodySize chunk.bytes.length n) =
      chunk.bytes.drop n := by
  rw [bodySize_eq within chunk.fits, ← List.drop_take, ReadBuffer.take_receive]

theorem readStep_of_header {c c' : Connection} {r : ReadCompletion} {out : List Action}
    (header : c.headerBuffer = true)
    (handled : handleHeaderBuffer (c.received r) r.chunk.bytes.length r.available r.handler =
      .ok (c', out)) : ReadStep c r c' out := by
  have within := parse_consumed_le c.requestParser c.req r.chunk.bytes
  have takeChunk : (c.received r).buffer.data.take r.chunk.bytes.length = r.chunk.bytes :=
    ReadBuffer.take_receive c.buffer r.chunk
  simp only [handleHeaderBuffer, takeChunk, received_requestParser, received_req] at handled
  rcases parsed : parse c.requestParser c.req r.chunk.bytes with ⟨verdict, config, n⟩
  rw [parsed] at handled within
  cases verdict with
  | indeterminate =>
      cases handled
      exact .headContinues header parsed
  | bad =>
      cases handled
      exact .headBad header parsed
  | good =>
      have bodyEq : ((c.received r).buffer.data.drop n).take (bodySize r.chunk.bytes.length n) =
          r.chunk.bytes.drop n := body_of_read c.buffer r.chunk n within
      have sizeEq := bodySize_eq within r.chunk.fits
      simp only [bodyEq] at handled
      split at handled
      · cases handled
      · rename_i i req scanned
        split at handled
        · rename_i nothingLeft
          split at handled
          · rename_i tooLong
            rw [sizeEq] at tooLong
            cases handled
            exact .headTooLong header parsed scanned nothingLeft tooLong
          · rename_i fits
            rw [sizeEq] at fits
            cases handled
            exact .headDispatched header parsed scanned nothingLeft (Nat.le_of_not_gt fits)
        · rename_i moreLeft
          cases handled
          exact .headThenBody header parsed scanned moreLeft

theorem readStep_of_body {c c' : Connection} {r : ReadCompletion} {out : List Action}
    (collecting : c.headerBuffer = false)
    (handled : handleBodyBuffer (c.received r) r.chunk.bytes.length r.available r.handler =
      .ok (c', out)) : ReadStep c r c' out := by
  have takeChunk : (c.received r).buffer.data.take r.chunk.bytes.length = r.chunk.bytes :=
    ReadBuffer.take_receive c.buffer r.chunk
  simp only [handleBodyBuffer, takeChunk, received_req] at handled
  split at handled
  · cases handled
  · rename_i body appended
    obtain ⟨rfl, size⟩ := append_ok appended
    by_cases tooLong : (c.req.body ++ r.chunk.bytes).length > toSizeT c.req.contentLen
    · simp only [tooLong, if_true] at handled
      cases handled
      exact .bodyTooLong collecting size tooLong
    · simp only [tooLong, if_false] at handled
      have fits := Nat.le_of_not_gt tooLong
      by_cases nothingLeft : r.available = 0
      · simp only [nothingLeft, if_true] at handled
        cases handled
        exact .bodyDispatched collecting size fits nothingLeft
      · simp only [nothingLeft, if_false] at handled
        cases handled
        exact .bodyContinues collecting size fits nothingLeft

theorem readStep_of_onRead {c c' : Connection} {r : ReadCompletion} {out : List Action}
    (stepped : onRead c r = .ok (c', out)) : ReadStep c r c' out := by
  simp only [onRead] at stepped
  split at stepped
  · rename_i header
    exact readStep_of_header header stepped
  · rename_i collecting
    exact readStep_of_body (Bool.eq_false_iff.mpr collecting) stepped

/-- What happens to a read that completes a head whose values can be converted. -/
theorem onRead_of_good {c : Connection} {r : ReadCompletion} {config : State × Request} {n i : Nat}
    {req : Request} (header : c.headerBuffer = true)
    (parsed : parse c.requestParser c.req r.chunk.bytes = ⟨good, config, n⟩)
    (scanned : scanHeaders config.2.headers 0 config.2 = .ok (i, req)) :
    onRead c r =
      if r.available = 0 then
        if r.chunk.bytes.length - n > toUint32 req.contentLen then
          .ok (reject { c.received r with requestParser := config.1, req := req })
        else
          .ok (respond { c.received r with
            requestParser := config.1
            req := { req with body := r.chunk.bytes.drop n } } r.handler)
      else
        .ok ({ c.received r with
          requestParser := config.1
          req := { req with body := r.chunk.bytes.drop n }
          headerBuffer := false }, []) := by
  have takeChunk : (c.received r).buffer.data.take r.chunk.bytes.length = r.chunk.bytes :=
    ReadBuffer.take_receive c.buffer r.chunk
  have within := parse_consumed_le c.requestParser c.req r.chunk.bytes
  rw [parsed] at within
  have bodyEq : ((c.received r).buffer.data.drop n).take (bodySize r.chunk.bytes.length n) =
      r.chunk.bytes.drop n := body_of_read c.buffer r.chunk n within
  have sizeEq : bodySize r.chunk.bytes.length n = r.chunk.bytes.length - n :=
    bodySize_eq within r.chunk.fits
  have handled : onRead c r =
      handleHeaderBuffer (c.received r) r.chunk.bytes.length r.available r.handler :=
    if_pos header
  rw [handled]
  simp only [handleHeaderBuffer, takeChunk, received_requestParser, received_req, parsed, scanned,
    bodyEq]
  rw [sizeEq]

/-! ## Frames -/

/-- The fields of a request that are filled after its head has been parsed. -/
def SameValues (a b : Request) : Prop :=
  a.contentLen = b.contentLen ∧ a.contentType = b.contentType ∧ a.sessionId = b.sessionId ∧
    a.cookies = b.cookies ∧ a.body = b.body

theorem SameValues.trans {a b c : Request} (first : SameValues a b) (second : SameValues b c) :
    SameValues a c :=
  ⟨first.1.trans second.1, first.2.1.trans second.2.1, first.2.2.1.trans second.2.2.1,
    first.2.2.2.1.trans second.2.2.2.1, first.2.2.2.2.trans second.2.2.2.2⟩

theorem consume_sameValues (state : State) (req : Request) (b : UInt8) :
    SameValues (consume state req b).2.2 req := by
  have effect := effect_consume state req b
  rcases answered : consume state req b with ⟨verdict, next, req'⟩
  rw [answered] at effect
  cases effect <;> exact ⟨rfl, rfl, rfl, rfl, rfl⟩

theorem parse_sameValues (state : State) (req : Request) (input : Bytes) :
    SameValues (parse state req input).state.2 req := by
  apply Scanner.scan_invariant (M := scanner) (fun config => SameValues config.2 req)
  · intro config b same
    exact (consume_sameValues config.1 config.2 b).trans same
  · exact ⟨rfl, rfl, rfl, rfl, rfl⟩

/-- The fields of a request that its header values do not fill. -/
def SameHead (a b : Request) : Prop :=
  a.method = b.method ∧ a.uri = b.uri ∧ a.httpVersionMajor = b.httpVersionMajor ∧
    a.httpVersionMinor = b.httpVersionMinor ∧ a.headers = b.headers ∧ a.body = b.body

theorem SameHead.refl (a : Request) : SameHead a a :=
  ⟨rfl, rfl, rfl, rfl, rfl, rfl⟩

theorem SameHead.trans {a b c : Request} (first : SameHead a b) (second : SameHead b c) :
    SameHead a c :=
  ⟨first.1.trans second.1, first.2.1.trans second.2.1, first.2.2.1.trans second.2.2.1,
    first.2.2.2.1.trans second.2.2.2.1, first.2.2.2.2.1.trans second.2.2.2.2.1,
    first.2.2.2.2.2.trans second.2.2.2.2.2⟩

theorem parseCookiePair_cases (req : Request) (tmp : Bytes) :
    parseCookiePair req tmp = req ∨
      (∃ value, parseCookiePair req tmp = { req with sessionId := value }) ∨
      ∃ key value, parseCookiePair req tmp =
        { req with cookies := req.cookies.assign key value } := by
  simp only [parseCookiePair]
  split
  · exact Or.inl rfl
  · split
    · exact Or.inr (Or.inl ⟨_, rfl⟩)
    · exact Or.inr (Or.inr ⟨_, _, rfl⟩)

theorem parseCookieFrom_some {cookieString : Bytes} {startCursor endCursor : Nat}
    (found : find cookieString ';'.toUInt8 startCursor = some endCursor) (req : Request) :
    parseCookieFrom cookieString startCursor req =
      match substr cookieString startCursor (endCursor - startCursor) with
      | .error e => .error e
      | .ok tmp => parseCookieFrom cookieString (endCursor + 2) (parseCookiePair req tmp) := by
  rw [parseCookieFrom]
  split
  · rename_i n same
    obtain rfl : endCursor = n := Option.some.inj (found.symm.trans same)
    rfl
  · rename_i none_found
    rw [found] at none_found
    cases none_found

theorem parseCookieFrom_none {cookieString : Bytes} {startCursor : Nat}
    (missing : find cookieString ';'.toUInt8 startCursor = none) (req : Request) :
    parseCookieFrom cookieString startCursor req =
      match substrFrom cookieString startCursor with
      | .error e => .error e
      | .ok tmp => .ok (parseCookiePair req tmp) := by
  rw [parseCookieFrom]
  split
  · rename_i n same
    rw [missing] at same
    cases same
  · rfl

/-- A piece of a cookie header has bytes of the header and no semicolon. -/
def IsPiece (cookieString tmp : Bytes) : Prop :=
  ';'.toUInt8 ∉ tmp ∧ tmp ⊆ cookieString

theorem isPiece_of_substr {cookieString tmp : Bytes} {startCursor endCursor : Nat}
    (found : find cookieString ';'.toUInt8 startCursor = some endCursor)
    (cut : substr cookieString startCursor (endCursor - startCursor) = .ok tmp) :
    IsPiece cookieString tmp := by
  unfold substr at cut
  split at cut
  · cases cut
  · cases cut
    exact ⟨(find_eq_some found).2, List.Subset.trans (List.take_subset _ _) (List.drop_subset _ _)⟩

theorem isPiece_of_substrFrom {cookieString tmp : Bytes} {startCursor : Nat}
    (missing : find cookieString ';'.toUInt8 startCursor = none)
    (cut : substrFrom cookieString startCursor = .ok tmp) : IsPiece cookieString tmp := by
  unfold substrFrom at cut
  split at cut
  · cases cut
  · cases cut
    exact ⟨find_eq_none missing, List.drop_subset _ _⟩

/-- A cookie header is cut into pieces, or found to be cut outside its bounds,
without regard to the request; the pieces are then applied in order. -/
theorem parseCookieFrom_pieces (cookieString : Bytes) (startCursor : Nat) :
    ∃ pieces : Except StdException (List Bytes),
      (∀ req, parseCookieFrom cookieString startCursor req =
        pieces.map fun tmps => tmps.foldl parseCookiePair req) ∧
      ∀ tmps, pieces = .ok tmps → ∀ tmp ∈ tmps, IsPiece cookieString tmp := by
  induction remaining : cookieString.length + 2 - startCursor using Nat.strongRecOn
    generalizing startCursor with
  | ind remaining ih =>
      cases found : find cookieString ';'.toUInt8 startCursor with
      | none =>
          cases cut : substrFrom cookieString startCursor with
          | error e =>
              refine ⟨.error e, fun req => by simp [parseCookieFrom_none found, cut, Except.map], ?_⟩
              rintro tmps ⟨⟩
          | ok tmp =>
              refine ⟨.ok [tmp], fun req => by simp [parseCookieFrom_none found, cut, Except.map], ?_⟩
              rintro tmps ⟨⟩ piece member
              rw [List.mem_singleton.mp member]
              exact isPiece_of_substrFrom found cut
      | some endCursor =>
          have bounds := find_bounds found
          cases cut : substr cookieString startCursor (endCursor - startCursor) with
          | error e =>
              refine ⟨.error e, fun req => by simp [parseCookieFrom_some found, cut, Except.map], ?_⟩
              rintro tmps ⟨⟩
          | ok tmp =>
              obtain ⟨pieces, rest, areCut⟩ := ih _ (by omega) (endCursor + 2) rfl
              refine ⟨pieces.map (tmp :: ·), fun req => ?_, ?_⟩
              · rw [parseCookieFrom_some found, cut]
                simp only [rest]
                cases pieces <;> rfl
              · cases pieces with
                | error e => rintro tmps ⟨⟩
                | ok later =>
                    rintro tmps ⟨⟩ piece member
                    rcases List.mem_cons.mp member with rfl | among
                    · exact isPiece_of_substr found cut
                    · exact areCut later rfl piece among

/-- A property of requests that every piece keeps survives a cookie header. -/
theorem parseCookie_keeps (inv : Request → Prop) {cookieString : Bytes}
    (keeps : ∀ req tmp, IsPiece cookieString tmp → inv req → inv (parseCookiePair req tmp))
    {req req' : Request} (holds : inv req) (returned : parseCookie req cookieString = .ok req') :
    inv req' := by
  obtain ⟨pieces, applied, areCut⟩ := parseCookieFrom_pieces cookieString 0
  rw [parseCookie, applied] at returned
  cases pieces with
  | error e => cases returned
  | ok tmps =>
      cases returned
      have each := areCut tmps rfl
      clear applied areCut
      induction tmps generalizing req with
      | nil => exact holds
      | cons tmp tmps ih =>
          apply ih
          · exact keeps req tmp (each tmp List.mem_cons_self) holds
          · exact fun piece member => each piece (.tail tmp member)

/-- A property of requests that holds whatever the cookies and the session id
are survives a cookie header. -/
theorem parseCookie_invariant (inv : Request → Prop)
    (session : ∀ req value, inv req → inv { req with sessionId := value })
    (cookie : ∀ req cookies, inv req → inv { req with cookies := cookies })
    {req req' : Request} {cookieString : Bytes} (holds : inv req)
    (returned : parseCookie req cookieString = .ok req') : inv req' := by
  refine parseCookie_keeps inv ?_ holds returned
  intro current tmp _ holds
  rcases parseCookiePair_cases current tmp with same | ⟨value, set⟩ | ⟨key, value, added⟩
  · rw [same]
    exact holds
  · rw [set]
    exact session current value holds
  · rw [added]
    exact cookie current _ holds

theorem parseCookie_sameHead {req req' : Request} {cookieString : Bytes}
    (returned : parseCookie req cookieString = .ok req') : SameHead req' req := by
  apply parseCookie_invariant (fun current => SameHead current req) _ _ (SameHead.refl req) returned
  · intro current value same
    exact same
  · intro current cookies same
    exact same

/-- What one round of the header loop can do. -/
theorem scanHeader_cases {i j : Nat} {req req' : Request} {h : Header}
    (scanned : scanHeader i req h = .ok (j, req')) :
    (∃ n, req.contentLen = -1 ∧ iequals h.name (ascii "content-length") = true ∧
        stoi h.value = .ok n ∧ j = i + 1 ∧ req' = { req with contentLen := n }) ∨
      (¬ (req.contentLen = -1 ∧ iequals h.name (ascii "content-length") = true) ∧
        ((j = i + 1 ∧ req' = { req with contentType := h.value }) ∨
          (j = i + 1 ∧ parseCookie req h.value = .ok req') ∨ (j = i ∧ req' = req))) := by
  unfold scanHeader at scanned
  split at scanned
  · rename_i lengthHeader
    split at scanned
    · cases scanned
    · rename_i n converted
      cases scanned
      exact Or.inl ⟨n, lengthHeader.1, lengthHeader.2, converted, rfl, rfl⟩
  · rename_i otherHeader
    refine Or.inr ⟨otherHeader, ?_⟩
    split at scanned
    · cases scanned
      exact Or.inl ⟨rfl, rfl⟩
    · split at scanned
      · split at scanned
        · cases scanned
        · rename_i parsed
          cases scanned
          exact Or.inr (Or.inl ⟨rfl, parsed⟩)
      · cases scanned
        exact Or.inr (Or.inr ⟨rfl, rfl⟩)

theorem scanHeaders_cons {h : Header} {headers : List Header} {i j : Nat} {req req' : Request} :
    scanHeaders (h :: headers) i req = .ok (j, req') ↔
      ∃ k next, scanHeader i req h = .ok (k, next) ∧
        (2 < k ∧ j = k ∧ req' = next ∨ k ≤ 2 ∧ scanHeaders headers k next = .ok (j, req')) := by
  rw [scanHeaders]
  cases scanned : scanHeader i req h with
  | error e => simp
  | ok answer =>
      obtain ⟨k, next⟩ := answer
      by_cases exits : k > 2
      · simp only [exits, if_true, Except.ok.injEq, Prod.mk.injEq]
        constructor
        · rintro ⟨rfl, rfl⟩
          exact ⟨k, next, ⟨rfl, rfl⟩, Or.inl ⟨exits, rfl, rfl⟩⟩
        · rintro ⟨k', next', ⟨rfl, rfl⟩, ⟨-, rfl, rfl⟩ | ⟨stays, -⟩⟩
          · exact ⟨rfl, rfl⟩
          · omega
      · simp only [exits, if_false, Except.ok.injEq, Prod.mk.injEq]
        constructor
        · intro rest
          exact ⟨k, next, ⟨rfl, rfl⟩, Or.inr ⟨by omega, rest⟩⟩
        · rintro ⟨k', next', ⟨rfl, rfl⟩, ⟨exited, -⟩ | ⟨-, rest⟩⟩
          · omega
          · exact rest

theorem scanHeaders_sameHead {headers : List Header} {i j : Nat} {req req' : Request}
    (scanned : scanHeaders headers i req = .ok (j, req')) : SameHead req' req := by
  induction headers generalizing i req with
  | nil =>
      cases scanned
      exact SameHead.refl _
  | cons h headers ih =>
      obtain ⟨k, next, first, rest⟩ := scanHeaders_cons.mp scanned
      have same : SameHead next req := by
        rcases scanHeader_cases first with ⟨n, -, -, -, -, rfl⟩ | ⟨-, ⟨-, rfl⟩ | ⟨-, parsed⟩ |
          ⟨-, unchanged⟩⟩
        · exact SameHead.refl _
        · exact SameHead.refl _
        · exact parseCookie_sameHead parsed
        · rw [unchanged]
          exact SameHead.refl _
      rcases rest with ⟨-, -, rfl⟩ | ⟨-, rest⟩
      · exact same
      · exact (ih rest).trans same

end CleanArchitecture.Connection
