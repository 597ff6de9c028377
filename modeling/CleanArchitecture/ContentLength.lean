import CleanArchitecture.RequestAssembly
import CleanArchitecture.RequestParserGrammar

/-!
# Declared and received body lengths

A dispatched body is bounded by a non-negative converted Content-Length, and only
by that: neither a missing nor a negative length bounds it, and no length makes
the connection wait for the bytes it announces.
-/

namespace CleanArchitecture.Connection

open RequestParser ResultType

def IsContentLength (h : Header) : Prop :=
  iequals h.name (ascii "content-length") = true

/-- A Content-Length header with a decimal value that fits an `int`. -/
def Declares (headers : List Header) (N : Nat) : Prop :=
  ∃ h ∈ headers, IsContentLength h ∧ IsNumeral h.value N ∧ N ≤ 2147483647

/-! ## Bodies shorter than declared -/

/-- A dispatched body reaches every declared length exactly when the bytes
received by then do: the connection itself never waits for them. -/
theorem body_complete_iff {reads : List ReadCompletion} {last : ReadCompletion}
    {c c' : Connection} {outputs : List (List Action)} {out : List Action} {req : Request}
    {res : Response} (ran : machine.run {} reads = .ok (c, outputs))
    (stepped : onRead c last = .ok (c', out)) (dispatched : Action.handleRequest req res ∈ out) :
    ∃ start current, SinceResponse reads start current c ∧
      ((∀ N, Declares req.headers N → N ≤ req.body.length) ↔
        ∀ N, Declares
            (parse start.requestParser start.req (stream (current ++ [last]))).state.2.headers N →
          (parse start.requestParser start.req (stream (current ++ [last]))).consumed + N ≤
            (stream (current ++ [last])).length) := by
  obtain ⟨start, current, since, assembling⟩ := sinceResponse_assembling ran
  obtain ⟨n, next, head, values, parsed, rfl, -, -⟩ :=
    dispatched_of_assembling assembling (readStep_of_onRead stepped) dispatched
  obtain ⟨i, scanned⟩ := parsed.scanned
  have sameHeaders : values.headers = head.headers := (scanHeaders_sameHead scanned).2.2.2.2.1
  have within := parsed.within
  refine ⟨start, current, since, ?_⟩
  rw [stream_concat, parsed.good]
  simp only [sameHeaders, List.length_drop]
  constructor
  · intro complete N declared
    have reached := complete N declared
    omega
  · intro arrived N declared
    have reached := arrived N declared
    omega

/-- Five bytes are announced and two arrive with the head. -/
def shortRead : ReadCompletion :=
  textRead "POST / HTTP/1.1\r\nContent-Length: 5\r\n\r\nhi" 0 (by decide)

def shortRequest : Request where
  method := ascii "POST"
  uri := ascii "/"
  httpVersionMajor := 1
  httpVersionMinor := 1
  contentLen := 5
  body := ascii "hi"
  headers := [⟨ascii "Content-Length", ascii "5"⟩]

theorem shortRead_dispatched :
    ∃ c, onRead {} shortRead = .ok (c, [.handleRequest shortRequest {}, .doWrite {}]) := by
  apply EventMachine.exists_of_output
  decide +kernel

theorem body_complete_iff_shortRead :
    ∃ start current, SinceResponse [] start current {} ∧
      ((∀ N, Declares shortRequest.headers N → N ≤ shortRequest.body.length) ↔
        ∀ N, Declares (parse start.requestParser start.req
            (stream (current ++ [shortRead]))).state.2.headers N →
          (parse start.requestParser start.req (stream (current ++ [shortRead]))).consumed + N ≤
            (stream (current ++ [shortRead])).length) := by
  obtain ⟨c, stepped⟩ := shortRead_dispatched
  exact body_complete_iff rfl stepped List.mem_cons_self

/-- The first request of a connection may be dispatched with less body than it
declares. -/
theorem body_incomplete_at_shortRead :
    ¬ ∀ (reads : List ReadCompletion) (last : ReadCompletion) (c c' : Connection)
      (outputs : List (List Action)) (out : List Action) (req : Request) (res : Response),
      machine.run {} reads = .ok (c, outputs) → Undispatched outputs →
      onRead c last = .ok (c', out) → Action.handleRequest req res ∈ out →
      ∀ N, Declares req.headers N → N ≤ req.body.length := by
  intro complete
  obtain ⟨c, stepped⟩ := shortRead_dispatched
  have declared : Declares shortRequest.headers 5 :=
    ⟨⟨ascii "Content-Length", ascii "5"⟩, by decide, by unfold IsContentLength; decide,
      ⟨by decide, by decide +kernel, by decide⟩, by decide⟩
  have reached := complete [] shortRead {} c [] _ shortRequest {} rfl (by simp [Undispatched])
    stepped List.mem_cons_self 5 declared
  revert reached
  decide

/-! ## Which header sets the length -/

/-- The header scan of a fresh request reaches a Content-Length header with the
value `N` before any other length is set. -/
def SetsLength (headers : List Header) (N : Int) : Prop :=
  ∃ before h after i req, headers = before ++ h :: after ∧
    scanHeaders before 0 {} = .ok (i, req) ∧ i ≤ 2 ∧ req.contentLen = -1 ∧
    IsContentLength h ∧ stoi h.value = .ok N

/-- Two requests between which the header scan does not distinguish. -/
def SameScan (a b : Request) : Prop :=
  a.contentLen = b.contentLen ∧ a.contentType = b.contentType ∧ a.cookies = b.cookies

theorem SameScan.symm {a b : Request} (same : SameScan a b) : SameScan b a :=
  ⟨same.1.symm, same.2.1.symm, same.2.2.symm⟩

theorem parseCookiePair_sameScan {a b : Request} (same : SameScan a b) (tmp : Bytes) :
    SameScan (parseCookiePair a tmp) (parseCookiePair b tmp) := by
  obtain ⟨length, type, cookies⟩ := same
  simp only [parseCookiePair]
  split
  · exact ⟨length, type, cookies⟩
  · split
    · exact ⟨length, type, cookies⟩
    · exact ⟨length, type, by rw [cookies]⟩

theorem parseCookie_sameScan {a b a' : Request} (same : SameScan a b) {cookieString : Bytes}
    (returned : parseCookie a cookieString = .ok a') :
    ∃ b', parseCookie b cookieString = .ok b' ∧ SameScan a' b' := by
  obtain ⟨pieces, applied, -⟩ := parseCookieFrom_pieces cookieString 0
  simp only [parseCookie, applied] at returned ⊢
  cases pieces with
  | error e => cases returned
  | ok tmps =>
      cases returned
      refine ⟨_, rfl, ?_⟩
      clear applied
      induction tmps generalizing a b with
      | nil => exact same
      | cons tmp tmps ih => exact ih (parseCookiePair_sameScan same tmp)

theorem scanHeader_sameScan {a b a' : Request} (same : SameScan a b) {i j : Nat} {h : Header}
    (scanned : scanHeader i a h = .ok (j, a')) :
    ∃ b', scanHeader i b h = .ok (j, b') ∧ SameScan a' b' := by
  obtain ⟨length, type, cookies⟩ := same
  unfold scanHeader at scanned ⊢
  rw [← length, ← type, ← cookies]
  split at scanned
  · rename_i lengthHeader
    rw [if_pos lengthHeader]
    split at scanned
    · cases scanned
    · cases scanned
      exact ⟨_, rfl, rfl, rfl, rfl⟩
  · rename_i notLength
    rw [if_neg notLength]
    split at scanned
    · rename_i typeHeader
      cases scanned
      rw [if_pos typeHeader]
      exact ⟨_, rfl, rfl, rfl, rfl⟩
    · rename_i notType
      rw [if_neg notType]
      split at scanned
      · rename_i cookieHeader
        rw [if_pos cookieHeader]
        split at scanned
        · cases scanned
        · rename_i parsed
          cases scanned
          obtain ⟨b', returned, same⟩ := parseCookie_sameScan ⟨length, type, cookies⟩ parsed
          exact ⟨b', by rw [returned], same⟩
      · rename_i notCookie
        cases scanned
        rw [if_neg notCookie]
        exact ⟨b, rfl, length, type, cookies⟩

theorem scanHeaders_sameScan {headers : List Header} {a b a' : Request} (same : SameScan a b)
    {i j : Nat} (scanned : scanHeaders headers i a = .ok (j, a')) :
    ∃ b', scanHeaders headers i b = .ok (j, b') ∧ SameScan a' b' := by
  induction headers generalizing i a b with
  | nil =>
      cases scanned
      exact ⟨b, rfl, same⟩
  | cons h headers ih =>
      obtain ⟨k, next, first, rest⟩ := scanHeaders_cons.mp scanned
      obtain ⟨next', first', same'⟩ := scanHeader_sameScan same first
      rcases rest with ⟨exits, rfl, rfl⟩ | ⟨stays, rest⟩
      · exact ⟨next', scanHeaders_cons.mpr ⟨j, next', first', Or.inl ⟨exits, rfl, rfl⟩⟩, same'⟩
      · obtain ⟨b', rest', same''⟩ := ih same' rest
        exact ⟨b', scanHeaders_cons.mpr ⟨k, next', first', Or.inr ⟨stays, rest'⟩⟩, same''⟩

/-- A scan that did not leave the loop continues with the remaining headers. -/
theorem scanHeaders_append {before after : List Header} {i j k : Nat} {req middle last : Request}
    (first : scanHeaders before i req = .ok (k, middle)) (stays : k ≤ 2)
    (whole : scanHeaders (before ++ after) i req = .ok (j, last)) :
    scanHeaders after k middle = .ok (j, last) := by
  induction before generalizing i req with
  | nil =>
      cases first
      exact whole
  | cons h before ih =>
      obtain ⟨m, next, step, rest⟩ := scanHeaders_cons.mp first
      obtain ⟨m', next', step', rest'⟩ := scanHeaders_cons.mp whole
      rw [step] at step'
      cases step'
      rcases rest with ⟨exits, rfl, -⟩ | ⟨inside, rest⟩
      · omega
      · rcases rest' with ⟨exits, -⟩ | ⟨-, rest'⟩
        · omega
        · exact ih rest rest'

theorem scanHeader_contentLen {i j : Nat} {req req' : Request} {h : Header}
    (scanned : scanHeader i req h = .ok (j, req')) :
    req'.contentLen = req.contentLen ∨
      req.contentLen = -1 ∧ IsContentLength h ∧ stoi h.value = .ok req'.contentLen := by
  rcases scanHeader_cases scanned with ⟨n, unset, name, converted, -, rfl⟩ | ⟨-, ⟨-, rfl⟩ |
    ⟨-, parsed⟩ | ⟨-, unchanged⟩⟩
  · exact Or.inr ⟨unset, name, converted⟩
  · exact Or.inl rfl
  · left
    exact parseCookie_invariant (fun current => current.contentLen = req.contentLen)
      (fun _ _ same => same) (fun _ _ same => same) rfl parsed
  · rw [unchanged]
    exact Or.inl rfl

/-- A length other than the default is never overwritten. -/
theorem scanHeaders_keeps_contentLen {headers : List Header} {i j : Nat} {req req' : Request}
    (scanned : scanHeaders headers i req = .ok (j, req')) (set : req.contentLen ≠ -1) :
    req'.contentLen = req.contentLen := by
  induction headers generalizing i req with
  | nil =>
      cases scanned
      rfl
  | cons h headers ih =>
      obtain ⟨k, next, first, rest⟩ := scanHeaders_cons.mp scanned
      have kept : next.contentLen = req.contentLen := by
        rcases scanHeader_contentLen first with same | ⟨unset, -⟩
        · exact same
        · exact absurd unset set
      rcases rest with ⟨-, -, rfl⟩ | ⟨-, rest⟩
      · exact kept
      · rw [ih rest (kept ▸ set), kept]

/-- A length that a scan changes comes from a header it reached. -/
theorem scanHeaders_contentLen {headers : List Header} {i j : Nat} {req req' : Request}
    (inside : i ≤ 2) (scanned : scanHeaders headers i req = .ok (j, req')) :
    req'.contentLen = req.contentLen ∨
      ∃ before h after k middle, headers = before ++ h :: after ∧
        scanHeaders before i req = .ok (k, middle) ∧ k ≤ 2 ∧ middle.contentLen = -1 ∧
        IsContentLength h ∧ stoi h.value = .ok req'.contentLen := by
  induction headers generalizing i req with
  | nil =>
      cases scanned
      exact Or.inl rfl
  | cons h headers ih =>
      obtain ⟨k, next, first, rest⟩ := scanHeaders_cons.mp scanned
      have here : req'.contentLen = next.contentLen →
          req'.contentLen = req.contentLen ∨
            ∃ before h' after k middle, h :: headers = before ++ h' :: after ∧
              scanHeaders before i req = .ok (k, middle) ∧ k ≤ 2 ∧ middle.contentLen = -1 ∧
              IsContentLength h' ∧ stoi h'.value = .ok req'.contentLen := by
        intro same
        rw [same]
        rcases scanHeader_contentLen first with unchanged | ⟨unset, name, converted⟩
        · exact Or.inl unchanged
        · exact Or.inr ⟨[], h, headers, i, req, rfl, rfl, inside, unset, name, converted⟩
      rcases rest with ⟨-, -, rfl⟩ | ⟨stays, rest⟩
      · exact here rfl
      · rcases ih stays rest with same | ⟨before, h', after, m, middle, rfl, began, small, unset,
          name, converted⟩
        · exact here same
        · exact Or.inr ⟨h :: before, h', after, m, middle, rfl,
            scanHeaders_cons.mpr ⟨k, next, first, Or.inr ⟨stays, began⟩⟩, small, unset, name,
            converted⟩

/-- The length of a scanned request is the one its headers set, or the default. -/
structure LengthSettled (headers : List Header) (length : Int) : Prop where
  of_set : ∀ N, SetsLength headers N → N ≠ -1 → length = N
  set_or_default : length = -1 ∨ SetsLength headers length

theorem lengthSettled_of_scan {head values : Request} {i : Nat} (fresh : SameScan head {})
    (scanned : scanHeaders head.headers 0 head = .ok (i, values)) :
    LengthSettled head.headers values.contentLen where
  of_set := by
    rintro N ⟨before, h, after, k, req, split, began, small, unset, name, converted⟩ notDefault
    rw [split] at scanned
    obtain ⟨middle, began', same⟩ := scanHeaders_sameScan fresh.symm began
    have rest := scanHeaders_append began' small scanned
    obtain ⟨m, next, step, rest⟩ := scanHeaders_cons.mp rest
    have unset' : middle.contentLen = -1 := same.1 ▸ unset
    rcases scanHeader_cases step with ⟨n, -, -, converted', -, rfl⟩ | ⟨other, -⟩
    · rw [converted] at converted'
      cases converted'
      rcases rest with ⟨-, -, rfl⟩ | ⟨-, rest⟩
      · rfl
      · exact scanHeaders_keeps_contentLen rest notDefault
    · exact absurd ⟨unset', name⟩ other
  set_or_default := by
    rcases scanHeaders_contentLen (Nat.zero_le 2) scanned with same | ⟨before, h, after, k, middle,
      split, began, small, unset, name, converted⟩
    · exact Or.inl (same.trans fresh.1)
    · obtain ⟨middle', began', same⟩ := scanHeaders_sameScan fresh began
      exact Or.inr ⟨before, h, after, k, middle', split, began', small, same.1 ▸ unset, name,
        converted⟩

/-! ## The length of a connection before its first dispatch -/

theorem parse_expectingNewline3 (req : Request) (input : Bytes) :
    (parse .expectingNewline3 req input).state = (.expectingNewline3, req) := by
  apply Scanner.scan_invariant (M := scanner) (fun config => config = (.expectingNewline3, req))
  · rintro config b rfl
    change (consume .expectingNewline3 req b).2 = (.expectingNewline3, req)
    simp only [consume]
    split <;> rfl
  · rfl

/-- How the length of a connection relates to its headers before anything was
dispatched. -/
inductive LengthPhase (c : Connection) : Prop
  | unscanned (header : c.headerBuffer = true) (fresh : SameScan c.req {})
  | rescanned (header : c.headerBuffer = true) (parser : c.requestParser = .expectingNewline3)
      (set : 0 ≤ c.req.contentLen) (settled : LengthSettled c.req.headers c.req.contentLen)
  | collecting (body : c.headerBuffer = false) (parser : c.requestParser = .expectingNewline3)
      (settled : LengthSettled c.req.headers c.req.contentLen)

/-- The length after a head has been completed by a read. -/
theorem lengthSettled_of_head {c : Connection} {r : ReadCompletion} {next : State}
    {head values : Request} {n i : Nat} (phase : LengthPhase c) (header : c.headerBuffer = true)
    (parsed : parse c.requestParser c.req r.chunk.bytes = ⟨good, (next, head), n⟩)
    (scanned : scanHeaders head.headers 0 head = .ok (i, values)) :
    LengthSettled values.headers values.contentLen := by
  rw [(scanHeaders_sameHead scanned).2.2.2.2.1]
  cases phase with
  | unscanned _ fresh =>
      have same := parse_sameValues c.requestParser c.req r.chunk.bytes
      rw [parsed] at same
      exact lengthSettled_of_scan ⟨same.1.trans fresh.1, same.2.1.trans fresh.2.1,
        same.2.2.2.1.trans fresh.2.2⟩ scanned
  | rescanned _ parser set settled =>
      have unchanged := parse_expectingNewline3 c.req r.chunk.bytes
      rw [← parser, parsed] at unchanged
      obtain ⟨-, rfl⟩ := Prod.mk.inj unchanged
      rw [scanHeaders_keeps_contentLen scanned (by omega)]
      exact settled
  | collecting body => simp [header] at body

theorem LengthSettled.lower {headers : List Header} {length : Int}
    (settled : LengthSettled headers length) : -2 ^ 31 ≤ length := by
  rcases settled.set_or_default with default | ⟨before, h, after, i, req, -, -, -, -, -, converted⟩
  · omega
  · exact (stoi_bounds converted).1

theorem LengthSettled.upper {headers : List Header} {length : Int}
    (settled : LengthSettled headers length) : length < 2 ^ 31 := by
  rcases settled.set_or_default with default | ⟨before, h, after, i, req, -, -, -, -, -, converted⟩
  · omega
  · exact (stoi_bounds converted).2

/-- The check of the header handler bounds a body by a length that is not
negative, and by nothing otherwise. -/
theorem le_toUint32_iff {size : Nat} {length : Int} (small : size ≤ bufferSize)
    (lower : -2 ^ 31 ≤ length) (upper : length < 2 ^ 31) :
    size ≤ toUint32 length ↔ (0 ≤ length → (size : Int) ≤ length) := by
  unfold bufferSize at small
  by_cases nonneg : 0 ≤ length
  · have value := toUint32_of_nonneg nonneg (by omega)
    omega
  · have value := toUint32_of_neg (Int.lt_of_not_ge nonneg) (by omega)
    omega

/-- The check of the body handler decides the same law. -/
theorem le_toSizeT_iff {size : Nat} {length : Int} (small : size ≤ maxSize)
    (lower : -2 ^ 31 ≤ length) (upper : length < 2 ^ 31) :
    size ≤ toSizeT length ↔ (0 ≤ length → (size : Int) ≤ length) := by
  unfold maxSize at small
  by_cases nonneg : 0 ≤ length
  · have value := toSizeT_of_nonneg nonneg (by omega)
    omega
  · have value := toSizeT_of_neg (Int.lt_of_not_ge nonneg) (by omega)
    omega

theorem lengthPhase_step {c c' : Connection} {r : ReadCompletion} {out : List Action}
    (phase : LengthPhase c) (step : ReadStep c r c' out)
    (undispatched : ∀ req res, Action.handleRequest req res ∉ out) : LengthPhase c' := by
  have afterPart : c.headerBuffer = true → ∀ {verdict config n},
      parse c.requestParser c.req r.chunk.bytes = ⟨verdict, config, n⟩ →
      LengthPhase { c.received r with requestParser := config.1, req := config.2 } := by
    intro header verdict config n parsed
    cases phase with
    | unscanned _ fresh =>
        have same := parse_sameValues c.requestParser c.req r.chunk.bytes
        rw [parsed] at same
        exact .unscanned header ⟨same.1.trans fresh.1, same.2.1.trans fresh.2.1,
          same.2.2.2.1.trans fresh.2.2⟩
    | rescanned _ parser set settled =>
        have unchanged := parse_expectingNewline3 c.req r.chunk.bytes
        rw [← parser, parsed] at unchanged
        obtain rfl : config = (c.requestParser, c.req) := unchanged
        exact .rescanned header parser set settled
    | collecting body => simp [header] at body
  cases step with
  | headContinues header parsed => exact afterPart header parsed
  | headBad header parsed =>
      cases afterPart header parsed with
      | unscanned header fresh => exact .unscanned header fresh
      | rescanned header parser set settled => exact .rescanned header parser set settled
      | collecting body => exact absurd header (by simpa using body)
  | @headTooLong config n i values header parsed scanned nothingLeft tooLong =>
      have settled := lengthSettled_of_head phase header parsed scanned
      have small : r.chunk.bytes.length - n ≤ bufferSize := by
        have fits := r.chunk.fits
        omega
      have law := le_toUint32_iff small settled.lower settled.upper
      have set : 0 ≤ values.contentLen := by omega
      exact .rescanned header (parse_good_state parsed) set settled
  | headDispatched | bodyDispatched => simp [respond] at undispatched
  | headThenBody header parsed scanned moreLeft =>
      have settled := lengthSettled_of_head phase header parsed scanned
      exact .collecting rfl (parse_good_state parsed) settled
  | bodyTooLong body appended tooLong =>
      cases phase with
      | unscanned header | rescanned header => simp [header] at body
      | collecting _ parser settled =>
          have law := le_toSizeT_iff appended settled.lower settled.upper
          exact .rescanned rfl parser (by change 0 ≤ c.req.contentLen; omega) settled
  | bodyContinues body appended fits moreLeft =>
      cases phase with
      | unscanned header | rescanned header => simp [header] at body
      | collecting _ parser settled => exact .collecting body parser settled

theorem lengthPhase_of_run {reads : List ReadCompletion} {c : Connection}
    {outputs : List (List Action)} (ran : machine.run {} reads = .ok (c, outputs))
    (undispatched : Undispatched outputs) : LengthPhase c := by
  revert undispatched
  apply EventMachine.run_invariant (M := machine)
    (fun _ outputs c => Undispatched outputs → LengthPhase c) _ _ ran
  · intro _
    exact .unscanned rfl ⟨rfl, rfl, rfl⟩
  · intro events outputs c r c' out _ phase stepped undispatched
    apply lengthPhase_step (phase _) (readStep_of_onRead stepped)
    · exact undispatched out (by simp)
    · exact fun o member => undispatched o (by simp [member])

/-! ## Bodies longer than declared -/

/-- A dispatched request is settled, and a length that is not negative bounds
its body. -/
theorem bounded_of_dispatch {c c' : Connection} {r : ReadCompletion} {out : List Action}
    {req : Request} {res : Response} (phase : LengthPhase c) (step : ReadStep c r c' out)
    (dispatched : Action.handleRequest req res ∈ out) :
    LengthSettled req.headers req.contentLen ∧
      (0 ≤ req.contentLen → (req.body.length : Int) ≤ req.contentLen) := by
  cases step with
  | headContinues | headBad | headTooLong | headThenBody | bodyTooLong | bodyContinues =>
      simp at dispatched
  | @headDispatched config n i values header parsed scanned nothingLeft fits =>
      have settled := lengthSettled_of_head phase header parsed scanned
      have small : r.chunk.bytes.length - n ≤ bufferSize := by
        have received := r.chunk.fits
        omega
      have law := (le_toUint32_iff small settled.lower settled.upper).mp fits
      simp only [respond, List.mem_cons, Action.handleRequest.injEq, reduceCtorEq,
        List.not_mem_nil, or_false] at dispatched
      obtain ⟨rfl, -⟩ := dispatched
      exact ⟨settled, by simpa using law⟩
  | bodyDispatched body appended fits nothingLeft =>
      cases phase with
      | unscanned header | rescanned header => simp [header] at body
      | collecting _ parser settled =>
          have law := (le_toSizeT_iff appended settled.lower settled.upper).mp fits
          simp only [respond, List.mem_cons, Action.handleRequest.injEq, reduceCtorEq,
            List.not_mem_nil, or_false] at dispatched
          obtain ⟨rfl, -⟩ := dispatched
          exact ⟨settled, law⟩

/-- The body is no longer than a length that a header set, and empty when there
is no Content-Length header. -/
def BodyDeclared (req : Request) : Prop :=
  (∀ N, SetsLength req.headers N → req.contentLen = N → (req.body.length : Int) ≤ N) ∧
    ((∀ h ∈ req.headers, ¬ IsContentLength h) → req.body = [])

theorem SetsLength.header {headers : List Header} {N : Int} (sets : SetsLength headers N) :
    ∃ h ∈ headers, IsContentLength h := by
  obtain ⟨before, h, after, i, req, rfl, -, -, -, name, -⟩ := sets
  exact ⟨h, by simp, name⟩

/-- The bound holds when a header sets a length that is not negative, and when
none sets any and there is no body, or a Content-Length header that the scan
never reaches. -/
theorem bodyDeclared_iff {req : Request} (settled : LengthSettled req.headers req.contentLen)
    (bounded : 0 ≤ req.contentLen → (req.body.length : Int) ≤ req.contentLen) :
    BodyDeclared req ↔
      (∃ N, 0 ≤ N ∧ SetsLength req.headers N) ∨
        ((∀ N, ¬ SetsLength req.headers N) ∧
          ((∃ h ∈ req.headers, IsContentLength h) ∨ req.body = [])) := by
  constructor
  · rintro ⟨declared, undeclared⟩
    rcases settled.set_or_default with default | sets
    · right
      have none : ∀ N, ¬ SetsLength req.headers N := by
        intro N sets
        have value : N = -1 := by
          by_contra other
          exact other (settled.of_set N sets other ▸ default)
        have impossible := declared N sets (default.trans value.symm)
        omega
      refine ⟨none, ?_⟩
      by_cases present : ∃ h ∈ req.headers, IsContentLength h
      · exact Or.inl present
      · exact Or.inr (undeclared fun h member name => present ⟨h, member, name⟩)
    · left
      have nonneg := declared req.contentLen sets rfl
      exact ⟨req.contentLen, by omega, sets⟩
  · rintro (⟨N, nonneg, sets⟩ | ⟨none, empty⟩)
    · have value := settled.of_set N sets (by omega)
      refine ⟨?_, fun absent => ?_⟩
      · rintro M - rfl
        exact bounded (by omega)
      · obtain ⟨h, member, name⟩ := sets.header
        exact absurd name (absent h member)
    · refine ⟨fun N sets => absurd sets (none N), fun absent => ?_⟩
      rcases empty with ⟨h, member, name⟩ | noBody
      · exact absurd name (absent h member)
      · exact noBody

/-- The first dispatch of a connection keeps the declared bound exactly when the
head sets a length that is not negative, or sets none and is followed by nothing
or carries a Content-Length header beyond the reach of the scan. -/
theorem body_declared_iff {reads : List ReadCompletion} {last : ReadCompletion}
    {c c' : Connection} {outputs : List (List Action)} {out : List Action} {req : Request}
    {res : Response} (ran : machine.run {} reads = .ok (c, outputs))
    (first : Undispatched outputs) (stepped : onRead c last = .ok (c', out))
    (dispatched : Action.handleRequest req res ∈ out) :
    ∃ start current, SinceResponse reads start current c ∧
      (BodyDeclared req ↔
        (∃ N, 0 ≤ N ∧ SetsLength
          (parse start.requestParser start.req (stream (current ++ [last]))).state.2.headers N) ∨
        ((∀ N, ¬ SetsLength
          (parse start.requestParser start.req (stream (current ++ [last]))).state.2.headers N) ∧
          ((∃ h ∈ (parse start.requestParser start.req
              (stream (current ++ [last]))).state.2.headers, IsContentLength h) ∨
            (stream (current ++ [last])).length ≤
              (parse start.requestParser start.req (stream (current ++ [last]))).consumed))) := by
  have step := readStep_of_onRead stepped
  obtain ⟨settled, bounded⟩ := bounded_of_dispatch (lengthPhase_of_run ran first) step dispatched
  obtain ⟨start, current, since, assembling⟩ := sinceResponse_assembling ran
  obtain ⟨n, next, head, values, parsed, rfl, -, -⟩ :=
    dispatched_of_assembling assembling step dispatched
  obtain ⟨i, scanned⟩ := parsed.scanned
  have sameHeaders : values.headers = head.headers := (scanHeaders_sameHead scanned).2.2.2.2.1
  refine ⟨start, current, since, ?_⟩
  rw [bodyDeclared_iff settled bounded, stream_concat, parsed.good]
  simp only [sameHeaders, List.drop_eq_nil_iff]

/-- A head without a Content-Length header, and bytes after it. -/
def undeclaredRead : ReadCompletion :=
  textRead "GET / HTTP/1.1\r\n\r\nsurplus" 0 (by decide)

def undeclaredRequest : Request where
  method := ascii "GET"
  uri := ascii "/"
  httpVersionMajor := 1
  httpVersionMinor := 1
  body := ascii "surplus"

theorem undeclaredRead_dispatched :
    ∃ c, onRead {} undeclaredRead = .ok (c, [.handleRequest undeclaredRequest {}, .doWrite {}]) := by
  apply EventMachine.exists_of_output
  decide +kernel

theorem body_declared_iff_undeclaredRead :
    ∃ start current, SinceResponse [] start current {} ∧
      (BodyDeclared undeclaredRequest ↔
        (∃ N, 0 ≤ N ∧ SetsLength (parse start.requestParser start.req
          (stream (current ++ [undeclaredRead]))).state.2.headers N) ∨
        ((∀ N, ¬ SetsLength (parse start.requestParser start.req
          (stream (current ++ [undeclaredRead]))).state.2.headers N) ∧
          ((∃ h ∈ (parse start.requestParser start.req
              (stream (current ++ [undeclaredRead]))).state.2.headers, IsContentLength h) ∨
            (stream (current ++ [undeclaredRead])).length ≤
              (parse start.requestParser start.req
                (stream (current ++ [undeclaredRead]))).consumed))) := by
  obtain ⟨c, stepped⟩ := undeclaredRead_dispatched
  exact body_declared_iff rfl (by simp [Undispatched]) stepped List.mem_cons_self

/-- The first request of a connection may be dispatched with a body it does not
declare. -/
theorem body_undeclared_at_undeclaredRead :
    ¬ ∀ (reads : List ReadCompletion) (last : ReadCompletion) (c c' : Connection)
      (outputs : List (List Action)) (out : List Action) (req : Request) (res : Response),
      machine.run {} reads = .ok (c, outputs) → Undispatched outputs →
      onRead c last = .ok (c', out) → Action.handleRequest req res ∈ out → BodyDeclared req := by
  intro declared
  obtain ⟨c, stepped⟩ := undeclaredRead_dispatched
  have bound := declared [] undeclaredRead {} c [] _ undeclaredRequest {} rfl
    (by simp [Undispatched]) stepped List.mem_cons_self
  have empty := bound.2 (by simp [undeclaredRequest])
  revert empty
  decide

end CleanArchitecture.Connection
