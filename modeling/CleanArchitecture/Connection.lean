import CleanArchitecture.EventMachine
import CleanArchitecture.RequestParser
import CleanArchitecture.StringUtils

/-!
# A connection and its completion handlers

A connection owns one read buffer, one request, one parser and one response.
When a read completes, either the head parser or the body collector runs and the
handler may call the request handler, start a write or start the next read.
-/

namespace CleanArchitecture

open RequestParser (State ResultType)

def bufferSize : Nat :=
  8 * 1024

/-- The array that reads are received into. -/
structure ReadBuffer where
  data : Bytes
  length_eq : data.length = bufferSize

/-- What one completed read delivers: at most a buffer of bytes. -/
structure Chunk where
  bytes : Bytes
  fits : bytes.length ≤ bufferSize

/-- A value-initialised array. -/
def ReadBuffer.zero : ReadBuffer where
  data := List.replicate bufferSize 0
  length_eq := List.length_replicate

/-- A read overwrites the front of the array. -/
def ReadBuffer.receive (buffer : ReadBuffer) (chunk : Chunk) : ReadBuffer where
  data := chunk.bytes ++ buffer.data.drop chunk.bytes.length
  length_eq := by
    have fits := chunk.fits
    have size := buffer.length_eq
    simp only [List.length_append, List.length_drop]
    omega

@[simp] theorem ReadBuffer.take_receive (buffer : ReadBuffer) (chunk : Chunk) :
    (buffer.receive chunk).data.take chunk.bytes.length = chunk.bytes := by
  simp [receive]

structure Connection where
  buffer : ReadBuffer := .zero
  headerBuffer : Bool := true
  req : Request := {}
  requestParser : State := .methodStart
  res : Response := {}

/-- The request handler: it may change both objects it is given. -/
abbrev Handler := Request → Response → Request × Response

/-- What a completion handler starts or calls, in order. -/
inductive Action
  | handleRequest (req : Request) (res : Response)
  | doRead
  | doWrite (res : Response)
  deriving DecidableEq

/-- A completed read: the bytes, what `socket.available()` answers afterwards and
what the request handler does if it is called. -/
structure ReadCompletion where
  chunk : Chunk
  available : Nat
  handler : Handler

namespace Connection

/-! ## Header values -/

/-- One piece of a cookie header: `SESSION=...` or a cookie. -/
def parseCookiePair (req : Request) (tmp : Bytes) : Request :=
  match find tmp '='.toUInt8 0 with
  | none => req
  | some midCursor =>
      let key := tmp.take midCursor
      let value := tmp.drop (midCursor + 1)
      if key = ascii "SESSION" then { req with sessionId := value }
      else { req with cookies := req.cookies.assign key value }

/-- The loop of `parse_cookie` from `startCursor` on, and its last piece. -/
def parseCookieFrom (cookieString : Bytes) (startCursor : Nat) (req : Request) :
    Except StdException Request :=
  match found : find cookieString ';'.toUInt8 startCursor with
  | some endCursor =>
      have := find_bounds found
      match substr cookieString startCursor (endCursor - startCursor) with
      | .error e => .error e
      | .ok tmp => parseCookieFrom cookieString (endCursor + 2) (parseCookiePair req tmp)
  | none =>
      match substrFrom cookieString startCursor with
      | .error e => .error e
      | .ok tmp => .ok (parseCookiePair req tmp)
  termination_by cookieString.length + 2 - startCursor

def parseCookie (req : Request) (cookieString : Bytes) : Except StdException Request :=
  parseCookieFrom cookieString 0 req

/-- One round of the loop over the headers, with its counter. -/
def scanHeader (i : Nat) (req : Request) (h : Header) : Except StdException (Nat × Request) :=
  if req.contentLen = -1 ∧ iequals h.name (ascii "content-length") then
    match stoi h.value with
    | .error e => .error e
    | .ok n => .ok (i + 1, { req with contentLen := n })
  else if req.contentType.isEmpty ∧ iequals h.name (ascii "content-type") then
    .ok (i + 1, { req with contentType := h.value })
  else if req.cookies.isEmpty ∧ iequals h.name (ascii "cookie") then
    match parseCookie req h.value with
    | .error e => .error e
    | .ok req' => .ok (i + 1, req')
  else .ok (i, req)

/-- The loop over the headers, left as soon as the counter exceeds two. -/
def scanHeaders : List Header → Nat → Request → Except StdException (Nat × Request)
  | [], i, req => .ok (i, req)
  | h :: headers, i, req =>
      match scanHeader i req h with
      | .error e => .error e
      | .ok (i, req) => if i > 2 then .ok (i, req) else scanHeaders headers i req

/-! ## Completion handlers -/

/-- `bytes_transferred + (buffer.data() - it)` as a `uint`, where `it` stands
`consumed` bytes after the start of the buffer. -/
def bodySize (bytesTransferred consumed : Nat) : Nat :=
  toUint32 (toSizeT (bytesTransferred + toSizeT (-consumed)))

/-- The stock answer to a bad request. -/
def reject (c : Connection) : Connection × List Action :=
  ({ c with res := stockResponse statusBadRequest }, [.doWrite (stockResponse statusBadRequest)])

/-- The call of the request handler and the write of its response. -/
def respond (c : Connection) (handler : Handler) : Connection × List Action :=
  let answer := handler c.req c.res
  ({ c with req := answer.1, res := answer.2 },
    [.handleRequest c.req c.res, .doWrite answer.2])

def handleHeaderBuffer (c : Connection) (bytesTransferred available : Nat) (handler : Handler) :
    Except StdException (Connection × List Action) :=
  let parsed := RequestParser.parse c.requestParser c.req (c.buffer.data.take bytesTransferred)
  let c := { c with requestParser := parsed.state.1, req := parsed.state.2 }
  match parsed.verdict with
  | .good =>
      match scanHeaders c.req.headers 0 c.req with
      | .error e => .error e
      | .ok (_, req) =>
          let size := bodySize bytesTransferred parsed.consumed
          let body := (c.buffer.data.drop parsed.consumed).take size
          if available = 0 then
            if size > toUint32 req.contentLen then .ok (reject { c with req := req })
            else .ok (respond { c with req := { req with body := body } } handler)
          else .ok ({ c with req := { req with body := body }, headerBuffer := false }, [])
  | .bad => .ok (reject c)
  | .indeterminate => .ok (c, [.doRead])

def handleBodyBuffer (c : Connection) (bytesTransferred available : Nat) (handler : Handler) :
    Except StdException (Connection × List Action) :=
  match append c.req.body (c.buffer.data.take bytesTransferred) with
  | .error e => .error e
  | .ok body =>
      let c := { c with req := { c.req with body := body } }
      if body.length > toSizeT c.req.contentLen then .ok (reject { c with headerBuffer := true })
      else if available = 0 then .ok (respond { c with headerBuffer := true } handler)
      else .ok (c, [.doRead])

/-- The completion handler of a read without an error. -/
def onRead (c : Connection) (r : ReadCompletion) : Except StdException (Connection × List Action) :=
  let c := { c with buffer := c.buffer.receive r.chunk }
  if c.headerBuffer then handleHeaderBuffer c r.chunk.bytes.length r.available r.handler
  else handleBodyBuffer c r.chunk.bytes.length r.available r.handler

/-- The connection as a machine driven by its completed reads. -/
def machine : EventMachine Connection ReadCompletion (List Action) StdException where
  step := onRead

end Connection

end CleanArchitecture
