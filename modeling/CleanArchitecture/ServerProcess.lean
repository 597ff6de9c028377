import CleanArchitecture.AccessControl
import CleanArchitecture.CleanSessions
import CleanArchitecture.ConnectionManager
import Mathlib.Data.List.ReduceOption

/-!
# The server as a whole

Bytes arrive on any number of connections, in any pieces and in any order.  A read that
completes a request calls the request handler, which runs the endpoint it finds over what
all connections share: the pools, the store, the database and the random words.
-/

namespace CleanArchitecture

open Program Backend

/-- What the network and the operating system do. -/
inductive NetworkEvent
  | accepted
  | readDone (id : Nat) (chunk : Chunk) (available : Nat)
  | readFailed (id : Nat) (failure : Failure)
  | writeDone (id : Nat) (failure : Option Failure)
  | stop (id : Nat)
  | stopAll

/-- The event for the connection manager, with what the request handler would do. -/
def NetworkEvent.withHandler (handler : Handler) : NetworkEvent → Event
  | .accepted => .accepted
  | .readDone id chunk available =>
      .readDone id { chunk := chunk, available := available, handler := handler }
  | .readFailed id failure => .readFailed id failure
  | .writeDone id failure => .writeDone id failure
  | .stop id => .stop id
  | .stopAll => .stopAll

/-- The connections, and the state of everything that the endpoints call. -/
structure Process (σ : Type) where
  server : Server := {}
  backend : σ

/-- A request that an endpoint has answered, and the connection it came over. -/
structure ServedRequest where
  id : Nat
  exchange : Exchange
  answer : Answer

namespace ServedRequest

/-- The request as the endpoint was called with it. -/
def request (served : ServedRequest) : Endpoint × Exchange :=
  (served.answer.endpoint, served.exchange)

end ServedRequest

/-- The connection, the request and the response that the request handler is called
with. -/
def Server.called (s : Server) : Event → Option (Nat × Request × Response)
  | .readDone id r =>
      match Connection.onRead (s.slot id).connection r with
      | .ok (_, .handleRequest req res :: _) => some (id, req, res)
      | _ => none
  | _ => none

namespace Process

variable {σ : Type} (h : BackendHandler σ) (rh : RequestHandler Endpoint) (app : Application)
  (rounds : Nat)

/-- The callbacks of the endpoints in a state of the backend.  A call that does not return
leaves nothing to answer. -/
def callbacks (s : σ) (endpoint : Endpoint) : Handler := fun req res =>
  match run h (endpoint.handle app rounds { req := req, res := res }) s with
  | none => (req, res)
  | some (ex, _) => (ex.req, ex.res)

/-- The request handler in a state of the backend. -/
def handlerAt (s : σ) : Handler := fun req res =>
  match rh.handleRequest (callbacks h app rounds s) req res with
  | .error _ => (req, res)
  | .ok (_, answer) => answer

/-- What a call of the request handler leaves of the backend, with the answer of the
endpoint that it called, if there was one.  There is no next state where the process
has ended. -/
def serve (s : σ) (id : Nat) (req : Request) (res : Response) :
    Option (σ × Option ServedRequest) :=
  match rh.handleRequest (callbacks h app rounds s) req res with
  | .error _ => none
  | .ok ([], _) => some (s, none)
  | .ok (endpoint :: _, _) =>
      match (service h app rounds).step s (endpoint, { req := req, res := res }) with
      | .error _ => none
      | .ok (s', answer) =>
          some (s', some { id := id, exchange := { req := req, res := res }, answer := answer })

/-- An event at the connections; a request that it completes is served at once. -/
def step (p : Process σ) (event : NetworkEvent) :
    Except Refusal (Process σ × Option ServedRequest) :=
  let event := event.withHandler (handlerAt h rh app rounds p.backend)
  match p.server.step event with
  | .error refusal => .error refusal
  | .ok (server, ()) =>
      match p.server.called event with
      | none => .ok ({ server := server, backend := p.backend }, none)
      | some (id, req, res) =>
          match serve h rh app rounds p.backend id req res with
          | none => .error .refused
          | some (backend, served) => .ok ({ server := server, backend := backend }, served)

def machine : EventMachine (Process σ) NetworkEvent (Option ServedRequest) Refusal where
  step := step h rh app rounds

end Process

/-! ## What an event does to a connection -/

/-- The request handler is called first, if it is called. -/
theorem Connection.head_of_called {c c' : Connection} {r : ReadCompletion} {out : List Action}
    (stepped : Connection.onRead c r = .ok (c', out)) {req : Request} {res : Response}
    (called : .handleRequest req res ∈ out) : ∃ rest, out = .handleRequest req res :: rest := by
  cases Connection.readStep_of_onRead stepped with
  | headDispatched | bodyDispatched =>
      rcases List.mem_cons.mp called with here | written
      · cases here
        exact ⟨_, rfl⟩
      · cases List.mem_singleton.mp written
  | _ => simp at called

/-- The request handler is called with a clean request. -/
theorem CleanConnection.called {c c' : Connection} {r : ReadCompletion} {out : List Action}
    (clean : CleanConnection c) (stepped : Connection.onRead c r = .ok (c', out)) {req : Request}
    {res : Response} (called : .handleRequest req res ∈ out) : CleanRequest req := by
  cases Connection.readStep_of_onRead stepped with
  | headDispatched header parsed scanned =>
      rcases List.mem_cons.mp called with here | written
      · cases here
        have head := clean.req.parse c.requestParser r.chunk.bytes
        rw [parsed] at head
        exact (head.scanHeaders head.headers scanned).withBody _
      · cases List.mem_singleton.mp written
  | bodyDispatched =>
      rcases List.mem_cons.mp called with here | written
      · cases here
        exact clean.req.withBody _
      · cases List.mem_singleton.mp written
  | _ => simp at called

namespace Server

@[simp] theorem startOperations_connection (s : Server) (id : Nat) (operations : List Operation)
    (other : Nat) : ((s.startOperations id operations).slot other).connection =
      (s.slot other).connection := by
  by_cases same : other = id
  · subst same
    rw [startOperations, setSlot_self]
  · rw [startOperations, setSlot_other _ _ same]

@[simp] theorem complete_connection (s : Server) (id : Nat) (operation : Operation) (other : Nat) :
    ((s.complete id operation).slot other).connection = (s.slot other).connection := by
  by_cases same : other = id
  · subst same
    rw [complete, setSlot_self]
  · rw [complete, setSlot_other _ _ same]

@[simp] theorem stopConnection_connection (s : Server) (id other : Nat) :
    ((s.stopConnection id).slot other).connection = (s.slot other).connection := by
  by_cases same : other = id
  · subst same
    rw [stopConnection, setSlot_self]
  · rw [stopConnection, setSlot_other _ _ same]

/-- A connection object changes when one of its reads completes, and at no other time. -/
theorem connection_of_step {s s' : Server} {event : Event} (stepped : s.step event = .ok (s', ()))
    (id : Nat) :
    (s'.slot id).connection = (s.slot id).connection ∨
      ∃ r out, event = .readDone id r ∧
        Connection.onRead (s.slot id).connection r = .ok ((s'.slot id).connection, out) := by
  unfold Server.step at stepped
  split at stepped
  · cases stepped
  cases event with
  | accepted =>
      simp only at stepped
      split at stepped
      · cases stepped
        exact .inl (startOperations_connection _ _ _ _)
      · cases stepped
        exact .inl rfl
  | readDone read r =>
      simp only at stepped
      split at stepped
      · cases stepped
        unfold handleRead
        rw [complete_connection]
        split
        · exact .inl (complete_connection _ _ _ _)
        · rename_i c out handled
          rw [startOperations_connection]
          by_cases same : id = read
          · subst same
            rw [setSlot_self]
            exact .inr ⟨r, out, rfl, handled⟩
          · rw [setSlot_other _ _ same, complete_connection]
            exact .inl rfl
      · cases stepped
  | readFailed read failure =>
      simp only at stepped
      split at stepped
      · cases stepped
        left
        cases failure <;> simp [handleReadFailure]
      · cases stepped
  | writeDone written failure =>
      simp only at stepped
      split at stepped
      · cases stepped
        left
        unfold handleWrite
        split <;> simp
      · cases stepped
  | stop stopped =>
      simp only at stepped
      split at stepped
      · cases stepped
        exact .inl (stopConnection_connection _ _ _)
      · cases stepped
  | stopAll =>
      cases stepped
      left
      simp only [stopAll]
      split <;> rfl

theorem called_of_mem {s : Server} {id : Nat} {r : ReadCompletion} {c : Connection}
    {out : List Action} (handled : Connection.onRead (s.slot id).connection r = .ok (c, out))
    {req : Request} {res : Response} (member : .handleRequest req res ∈ out) :
    s.called (.readDone id r) = some (id, req, res) := by
  obtain ⟨rest, rfl⟩ := Connection.head_of_called handled member
  rw [called, handled]

theorem mem_of_called {s : Server} {event : Event} {id : Nat} {req : Request} {res : Response}
    (called : s.called event = some (id, req, res)) :
    ∃ r c out, event = .readDone id r ∧
      Connection.onRead (s.slot id).connection r = .ok (c, out) ∧
      .handleRequest req res ∈ out := by
  cases event with
  | readDone read r =>
      rw [Server.called] at called
      split at called
      · rename_i c request response rest handled
        cases called
        exact ⟨r, c, _, rfl, handled, List.mem_cons_self⟩
      · cases called
  | _ => cases called

end Server

/-! ## What an event does to the backend -/

namespace Process

variable {σ : Type} {h : BackendHandler σ} {rh : RequestHandler Endpoint} {app : Application}
  {rounds : Nat}

/-- Either the router finds nothing and the backend stays as it is, or the endpoint that it
finds is run. -/
theorem serve_cases {s s' : σ} {id : Nat} {req : Request} {res : Response}
    {out : Option ServedRequest} (served : serve h rh app rounds s id req res = some (s', out)) :
    (rh.route req = .ok none ∧ s' = s ∧ out = none) ∨
      ∃ endpoint answer, rh.route req = .ok (some endpoint) ∧
        (service h app rounds).step s (endpoint, { req := req, res := res }) =
          .ok (s', answer) ∧
        out = some { id := id, exchange := { req := req, res := res }, answer := answer } := by
  unfold serve RequestHandler.handleRequest at served
  cases routed : rh.route req with
  | error e =>
      rw [routed] at served
      cases served
  | ok found =>
      rw [routed] at served
      cases found with
      | none =>
          cases served
          exact .inl ⟨rfl, rfl, rfl⟩
      | some endpoint =>
          right
          refine ⟨endpoint, ?_⟩
          change (match (service h app rounds).step s (endpoint, { req := req, res := res }) with
            | .error _ => none
            | .ok (s', answer) => some (s', some
                { id := id, exchange := { req := req, res := res }, answer := answer })) =
            some (s', out) at served
          split at served
          · cases served
          · rename_i s₁ answer stepped
            cases served
            exact ⟨answer, rfl, stepped, rfl⟩

theorem endpoint_of_step {s s' : σ} {request : Endpoint × Exchange} {answer : Answer}
    (stepped : (service h app rounds).step s request = .ok (s', answer)) :
    answer.endpoint = request.1 ∧
      run h (request.1.handle app rounds request.2) s = some (answer.exchange, s') := by
  obtain ⟨ex, ran, rfl⟩ := run_of_service_step h app rounds stepped
  exact ⟨rfl, ran⟩

/-- Where the process goes on, the request handler answers as the server. -/
theorem servedBy_handlerAt {s s' : σ} {id : Nat} {req : Request} {res : Response}
    {out : Option ServedRequest} (served : serve h rh app rounds s id req res = some (s', out)) :
    ServedBy rh app rounds req res (handlerAt h rh app rounds s req res) := by
  unfold handlerAt RequestHandler.handleRequest
  rcases serve_cases served with ⟨routed, -, -⟩ | ⟨endpoint, answer, routed, stepped, -⟩
  · rw [routed]
    exact .notFound routed
  · rw [routed]
    obtain ⟨-, ran⟩ := endpoint_of_step stepped
    have answered : callbacks h app rounds s endpoint req res =
        (answer.exchange.req, answer.exchange.res) := by
      rw [callbacks, ran]
    change ServedBy rh app rounds req res (callbacks h app rounds s endpoint req res)
    rw [answered]
    exact .called routed ran

theorem step_cases {p p' : Process σ} {event : NetworkEvent} {out : Option ServedRequest}
    (stepped : step h rh app rounds p event = .ok (p', out)) :
    p.server.step (event.withHandler (handlerAt h rh app rounds p.backend)) =
        .ok (p'.server, ()) ∧
      (p.server.called (event.withHandler (handlerAt h rh app rounds p.backend)) = none ∧
          p'.backend = p.backend ∧ out = none ∨
        ∃ id req res,
          p.server.called (event.withHandler (handlerAt h rh app rounds p.backend)) =
            some (id, req, res) ∧
          serve h rh app rounds p.backend id req res = some (p'.backend, out)) := by
  unfold step at stepped
  dsimp only at stepped
  split at stepped
  · cases stepped
  rename_i server moved
  split at stepped
  · rename_i nothing
    cases stepped
    exact ⟨moved, .inl ⟨nothing, rfl, rfl⟩⟩
  · rename_i id req res called
    split at stepped
    · cases stepped
    · rename_i backend answered served
      cases stepped
      exact ⟨moved, .inr ⟨id, req, res, called, served⟩⟩

theorem handler_of_withHandler {handler : Handler} {event : NetworkEvent} {id : Nat}
    {r : ReadCompletion} (isRead : event.withHandler handler = .readDone id r) :
    r.handler = handler := by
  cases event with
  | readDone => cases isRead; rfl
  | _ => cases isRead

/-- In a step of the process a read's handler is the server. -/
theorem served_of_step {p p' : Process σ} {event : NetworkEvent} {out : Option ServedRequest}
    (stepped : step h rh app rounds p event = .ok (p', out)) {id : Nat} {r : ReadCompletion}
    (isRead : event.withHandler (handlerAt h rh app rounds p.backend) = .readDone id r)
    {c : Connection} {actions : List Action}
    (handled : Connection.onRead (p.server.slot id).connection r = .ok (c, actions)) :
    Served rh app rounds r actions := by
  intro req res member
  have called := Server.called_of_mem handled member
  rw [handler_of_withHandler isRead]
  obtain ⟨-, ⟨nothing, -⟩ | ⟨id', req', res', calledWith, served⟩⟩ := step_cases stepped
  · rw [isRead, called] at nothing
    cases nothing
  · rw [isRead, called] at calledWith
    cases calledWith
    exact servedBy_handlerAt served

/-! ## Runs of the whole server -/

/-- Every connection is clean, the requests that the endpoints have answered are a run of
the service from its start to the state of the backend, and each of them was routed and
came with a clean session id. -/
structure Traced (h : BackendHandler σ) (rh : RequestHandler Endpoint) (app : Application)
    (rounds : Nat) (start : σ) (served : List ServedRequest) (p : Process σ) : Prop where
  clean : ∀ id, CleanConnection (p.server.slot id).connection
  ran : (service h app rounds).run start (served.map ServedRequest.request) =
    .ok (p.backend, served.map ServedRequest.answer)
  routed : ∀ request ∈ served, Clean request.exchange.req.sessionId ∧
    rh.route request.exchange.req = .ok (some request.answer.endpoint)

theorem Traced.start (s : σ) : Traced h rh app rounds s [] { backend := s } where
  clean := fun _ => clean_start
  ran := rfl
  routed := List.forall_mem_nil _

theorem Traced.step {start : σ} {served : List ServedRequest} {p p' : Process σ}
    {event : NetworkEvent} {out : Option ServedRequest}
    (traced : Traced h rh app rounds start served p)
    (stepped : Process.step h rh app rounds p event = .ok (p', out)) :
    Traced h rh app rounds start (served ++ out.toList) p' := by
  obtain ⟨moved, rest⟩ := step_cases stepped
  have clean : ∀ id, CleanConnection (p'.server.slot id).connection := by
    intro id
    rcases Server.connection_of_step moved id with same | ⟨r, actions, isRead, handled⟩
    · rw [same]
      exact traced.clean id
    · exact (traced.clean id).onRead (served_of_step stepped isRead handled) handled
  rcases rest with ⟨-, same, rfl⟩ | ⟨id, req, res, called, answered⟩
  · rw [Option.toList_none, List.append_nil]
    exact ⟨clean, by rw [same]; exact traced.ran, traced.routed⟩
  · rcases serve_cases answered with ⟨-, same, rfl⟩ | ⟨endpoint, answer, routed, answers, rfl⟩
    · rw [Option.toList_none, List.append_nil]
      exact ⟨clean, by rw [same]; exact traced.ran, traced.routed⟩
    · obtain ⟨named, -⟩ := endpoint_of_step answers
      obtain ⟨r, c, actions, isRead, handled, member⟩ := Server.mem_of_called called
      refine ⟨clean, ?_, ?_⟩
      · rw [Option.toList_some, List.map_append, List.map_append]
        refine EventMachine.run_concat_ok.mpr ⟨p.backend, _, answer, traced.ran, ?_, rfl⟩
        rw [ServedRequest.request]
        dsimp only
        rw [named]
        exact answers
      · intro request listed
        rcases List.mem_append.mp listed with old | new
        · exact traced.routed request old
        · obtain rfl := List.mem_singleton.mp new
          refine ⟨((traced.clean id).called handled member).sessionId, ?_⟩
          have found : answer.endpoint = endpoint := named
          dsimp only
          rw [routed, found]

/-- The requests that were answered in a run. -/
theorem traced_of_run {start : σ} {events : List NetworkEvent}
    {outputs : List (Option ServedRequest)} {last : Process σ}
    (ran : (machine h rh app rounds).run { backend := start } events = .ok (last, outputs)) :
    Traced h rh app rounds start outputs.reduceOption last := by
  refine EventMachine.run_invariant
    (fun _ outputs p => Traced h rh app rounds start outputs.reduceOption p)
    (Traced.start start) ?_ ran
  intro before outputs p event p' out _ traced stepped
  have appended : (outputs ++ [out]).reduceOption = outputs.reduceOption ++ out.toList := by
    rw [List.reduceOption_append]
    cases out <;> rfl
  rw [appended]
  exact traced.step stepped

/-- Each answered request is determined by the ones before it. -/
theorem Traced.determined {view : σ → StoreMap} (healthy : HealthyStore h view)
    (lawful : LawfulLibraries app.libraries) {start : σ}
    (noSessions : ∀ sid, view start (sessionPrefix ++ sid) = none) {served : List ServedRequest}
    {p : Process σ} (traced : Traced h rh app rounds start served p)
    (utf8 : ∀ request ∈ served, ∀ sid user,
      request.answer.event = some (.login sid user) → ValidUtf8 user.id ∧ ValidUtf8 user.username)
    {before after : List ServedRequest} {request : ServedRequest}
    (split : served = before ++ request :: after) :
    ∃ sid, request.exchange.HasSession sid ∧
      Determined app.libraries (before.map ServedRequest.answer) sid request.answer := by
  subst split
  have noNul : ∀ called ∈ (before ++ request :: after).map ServedRequest.request,
      0 ∉ called.2.req.sessionId := by
    intro called member
    obtain ⟨other, listed, rfl⟩ := List.mem_map.mp member
    exact (traced.routed other listed).1.zero_notMem
  have validUtf8 : ∀ answer ∈ (before ++ request :: after).map ServedRequest.answer,
      ∀ sid user, answer.event = some (.login sid user) →
        ValidUtf8 user.id ∧ ValidUtf8 user.username := by
    intro answer member
    obtain ⟨other, listed, rfl⟩ := List.mem_map.mp member
    exact utf8 other listed
  have answered := traced.ran
  rw [List.map_append, List.map_cons] at answered noNul
  obtain ⟨earlier, answer, later, same, length, sid, session, determined⟩ :=
    healthy.access_control lawful noSessions noNul answered validUtf8
  rw [List.map_append, List.map_cons] at same
  obtain ⟨rfl, rest⟩ := List.append_inj same (by rw [List.length_map, length, List.length_map])
  cases rest
  exact ⟨sid, session, determined⟩

/-- The state in which an answered request was served. -/
theorem Traced.split_step {start : σ} {p : Process σ} {earlier later : List ServedRequest}
    {request : ServedRequest}
    (traced : Traced h rh app rounds start (earlier ++ request :: later) p) :
    ∃ s s', (service h app rounds).run start (earlier.map ServedRequest.request) =
        .ok (s, earlier.map ServedRequest.answer) ∧
      (service h app rounds).step s request.request = .ok (s', request.answer) := by
  have answered := traced.ran
  rw [List.map_append, List.map_cons, List.map_append, List.map_cons] at answered
  obtain ⟨s, first, second, begun, ended, same⟩ := EventMachine.run_append_ok.mp answered
  obtain ⟨s', answer, rest, stepped, -, rfl⟩ := EventMachine.run_cons_ok.mp ended
  have length := EventMachine.length_of_run begun
  obtain ⟨rfl, tail⟩ := List.append_inj same (by rw [length, List.length_map, List.length_map])
  cases tail
  exact ⟨s, s', begun, stepped⟩

/-- Access control of the whole server, with one thread in its event loop.  Over a healthy
store without sessions at first, in a run that the process survives, whatever bytes arrive on
whatever connections, in whatever pieces and order: every request that an endpoint answers is
determined by the requests answered before it on all connections and by its own session id,
if the users who log in are in UTF-8. -/
theorem answers_determined {view : σ → StoreMap} (healthy : HealthyStore h view)
    (lawful : LawfulLibraries app.libraries) {start : σ}
    (noSessions : ∀ sid, view start (sessionPrefix ++ sid) = none) {events : List NetworkEvent}
    {outputs : List (Option ServedRequest)} {last : Process σ}
    (ran : (machine h rh app rounds).run { backend := start } events = .ok (last, outputs))
    (utf8 : ∀ request ∈ outputs.reduceOption, ∀ sid user,
      request.answer.event = some (.login sid user) → ValidUtf8 user.id ∧ ValidUtf8 user.username)
    {before after : List ServedRequest} {served : ServedRequest}
    (split : outputs.reduceOption = before ++ served :: after) :
    rh.route served.exchange.req = .ok (some served.answer.endpoint) ∧
      ∃ sid, served.exchange.HasSession sid ∧ Clean served.exchange.req.sessionId ∧
        Determined app.libraries (before.map ServedRequest.answer) sid served.answer := by
  have traced := traced_of_run ran
  obtain ⟨clean, routed⟩ := traced.routed served (by rw [split]; simp)
  obtain ⟨sid, session, determined⟩ := traced.determined healthy lawful noSessions utf8 split
  exact ⟨routed, sid, session, clean, determined⟩

end Process

/-! ## A login on one connection and its session on another -/

/-- A text that arrives at once. -/
def textChunk (text : String) (fits : (ascii text).length ≤ bufferSize) : Chunk where
  bytes := ascii text
  fits := fits

/-- The server of the four endpoints. -/
def sampleServer : RequestHandler Endpoint :=
  (RequestHandler.construct Auth.getRouters (ascii "/api")).toOption.getD
    { basePath := [], map := fun _ => none }

/-- The login that the sample row is for. -/
def loginChunk : Chunk where
  bytes := ascii "POST /api/auth/login HTTP/1.1\r\nContent-Type: application/json\r\n" ++
    ascii "Content-Length: 45\r\nCookie: SESSION=chosen\r\n\r\n" ++
    (sampleExchange (ascii "username") (ascii "password")).req.body
  fits := by decide +kernel

/-- The head of the second request arrives in two reads, before and after the login. -/
def sampleEvents : List NetworkEvent :=
  [.accepted, .accepted, .readDone 1 (textChunk "GET /api/user?" (by decide)) 1,
    .readDone 0 loginChunk 0,
    .readDone 1 (textChunk " HTTP/1.1\r\nCookie: SESSION=aaaaaaaaaaaaaaaa\r\n\r\n" (by decide)) 0]

/-- What the sample shows of an answered request. -/
structure AnswerSummary where
  session : Bytes
  endpoint : Endpoint
  status : Int
  user : Option User
  answered : Option Bytes
  deriving DecidableEq

def ServedRequest.summary (served : ServedRequest) : AnswerSummary where
  session := served.exchange.req.sessionId
  endpoint := served.answer.endpoint
  status := served.answer.exchange.res.status
  user := served.answer.user
  answered := answeredId sampleApplication.libraries served.answer.exchange.res.content

def sampleSummaries : List AnswerSummary :=
  [{ session := ascii "chosen"
     endpoint := .login
     status := statusNoContent
     user := some
      { id := sampleRow.id, username := sampleRow.username, hashed := sampleRow.password }
     answered := none },
   { session := ascii "aaaaaaaaaaaaaaaa"
     endpoint := .user
     status := statusOk
     user := none
     answered := some sampleRow.id }]

theorem answers_determined_sample : ∃ last outputs login named,
    (Process.machine (World.handler sampleEnvironment) sampleServer sampleApplication 1).run
        { backend := sampleWorld [sampleRow] } sampleEvents = .ok (last, outputs) ∧
      outputs.reduceOption = [login, named] ∧ named.answer.exchange.res.status = statusOk ∧
      ∃ user, LoggedIn [login.answer] (ascii "aaaaaaaaaaaaaaaa") user ∧ user.id = sampleRow.id := by
  have ran : ((Process.machine (World.handler sampleEnvironment) sampleServer
      sampleApplication 1).run { backend := sampleWorld [sampleRow] } sampleEvents).map
        (fun ended => decide (ended.2.reduceOption.map ServedRequest.summary = sampleSummaries)) =
      .ok true := by
    decide +kernel
  obtain ⟨last, outputs, ended, shown⟩ := EventMachine.exists_of_view ran
  obtain ⟨login, rest, two, loginSeen, restSeen⟩ :=
    List.map_eq_cons_iff.mp (of_decide_eq_true shown)
  obtain ⟨named, nothing, one, namedSeen, nothingSeen⟩ := List.map_eq_cons_iff.mp restSeen
  obtain rfl := List.map_eq_nil_iff.mp nothingSeen
  subst one
  simp only [ServedRequest.summary, AnswerSummary.mk.injEq] at loginSeen namedSeen
  have utf8 : ∀ request ∈ outputs.reduceOption, ∀ sid user,
      request.answer.event = some (.login sid user) →
        ValidUtf8 user.id ∧ ValidUtf8 user.username := by
    intro request member sid user issued
    have known := (Answer.of_login_event issued).2
    rw [two] at member
    simp only [List.mem_cons, List.not_mem_nil, or_false] at member
    rcases member with rfl | rfl
    · rw [loginSeen.2.2.2.1] at known
      cases known
      exact validUtf8_sampleRow
    · rw [namedSeen.2.2.2.1] at known
      cases known
  have split : outputs.reduceOption = [login] ++ named :: [] := two
  obtain ⟨-, sid, session, -, determined⟩ := Process.answers_determined
    (World.healthy sampleEnvironment) lawful_sampleLibraries (fun _ => rfl) ended utf8 split
  have own : sid = ascii "aaaaaaaaaaaaaaaa" := by
    rcases session.2 with same | ⟨empty, -⟩
    · rw [same, namedSeen.1]
    · rw [namedSeen.1] at empty
      exact absurd empty (by decide)
  subst own
  exact ⟨last, outputs, login, named, ended, two, namedSeen.2.2.1,
    ((determined.user namedSeen.2.1).1 sampleRow.id).mp ⟨namedSeen.2.2.1, namedSeen.2.2.2.2⟩⟩

end CleanArchitecture
