import CleanArchitecture.ConnectionReuse
import CleanArchitecture.HeaderScan
import CleanArchitecture.ServerProcess
import CleanArchitecture.SetCookieDecoding

/-!
# A session over the wire

A client reads the cookie of a login out of the bytes of its response and sends it back in
the header of a later request, on another connection.  The server finds the session, and the
client reads the user out of the bytes of the second response.
-/

namespace CleanArchitecture

open Program Backend WrapperRequest WrapperResponse RequestGrammar

/-! ## What the scan makes of the session's cookie -/

namespace Connection

open RequestParser

/-- All bytes of a request. -/
def WellFormedRequest.chunk (request : WellFormedRequest) : Chunk where
  bytes := request.head ++ request.body
  fits := request.fits

/-- A header without a cookie, and without a length that cannot be converted. -/
def NoCookie (h : Header) : Prop :=
  ¬ IsCookie h ∧ (IsContentLength h → ∃ n, stoi h.value = .ok n)

/-- A round that leaves the session and the cookies alone. -/
structure KeepsSession (req req' : Request) : Prop where
  sessionId : req'.sessionId = req.sessionId
  cookies : req'.cookies = req.cookies
  head : SameHead req' req

theorem KeepsSession.refl (req : Request) : KeepsSession req req :=
  ⟨rfl, rfl, SameHead.refl req⟩

theorem KeepsSession.trans {req middle last : Request} (first : KeepsSession req middle)
    (second : KeepsSession middle last) : KeepsSession req last :=
  ⟨second.sessionId.trans first.sessionId, second.cookies.trans first.cookies,
    second.head.trans first.head⟩

/-- The headers that the counter may count besides the cookies. -/
def isCounted (h : Header) : Bool :=
  iequals h.name (ascii "content-length") || iequals h.name (ascii "content-type")

theorem scanHeader_noCookie {h : Header} (plain : NoCookie h) (i : Nat) (req : Request) :
    ∃ j req', scanHeader i req h = .ok (j, req') ∧ KeepsSession req req' ∧
      j ≤ i + if isCounted h then 1 else 0 := by
  unfold scanHeader
  split
  · rename_i length
    obtain ⟨n, converted⟩ := plain.2 length.2
    rw [converted]
    refine ⟨_, _, rfl, ⟨rfl, rfl, rfl, rfl, rfl, rfl, rfl, rfl⟩, ?_⟩
    simp [isCounted, length.2]
  · split
    · rename_i type
      refine ⟨_, _, rfl, ⟨rfl, rfl, rfl, rfl, rfl, rfl, rfl, rfl⟩, ?_⟩
      simp [isCounted, type.2]
    · rw [if_neg fun cookie => plain.1 cookie.2]
      exact ⟨_, _, rfl, .refl req, Nat.le_add_right _ _⟩

/-- Headers without cookies, with the counter behind them. -/
theorem scanAll_noCookie {headers : List Header} (plain : ∀ h ∈ headers, NoCookie h) (i : Nat)
    (req : Request) :
    ∃ j req', scanAll headers i req = .ok (j, req') ∧ KeepsSession req req' ∧
      j ≤ i + headers.countP isCounted := by
  induction headers generalizing i req with
  | nil => exact ⟨i, req, rfl, .refl req, le_refl i⟩
  | cons h headers ih =>
      obtain ⟨k, next, first, kept, few⟩ := scanHeader_noCookie (plain h List.mem_cons_self) i req
      obtain ⟨j, last, rest, keptToo, fewToo⟩ :=
        ih (fun later member => plain later (List.mem_cons_of_mem h member)) k next
      refine ⟨j, last, scanAll_cons.mpr ⟨k, next, first, rest⟩, kept.trans keptToo, ?_⟩
      rw [List.countP_cons]
      omega

/-- Wherever the loop over such headers is left, they leave the session alone. -/
theorem scanHeaders_noCookie {headers : List Header} (plain : ∀ h ∈ headers, NoCookie h) (i : Nat)
    (req : Request) :
    ∃ j req', scanHeaders headers i req = .ok (j, req') ∧ KeepsSession req req' := by
  induction headers generalizing i req with
  | nil => exact ⟨i, req, rfl, .refl req⟩
  | cons h headers ih =>
      obtain ⟨k, next, first, kept, -⟩ := scanHeader_noCookie (plain h List.mem_cons_self) i req
      rw [scanHeaders, first]
      dsimp only
      split
      · exact ⟨k, next, rfl, kept⟩
      · obtain ⟨j, last, rest, keptToo⟩ :=
          ih (fun later member => plain later (List.mem_cons_of_mem h member)) k next
        exact ⟨j, last, rest, kept.trans keptToo⟩

/-- One cookie header in standard form with this value of the session, behind at most two
headers that are counted. -/
structure SendsSession (headers : List Header) (value : Bytes) : Prop where
  cookie : ∃ before name pairs after,
    headers = before ++ { name := name, value := cookieHeader pairs } :: after ∧
      iequals name (ascii "cookie") = true ∧ (∀ pair ∈ pairs, CleanPair pair) ∧
      lastValue pairs sessionName = some value ∧ (∀ h ∈ before ++ after, ¬ IsCookie h) ∧
      before.countP isCounted ≤ 2

theorem SendsSession.scanned {headers : List Header} {value : Bytes}
    (sends : SendsSession headers value)
    (converts : ∀ h ∈ headers, IsContentLength h → ∃ n, stoi h.value = .ok n) {req : Request}
    (fresh : req.cookies = []) :
    ∃ i last, scanHeaders headers 0 req = .ok (i, last) ∧ last.sessionId = value ∧
      SameHead last req := by
  obtain ⟨before, name, pairs, after, rfl, named, clean, valued, others, few⟩ := sends.cookie
  have plain : (∀ h ∈ before, NoCookie h) ∧ ∀ h ∈ after, NoCookie h := by
    rw [List.forall_mem_append] at others
    exact ⟨fun h member => ⟨others.1 h member, converts h (by simp [member])⟩,
      fun h member => ⟨others.2 h member, converts h (by simp [member])⟩⟩
  obtain ⟨k, middle, began, kept, bound⟩ := scanAll_noCookie plain.1 0 req
  have empty : middle.cookies = [] := kept.cookies.trans fresh
  obtain ⟨cookies, -, parsed⟩ := parseCookie_cookieHeader clean empty
  have isCookie : IsCookie { name := name, value := cookieHeader pairs } := named
  have round : scanHeader k middle { name := name, value := cookieHeader pairs } =
      .ok (k + 1, { middle with
        sessionId := (lastValue pairs (ascii "SESSION")).getD middle.sessionId
        cookies := cookies }) := by
    have others := names_apart.2.2 isCookie
    rw [scanHeader, if_neg fun length => others.1 length.2, if_neg fun type => others.2 type.2,
      if_pos ⟨by rw [empty]; rfl, named⟩, parsed]
  have session : (lastValue pairs (ascii "SESSION")).getD middle.sessionId = value := by
    have found : lastValue pairs (ascii "SESSION") = some value := valued
    rw [found, Option.getD_some]
  rw [scanHeaders_of_scanAll began (by omega), scanHeaders, round]
  dsimp only
  split
  · exact ⟨_, _, rfl, session, kept.head⟩
  · obtain ⟨j, last, rest, keptToo⟩ := scanHeaders_noCookie plain.2 (k + 1)
      { middle with
        sessionId := (lastValue pairs (ascii "SESSION")).getD middle.sessionId
        cookies := cookies }
    exact ⟨j, last, rest, keptToo.sessionId.trans session, keptToo.head.trans kept.head⟩

/-- A well-formed request that arrives at once on a fresh connection is dispatched with the
session of its cookie. -/
theorem onRead_session {request : WellFormedRequest} {value : Bytes}
    (sends : SendsSession request.headers value) (handler : Handler) :
    ∃ c req, onRead {} { chunk := request.chunk, available := 0, handler := handler } =
        .ok (c, [.handleRequest req {}, .doWrite (handler req {}).2]) ∧
      c.res = (handler req {}).2 ∧ req.sessionId = value ∧ req.method = request.line.method ∧
      req.uri = request.line.uri := by
  have fresh : (headRequest request.line request.headers).cookies = [] := rfl
  have converts : ∀ h ∈ request.headers, IsContentLength h → ∃ n, stoi h.value = .ok n := by
    intro h member length
    have fits := request.fits
    rw [List.length_append] at fits
    exact ⟨_, stoi_of_isNumeral (request.declared h member length)
      (by unfold bufferSize at fits; omega)⟩
  obtain ⟨i, values, scanned, session, head⟩ := sends.scanned converts fresh
  let e : Exchange := { request := request, handler := handler }
  have fits : e.read.chunk.bytes.length - request.head.length ≤ toUint32 values.contentLen := by
    change (request.head ++ request.body).length - request.head.length ≤ _
    simpa using body_fits request scanned
  have dispatched := onRead_of_good (c := {}) rfl (parse_exchange e) scanned
  have nothingLeft : e.read.available = 0 := rfl
  rw [if_pos nothingLeft, if_neg (Nat.not_lt_of_le fits)] at dispatched
  exact ⟨_, _, dispatched, rfl, session, head.1, head.2.1⟩

end Connection

/-! ## What a client makes of a response -/

/-- The cookies that the lines of a head set, in their order. -/
def receivedCookies (bytes : Bytes) : List SetCookie.Decoded :=
  match readHead [] bytes with
  | none => []
  | some (lines, _) => (fieldValues (ascii "set-cookie") lines.tail).filterMap SetCookie.decode

/-- The first line of the head, and what follows the head. -/
def received (bytes : Bytes) : Option (Bytes × Bytes) :=
  (readHead [] bytes).map fun head => (head.1.headD [], head.2)

/-- The blank behind a field's name is trimmed, and nothing else of a value without blanks at
its ends. -/
theorem trim_space_cons {text : Bytes} (first : ∀ c ∈ text.head?, isspace c = false)
    (last : ∀ c ∈ text.getLast?, isspace c = false) : trim (32 :: text) = text := by
  have left : ltrim (32 :: text) = text := by
    rw [ltrim, List.dropWhile_cons_of_pos rfl]
    cases text with
    | nil => rfl
    | cons c rest => rw [List.dropWhile_cons_of_neg (by simp [first c rfl])]
  rw [trim, left, rtrim]
  cases reversed : text.reverse with
  | nil => rw [List.reverse_eq_nil_iff.mp reversed]; rfl
  | cons c rest =>
      have ends : c ∈ text.getLast? := by
        rw [← List.head?_reverse, reversed]
        rfl
      rw [List.dropWhile_cons_of_neg (by simp [last c ends]), ← reversed, List.reverse_reverse]

theorem setCookieLabel : ascii "Set-Cookie: " = ascii "Set-Cookie" ++ ascii ": " := by
  decide +kernel

theorem Spelt.subset_alphabet {sid : Bytes} (spelt : Spelt sid) : sid ⊆ alphabet := by
  obtain ⟨words, rfl⟩ := spelt
  exact spellId_subset words

/-- The cookie of a login can be decoded. -/
theorem Spelt.decodable {sid : Bytes} (spelt : Spelt sid) (age : Int) :
    (WrapperRequest.sessionCookie sid age).Decodable where
  named := (by decide : sessionName ≠ [])
  noEquals := (by decide : '='.toUInt8 ∉ sessionName)
  noSemicolon := by
    have noSemicolon : ';'.toUInt8 ∉ sid := spelt.clean.2
    intro text member
    simp only [WrapperRequest.sessionCookie, List.mem_cons, List.not_mem_nil, or_false] at member
    rcases member with rfl | rfl | rfl | rfl | rfl
    · decide
    · exact noSemicolon
    · decide
    · decide
    · decide
  bare := by
    have noBlank : ∀ c ∈ alphabet, SetCookie.isBlank c = false := by decide +kernel
    have bare : SetCookie.Bare sid :=
      ⟨fun c first => noBlank c (spelt.subset_alphabet (List.mem_of_mem_head? first)),
        fun c last => noBlank c (spelt.subset_alphabet (List.mem_of_mem_getLast? last))⟩
    intro text member
    simp only [WrapperRequest.sessionCookie, List.mem_cons, List.not_mem_nil, or_false] at member
    rcases member with rfl | rfl | rfl | rfl | rfl
    · decide
    · exact bare
    · decide
    · decide
    · decide
  absolute := .inr (by decide : (ascii "/").head? = some '/'.toUInt8)
  lower := rfl
  noDot := (by decide : ([] : Bytes).head? ≠ some '.'.toUInt8)
  fresh := rfl

/-- The attributes of the cookie of a login. -/
def loginAttributes : Bytes :=
  ascii "; Path=/; SameSite=strict; MaxAge=3600"

theorem toString_loginCookie (sid : Bytes) :
    (WrapperRequest.sessionCookie sid 3600).toString =
      ascii "SESSION=" ++ sid ++ loginAttributes := by
  have attributes : (sessionAttributes 3600).flatMap ([';'.toUInt8] ++ ·) = loginAttributes := by
    decide +kernel
  rw [toString_sessionCookie, intercalate_cons, attributes]

/-- What a login answers on a fresh connection: no content and one cookie. -/
def loginResponse (sid : Bytes) : Response where
  status := statusNoContent
  cookies := [WrapperRequest.sessionCookie sid 3600]

theorem headLines_loginResponse (sid : Bytes) :
    (loginResponse sid).headLines = [statusText statusNoContent,
      ascii "Set-Cookie: " ++ (WrapperRequest.sessionCookie sid 3600).toString] := by
  simp [Response.headLines, loginResponse]

theorem plain_loginCookie {sid : Bytes} (spelt : Spelt sid) :
    13 ∉ (WrapperRequest.sessionCookie sid 3600).toString :=
  fun cr => (sessionCookie_attributes spelt.clean 3600).1 13 cr (.inl (by decide))

/-- What a client makes of it: the attribute of the age is not known to clients. -/
def loginCookie (sid : Bytes) : SetCookie.Decoded where
  name := sessionName
  value := sid
  path := ascii "/"
  sameSite := ascii "strict"

/-- The client keeps one cookie, with the session id. -/
theorem receivedCookies_loginResponse {sid : Bytes} (spelt : Spelt sid) :
    receivedCookies (loginResponse sid).bytes = [loginCookie sid] := by
  have whole : ∀ line ∈ (loginResponse sid).headLines, line ≠ [] ∧ ¬ crlf <:+: line := by
    rw [headLines_loginResponse]
    intro line member
    simp only [List.mem_cons, List.not_mem_nil, or_false] at member
    rcases member with rfl | rfl
    · obtain ⟨nonempty, noCr⟩ := statusText_line statusNoContent
      exact ⟨nonempty, noCrlf_of_noCr noCr⟩
    · refine ⟨List.append_ne_nil_of_left_ne_nil (by decide) _, noCrlf_of_noCr ?_⟩
      intro cr
      rcases List.mem_append.mp cr with label | text
      · exact absurd label (by decide +kernel)
      · exact plain_loginCookie spelt text
  have text : trim (32 :: (WrapperRequest.sessionCookie sid 3600).toString) =
      (WrapperRequest.sessionCookie sid 3600).toString := by
    have parts : ascii "SESSION=" = 83 :: ascii "ESSION=" ∧
        loginAttributes = loginAttributes.dropLast ++ [48] := by
      decide +kernel
    rw [toString_loginCookie]
    apply trim_space_cons
    · intro c first
      rw [parts.1] at first
      obtain rfl : 83 = c := Option.some.inj first
      decide
    · intro c last
      rw [parts.2, ← List.append_assoc, List.getLast?_concat] at last
      obtain rfl : 48 = c := Option.some.inj last
      decide
  have named : iequals (ascii "Set-Cookie") (ascii "set-cookie") = true := by decide +kernel
  rw [receivedCookies, Response.bytes_eq, readHead_lines whole, headLines_loginResponse]
  dsimp only [List.tail_cons]
  rw [fieldValues_of_named setCookieLabel (by decide) _ _ named, text]
  simp only [fieldValues, List.filter_nil, List.map_nil, List.filterMap_cons,
    (spelt.decodable 3600).decode, List.filterMap_nil]
  rfl

/-- A login that is answered 204 on a fresh response. -/
theorem loginResponse_of_run {σ : Type} {h : BackendHandler σ} {app : Application} {rounds : Nat}
    {ex ex' : Exchange} {s s' : σ} (fresh : ex.res = {})
    (ran : run h (LoginAuthUseCase.execute app rounds ex) s = some (ex', s'))
    (accepted : ex'.res.status = statusNoContent) :
    ∃ sid user, Spelt sid ∧ ex'.res = loginResponse sid ∧ loginUser h app ex s = some user := by
  obtain ⟨⟨found, authenticated⟩, s₁, checked, rest⟩ := run_bind_eq_some.mp ran
  obtain ⟨keyed, renews, outcome⟩ :=
    (LoginAuthUseCase.returns_authenticate app ex).holds_of_run checked
  cases found with
  | none =>
      obtain ⟨status, other, rejected⟩ := outcome
      cases rest
      exact absurd ((congrArg (·.res.status) rejected).symm.trans accepted) other
  | some user =>
      obtain rfl : authenticated = keyed := outcome
      obtain ⟨⟨log, opened⟩, s₂, set, finished⟩ := run_bind_eq_some.mp rest
      obtain ⟨sid, spelt, pushed⟩ :=
        (onSession_setSessionUserImpl app.libraries rounds user authenticated).holds_of_run set
      obtain rfl : opened = pushCookie (authenticated.withSession sid) (sessionCookie sid 3600) :=
        pushed
      cases finished
      refine ⟨sid, user, spelt, ?_, ?_⟩
      · have unchanged : (authenticated.withSession sid).res = {} := renews.res.trans fresh
        rw [setStatus, pushCookie, unchanged]
        rfl
      · rw [loginUser, checked, Option.bind_some]

/-- Without fields of its own a response is read back by its status and its content. -/
theorem received_of_plain {res : Response} (headers : res.headers = []) (cookies : res.cookies = [])
    (length : res.contentLength = decimal res.content.length) :
    received res.bytes = some (statusText res.status, res.content) := by
  have whole : ∀ line ∈ res.headLines, line ≠ [] ∧ ¬ crlf <:+: line := by
    intro line member
    rw [Response.headLines, headers, cookies, length] at member
    rcases List.mem_append.mp member with status | declared
    · obtain rfl := List.mem_singleton.mp status
      obtain ⟨nonempty, noCr⟩ := statusText_line res.status
      exact ⟨nonempty, noCrlf_of_noCr noCr⟩
    · split at declared
      · simp only [List.mem_cons, List.not_mem_nil, or_false] at declared
        rcases declared with rfl | rfl
        · refine ⟨List.append_ne_nil_of_left_ne_nil (by decide) _, noCrlf_of_noCr ?_⟩
          cases res.contentType <;> decide +kernel
        · refine ⟨List.append_ne_nil_of_left_ne_nil (by decide) _, noCrlf_of_noCr ?_⟩
          intro cr
          rcases List.mem_append.mp cr with label | digits
          · exact absurd label (by decide +kernel)
          · exact oneLine_decimal _ digits
      · cases declared
  rw [received, Response.bytes_eq, readHead_lines whole]
  rfl

/-! ## Histories -/

/-- Such a login issues the session of its cookie. -/
theorem event_of_login {σ : Type} {h : BackendHandler σ} {app : Application} {rounds : Nat}
    {s s' : σ} {request : Endpoint × Exchange} {answer : Answer} (fresh : request.2.res = {})
    (stepped : (service h app rounds).step s request = .ok (s', answer))
    (isLogin : answer.endpoint = .login) (accepted : answer.exchange.res.status = statusNoContent) :
    ∃ sid user, Spelt sid ∧ answer.exchange.res = loginResponse sid ∧ answer.user = some user ∧
      answer.event = some (.login sid user) := by
  obtain ⟨ex', ran, rfl⟩ := run_of_service_step h app rounds stepped
  obtain ⟨endpoint, ex⟩ := request
  obtain rfl : endpoint = .login := isLogin
  obtain ⟨sid, user, spelt, answered, known⟩ := loginResponse_of_run fresh ran accepted
  refine ⟨sid, user, spelt, answered, ?_, ?_⟩
  · dsimp only
    rw [if_pos rfl, known]
  · rw [Answer.event, if_pos accepted]
    dsimp only
    rw [if_pos rfl, known, answered]
    rfl

/-- Answers that spare a session leave its user. -/
theorem activeUser_append_of_spares {sid : Bytes} (earlier : List Answer) {later : List Answer}
    (spared : ∀ answer ∈ later, answer.Spares sid) :
    activeUser sid (earlier ++ later) = activeUser sid earlier := by
  induction later using List.reverseRecOn with
  | nil => rw [List.append_nil]
  | append_singleton later answer ih =>
      rw [List.forall_mem_append] at spared
      rw [← List.append_assoc, activeUser_concat,
        Answer.next_of_spares (spared.2 answer List.mem_cons_self), ih spared.1]

theorem activeUser_of_login {sid : Bytes} {user : User} (earlier : List Answer) {answer : Answer}
    (event : answer.event = some (.login sid user)) :
    activeUser sid (earlier ++ [answer]) = some user := by
  rw [activeUser_concat, Answer.next, event]
  exact if_pos rfl

theorem activeUser_of_logout {sid : Bytes} (earlier : List Answer) {answer : Answer}
    (event : answer.event = some (.logout sid)) : activeUser sid (earlier ++ [answer]) = none := by
  rw [activeUser_concat, Answer.next, event]
  exact if_pos rfl

/-! ## What the process writes -/

/-- The request handler is given the response of the connection, and what it makes of it is
written. -/
theorem Connection.written_of_mem {c c' : Connection} {r : ReadCompletion} {out : List Action}
    (handled : Connection.onRead c r = .ok (c', out)) {req : Request} {res : Response}
    (member : .handleRequest req res ∈ out) :
    res = c.res ∧ c'.res = (r.handler req res).2 ∧ .asyncWrite ∈ Server.operationsOf out := by
  cases Connection.readStep_of_onRead handled with
  | headDispatched | bodyDispatched =>
      rcases List.mem_cons.mp member with here | written
      · cases here
        exact ⟨rfl, rfl, List.mem_singleton_self _⟩
      · cases List.mem_singleton.mp written
  | _ => simp at member

/-- A read that completes without an exception leaves its connection as the handler does,
with the operations that the handler has started. -/
theorem Server.step_of_read {s : Server} {id : Nat} {r : ReadCompletion} {c : Connection}
    {out : List Action} (running : s.thrown = none) (reading : .asyncRead ∈ (s.slot id).outstanding)
    (handled : Connection.onRead (s.slot id).connection r = .ok (c, out)) :
    s.step (.readDone id r) = .ok (s.setSlot id { s.slot id with
      connection := c
      outstanding := (s.slot id).outstanding.erase .asyncRead ++ operationsOf out }, ()) := by
  have loops : ¬ s.thrown.isSome = true := by simp [running]
  have completes : s.CanComplete id .asyncRead none := ⟨reading, fun aborted => nomatch aborted⟩
  rw [step, if_neg loops]
  dsimp only
  rw [if_pos completes, handleRead, complete_connection, handled]
  dsimp only
  rw [startOperations, complete, setSlot_setSlot, setSlot_self, setSlot_setSlot, setSlot_self]

/-- A read completes only where it is outstanding and the event loop runs. -/
theorem Server.reads_of_step {s s' : Server} {id : Nat} {r : ReadCompletion}
    (stepped : s.step (.readDone id r) = .ok (s', ())) :
    s.thrown = none ∧ .asyncRead ∈ (s.slot id).outstanding := by
  rw [step] at stepped
  split at stepped
  · cases stepped
  · rename_i loops
    split at stepped
    · rename_i completes
      exact ⟨Option.not_isSome_iff_eq_none.mp loops, completes.1⟩
    · cases stepped

namespace Process

variable {σ : Type} {h : BackendHandler σ} {rh : RequestHandler Endpoint} {app : Application}
  {rounds : Nat}

/-- The bytes that a connection is writing. -/
def Writes (p : Process σ) (id : Nat) (bytes : Bytes) : Prop :=
  .asyncWrite ∈ (p.server.slot id).outstanding ∧ bytes = (p.server.slot id).connection.res.bytes

/-- A connection that waits for its first bytes. -/
structure Awaits (p : Process σ) (id : Nat) : Prop where
  running : p.server.thrown = none
  fresh : (p.server.slot id).connection = {}
  reading : .asyncRead ∈ (p.server.slot id).outstanding

theorem handlerAt_of_run {s s' : σ} {req : Request} {res : Response} {endpoint : Endpoint}
    {ex : Exchange} (routed : rh.route req = .ok (some endpoint))
    (ran : run h (endpoint.handle app rounds { req := req, res := res }) s = some (ex, s')) :
    handlerAt h rh app rounds s req res = (ex.req, ex.res) := by
  rw [handlerAt, RequestHandler.handleRequest, routed]
  change callbacks h app rounds s endpoint req res = (ex.req, ex.res)
  rw [callbacks, ran]

theorem step_of_served {p : Process σ} {event : NetworkEvent} {server : Server} {id : Nat}
    {req : Request} {res : Response} {s' : σ} {out : Option ServedRequest}
    (moved : p.server.step (event.withHandler (handlerAt h rh app rounds p.backend)) =
      .ok (server, ()))
    (called : p.server.called (event.withHandler (handlerAt h rh app rounds p.backend)) =
      some (id, req, res))
    (answered : serve h rh app rounds p.backend id req res = some (s', out)) :
    step h rh app rounds p event = .ok ({ server := server, backend := s' }, out) := by
  rw [step, moved]
  dsimp only
  rw [called]
  dsimp only
  rw [answered]

theorem serve_of_run {s s' : σ} (id : Nat) {req : Request} {res : Response} {endpoint : Endpoint}
    {ex : Exchange} (routed : rh.route req = .ok (some endpoint))
    (ran : run h (endpoint.handle app rounds { req := req, res := res }) s = some (ex, s')) :
    ∃ answer, serve h rh app rounds s id req res = some (s', some
        { id := id, exchange := { req := req, res := res }, answer := answer }) ∧
      answer.endpoint = endpoint := by
  have stepped : (service h app rounds).step s (endpoint, { req := req, res := res }) =
      .ok (s',
        { endpoint := endpoint
          exchange := ex
          user := if endpoint = .login then loginUser h app { req := req, res := res } s
            else none }) := by
    rw [service]
    dsimp only
    rw [ran]
  refine ⟨
    { endpoint := endpoint
      exchange := ex
      user := if endpoint = .login then loginUser h app { req := req, res := res } s else none },
    ?_, rfl⟩
  have called : rh.handleRequest (callbacks h app rounds s) req res =
      .ok ([endpoint], callbacks h app rounds s endpoint req res) := by
    rw [RequestHandler.handleRequest, routed]
    rfl
  rw [serve, called]
  dsimp only
  rw [stepped]

/-- A request that an endpoint answers is given the response of its connection, and the
connection writes the answer. -/
theorem writes_of_step {p p' : Process σ} {id available : Nat} {chunk : Chunk}
    {served : ServedRequest}
    (stepped : step h rh app rounds p (.readDone id chunk available) = .ok (p', some served)) :
    served.exchange.res = (p.server.slot id).connection.res ∧
      (service h app rounds).step p.backend served.request = .ok (p'.backend, served.answer) ∧
      p'.Writes id served.answer.exchange.res.bytes := by
  obtain ⟨moved, rest⟩ := step_cases stepped
  rcases rest with ⟨-, -, nothing⟩ | ⟨_, req, res, called, answered⟩
  · cases nothing
  rcases serve_cases answered with ⟨-, -, nothing⟩ | ⟨endpoint, answer, routed, answers, same⟩
  · cases nothing
  cases same
  obtain ⟨rfl, ran⟩ := endpoint_of_step answers
  obtain ⟨r, c, out, isRead, handled, member⟩ := Server.mem_of_called called
  cases isRead
  obtain ⟨given, written, writing⟩ := Connection.written_of_mem handled member
  obtain ⟨running, reading⟩ := Server.reads_of_step moved
  have after := (Server.step_of_read running reading handled).symm.trans moved
  obtain ⟨server, -⟩ := Prod.mk.inj (Except.ok.inj after)
  refine ⟨given, answers, ?_⟩
  rw [Writes, ← server, Server.setSlot_self]
  refine ⟨List.mem_append_right _ writing, ?_⟩
  dsimp only at written ⊢
  rw [written, handlerAt_of_run routed ran]

/-- A request that arrives at once on such a connection is served by its endpoint, with the
session of its cookie and a fresh response. -/
theorem step_of_awaits {p : Process σ} {id : Nat} (awaits : p.Awaits id)
    {request : Connection.WellFormedRequest} {value : Bytes}
    (sends : Connection.SendsSession request.headers value) {endpoint : Endpoint}
    (routed : rh.route { method := request.line.method, uri := request.line.uri } =
      .ok (some endpoint))
    (answers : ∀ req : Request, req.sessionId = value → ∃ ex s',
      run h (endpoint.handle app rounds { req := req, res := {} }) p.backend = some (ex, s')) :
    ∃ p' served, step h rh app rounds p (.readDone id request.chunk 0) = .ok (p', some served) ∧
      served.exchange.req.sessionId = value ∧ served.answer.endpoint = endpoint := by
  obtain ⟨c, req, handled, -, session, method, uri⟩ :=
    Connection.onRead_session sends (handlerAt h rh app rounds p.backend)
  obtain ⟨ex, s', ran⟩ := answers req session
  have found : rh.route req = .ok (some endpoint) := by
    rw [RequestHandler.route_eq] at routed ⊢
    rw [method, uri]
    exact routed
  rw [← awaits.fresh] at handled
  have moved := Server.step_of_read awaits.running awaits.reading handled
  have called := Server.called_of_mem handled List.mem_cons_self
  obtain ⟨answer, answered, named⟩ := serve_of_run id found ran
  exact ⟨_, _, step_of_served moved called answered, session, named⟩

/-- A request for the user endpoint, with this value of the session. -/
structure AsksForUser (rh : RequestHandler Endpoint) (value : Bytes)
    (request : Connection.WellFormedRequest) : Prop where
  sends : Connection.SendsSession request.headers value
  routed : rh.route { method := request.line.method, uri := request.line.uri } = .ok (some .user)

variable (h rh app rounds) in
/-- On every connection that waits for its first bytes, every request for the user of the
session is answered so that this holds of the bytes. -/
def AnswersUser (p : Process σ) (value : Bytes) (holds : Bytes → Prop) : Prop :=
  ∀ id request, p.Awaits id → AsksForUser rh value request →
    ∃ last served bytes, step h rh app rounds p (.readDone id request.chunk 0) =
      .ok (last, some served) ∧ last.Writes id bytes ∧ holds bytes

/-- What the endpoint makes of every fresh exchange with the session is what is written. -/
theorem answersUser_of_run {p : Process σ} {value : Bytes} {holds : Bytes → Prop}
    (answers : ∀ req : Request, req.sessionId = value → ∃ ex s',
      run h (Endpoint.user.handle app rounds { req := req, res := {} }) p.backend = some (ex, s') ∧
        holds ex.res.bytes) : AnswersUser h rh app rounds p value holds := by
  intro id request awaits asks
  obtain ⟨last, served, stepped, session, named⟩ := step_of_awaits awaits asks.sends asks.routed
    fun req session => (answers req session).imp fun ex => Exists.imp fun s' => And.left
  obtain ⟨given, answered, written⟩ := writes_of_step stepped
  obtain ⟨-, ran⟩ := endpoint_of_step answered
  refine ⟨last, served, _, stepped, written, ?_⟩
  obtain ⟨ex, s', same, held⟩ := answers served.exchange.req session
  rw [awaits.fresh] at given
  have exchange : served.exchange = { req := served.exchange.req, res := {} } :=
    congrArg (Exchange.mk served.exchange.req) given
  rw [ServedRequest.request, named, exchange, same] at ran
  cases ran
  exact held

/-- The store agrees with what was answered. -/
theorem Traced.storeAgrees {view : σ → StoreMap} (healthy : HealthyStore h view) {start : σ}
    (noSessions : ∀ sid, view start (sessionPrefix ++ sid) = none) {served : List ServedRequest}
    {p : Process σ} (traced : Traced h rh app rounds start served p) :
    StoreAgrees app.libraries (served.map ServedRequest.answer) (view p.backend) := by
  apply healthy.storeAgrees_of_run noSessions _ traced.ran
  intro called member
  obtain ⟨request, listed, rfl⟩ := List.mem_map.mp member
  exact (traced.routed request listed).1.zero_notMem

/-- While the store holds a user under the session, the client reads the user's id. -/
theorem answersUser_of_active {view : σ → StoreMap} (healthy : HealthyStore h view)
    (lawful : LawfulLibraries app.libraries) {p : Process σ} {answers : List Answer}
    (agrees : StoreAgrees app.libraries answers (view p.backend)) {sid : Bytes} (spelt : Spelt sid)
    {user : User} (active : activeUser sid answers = some user) (id : ValidUtf8 user.id)
    (username : ValidUtf8 user.username) :
    AnswersUser h rh app rounds p sid fun bytes => ∃ body,
      received bytes = some (statusText statusOk, body) ∧
        answeredId app.libraries body = some user.id := by
  apply answersUser_of_run
  rintro req rfl
  obtain ⟨held, noNul⟩ := agrees req.sessionId spelt.zero_notMem
  rw [active, Option.map_some] at held
  have session : ({ req := req } : Exchange).req.sessionId ≠ [] := spelt.ne_nil
  obtain ⟨body, s', ran, named⟩ :=
    healthy.answeredOk rounds lawful session held (noNul user active) id username
  exact ⟨_, s', ran, body, received_of_plain rfl rfl rfl, named⟩

/-- While it holds none, the client is told that it is not authorised. -/
theorem answersUser_of_inactive {view : σ → StoreMap} (healthy : HealthyStore h view)
    {p : Process σ} {answers : List Answer}
    (agrees : StoreAgrees app.libraries answers (view p.backend)) {sid : Bytes} (spelt : Spelt sid)
    (inactive : activeUser sid answers = none) :
    AnswersUser h rh app rounds p sid fun bytes =>
      received bytes = some (statusText statusUnauthorized, []) := by
  apply answersUser_of_run
  rintro req rfl
  obtain ⟨held, -⟩ := agrees req.sessionId spelt.zero_notMem
  rw [inactive, Option.map_none] at held
  have session : ({ req := req } : Exchange).req.sessionId ≠ [] := spelt.ne_nil
  obtain ⟨s', ran⟩ := healthy.answeredUnauthorized app rounds session held
  have length : ascii "0" = decimal ([] : Bytes).length := by decide +kernel
  exact ⟨_, s', ran, received_of_plain rfl rfl length⟩

/-- A session over the wire, with one thread in the event loop, over a healthy store without
sessions at first, in a run that the process survives.  A login that is answered 204 writes
bytes from which the client reads one cookie.  As long as no answer ends or issues that
session, on whatever connections, every request for the user that carries the cookie's value
in one read on a fresh connection is answered by bytes from which the client reads the id of
the user who logged in, if the user is in UTF-8; and after a logout has ended it, by bytes from
which the client reads 401. -/
theorem session_over_the_wire {view : σ → StoreMap} (healthy : HealthyStore h view)
    (lawful : LawfulLibraries app.libraries) {start : σ}
    (noSessions : ∀ sid, view start (sessionPrefix ++ sid) = none) {events : List NetworkEvent}
    {outputs : List (Option ServedRequest)} {p q : Process σ}
    (ran : (machine h rh app rounds).run { backend := start } events = .ok (p, outputs))
    {i available : Nat} {chunk : Chunk} {login : ServedRequest}
    (fresh : (p.server.slot i).connection.res = {})
    (stepped : step h rh app rounds p (.readDone i chunk available) = .ok (q, some login))
    (isLogin : login.answer.endpoint = .login)
    (accepted : login.answer.exchange.res.status = statusNoContent) :
    ∃ bytes cookie user, q.Writes i bytes ∧ receivedCookies bytes = [cookie] ∧
      cookie.name = sessionName ∧ login.answer.user = some user ∧
      ∀ more laterOutputs r, (machine h rh app rounds).run q more = .ok (r, laterOutputs) →
        ((∀ served ∈ laterOutputs.reduceOption, served.answer.Spares cookie.value) →
          ValidUtf8 user.id → ValidUtf8 user.username →
          AnswersUser h rh app rounds r cookie.value fun answer => ∃ body,
            received answer = some (statusText statusOk, body) ∧
              answeredId app.libraries body = some user.id) ∧
        (∀ before ended after, laterOutputs.reduceOption = before ++ ended :: after →
          ended.answer.event = some (.logout cookie.value) →
          (∀ served ∈ after, served.answer.Spares cookie.value) →
          AnswersUser h rh app rounds r cookie.value fun answer =>
            received answer = some (statusText statusUnauthorized, [])) := by
  obtain ⟨given, answered, written⟩ := writes_of_step stepped
  obtain ⟨sid, user, spelt, response, named, event⟩ :=
    event_of_login (given.trans fresh) answered isLogin accepted
  rw [response] at written
  refine ⟨_, loginCookie sid, user, written, receivedCookies_loginResponse spelt, rfl, named, ?_⟩
  dsimp only [loginCookie]
  intro more laterOutputs r continued
  have whole : (machine h rh app rounds).run { backend := start }
      (events ++ .readDone i chunk available :: more) =
        .ok (r, outputs ++ some login :: laterOutputs) :=
    EventMachine.run_append_ok.mpr ⟨p, outputs, _, ran,
      EventMachine.run_cons_ok.mpr ⟨q, _, laterOutputs, stepped, continued, rfl⟩, rfl⟩
  have traced := traced_of_run whole
  have agrees : StoreAgrees app.libraries ((outputs.reduceOption.map ServedRequest.answer ++
      [login.answer]) ++ laterOutputs.reduceOption.map ServedRequest.answer) (view r.backend) := by
    have after := traced.storeAgrees healthy noSessions
    rwa [List.reduceOption_append, List.reduceOption_cons_of_some, List.map_append, List.map_cons,
      List.append_cons] at after
  constructor
  · intro spared id username
    apply answersUser_of_active healthy lawful agrees spelt _ id username
    rw [activeUser_append_of_spares _ (List.forall_mem_map.mpr spared)]
    exact activeUser_of_login _ event
  · intro before ended after split ends spared
    apply answersUser_of_inactive healthy agrees spelt
    rw [split, List.map_append, List.map_cons, ← List.append_assoc, List.append_cons,
      activeUser_append_of_spares _ (List.forall_mem_map.mpr spared)]
    exact activeUser_of_logout _ ends

end Process

/-! ## A login and a request on another connection -/

/-- `GET /api/user HTTP/1.1`. -/
def userLine : RequestLine :=
  { Connection.plainLine with
    uri := ascii "/api/user"
    uri_text := by unfold UriText; decide +kernel }

def sampleCookieHeader : Header :=
  ⟨ascii "Cookie", cookieHeader [(sessionName, ascii "aaaaaaaaaaaaaaaa")]⟩

theorem sampleCookieHeader_fields :
    Fields ([] ++ (sampleCookieHeader.name ++ [58, 32] ++ sampleCookieHeader.value) ++
      [13, 10]) ([] ++ [sampleCookieHeader]) := by
  apply Fields.snoc .nil
  apply FieldText.first
  · exact ⟨by decide, by decide +kernel⟩
  · unfold Text
    decide +kernel

/-- The request of a client that was given this session. -/
def userRequest : Connection.WellFormedRequest where
  line := userLine
  headers := [] ++ [sampleCookieHeader]
  head := userLine.text ++ ([] ++ (sampleCookieHeader.name ++ [58, 32] ++
    sampleCookieHeader.value) ++ [13, 10]) ++ [13, 10]
  isHead := .mk userLine sampleCookieHeader_fields
  body := []
  declared := by
    intro h member length
    rw [List.mem_singleton.mp member] at length
    exact absurd length (by unfold Connection.IsContentLength; decide +kernel)
  undeclared := fun _ => rfl
  fits := by decide +kernel

theorem asksForUser_userRequest :
    Process.AsksForUser sampleServer (ascii "aaaaaaaaaaaaaaaa") userRequest where
  sends :=
    { cookie := ⟨[], ascii "Cookie", [(sessionName, ascii "aaaaaaaaaaaaaaaa")], [], rfl,
        by decide +kernel,
        by
          intro pair member
          rw [List.mem_singleton.mp member]
          exact ⟨by decide +kernel, by decide +kernel, by decide +kernel⟩,
        by decide +kernel, List.forall_mem_nil _, by decide⟩ }
  routed := by decide +kernel

/-- Two connections are accepted. -/
def twoAccepted : Process World where
  server := Server.startConnection (Server.startConnection {})
  backend := sampleWorld [sampleRow]

/-- What the sample shows of the process after the login. -/
def loginShown (ended : Process World × Option ServedRequest) : Bool :=
  decide (ended.2.map ServedRequest.summary = sampleSummaries.head? ∧
    receivedCookies (ended.1.server.slot 0).connection.res.bytes =
      [loginCookie (ascii "aaaaaaaaaaaaaaaa")] ∧
    ended.1.server.thrown.isNone = true ∧ .asyncRead ∈ (ended.1.server.slot 1).outstanding)

/-- The cookie of a login on one connection is sent on the other one. -/
theorem session_over_the_wire_sample : ∃ q login last served bytes body,
    Process.step (World.handler sampleEnvironment) sampleServer sampleApplication 1 twoAccepted
        (.readDone 0 loginChunk 0) = .ok (q, some login) ∧
      Process.step (World.handler sampleEnvironment) sampleServer sampleApplication 1 q
        (.readDone 1 userRequest.chunk 0) = .ok (last, some served) ∧
      last.Writes 1 bytes ∧ received bytes = some (statusText statusOk, body) ∧
      answeredId sampleLibraries body = some sampleRow.id := by
  have ran : (Process.step (World.handler sampleEnvironment) sampleServer sampleApplication 1
      twoAccepted (.readDone 0 loginChunk 0)).map loginShown = .ok true := by
    decide +kernel
  obtain ⟨q, out, stepped, shown⟩ := EventMachine.exists_of_view ran
  obtain ⟨summary, cookies, running, reading⟩ := of_decide_eq_true shown
  obtain ⟨login, rfl, seen⟩ := Option.map_eq_some_iff.mp summary
  simp only [ServedRequest.summary, AnswerSummary.mk.injEq] at seen
  have accepted : (Process.machine (World.handler sampleEnvironment) sampleServer sampleApplication
      1).run { backend := sampleWorld [sampleRow] } [.accepted, .accepted] =
        .ok (twoAccepted, [none, none]) := rfl
  obtain ⟨bytes, cookie, user, writes, kept, -, named, answers⟩ := Process.session_over_the_wire
    (World.healthy sampleEnvironment) lawful_sampleLibraries (fun _ => rfl) accepted rfl stepped
    seen.2.1 seen.2.2.1
  rw [writes.2, cookies] at kept
  obtain rfl : loginCookie (ascii "aaaaaaaaaaaaaaaa") = cookie := List.head_eq_of_cons_eq kept
  rw [seen.2.2.2.1] at named
  cases named
  have waits : q.Awaits 1 := by
    obtain ⟨moved, -⟩ := Process.step_cases stepped
    refine ⟨Option.isNone_iff_eq_none.mp running, ?_, reading⟩
    rcases Server.connection_of_step moved 1 with same | ⟨r, out, isRead, -⟩
    · exact same
    · cases isRead
  obtain ⟨last, served, answer, answered, written, body, read, found⟩ :=
    (answers [] [] q rfl).1 (List.forall_mem_nil _) validUtf8_sampleRow.1 validUtf8_sampleRow.2 1
      userRequest waits asksForUser_userRequest
  exact ⟨q, login, last, served, answer, body, stepped, answered, written, read, found⟩

end CleanArchitecture
