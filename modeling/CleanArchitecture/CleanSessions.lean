import CleanArchitecture.ConnectionSteps
import CleanArchitecture.RequestHandler
import CleanArchitecture.ResponseFraming
import CleanArchitecture.SessionAuthenticity
import CleanArchitecture.SessionFrame
import Mathlib.Data.List.ModifyLast

/-!
# Session ids without injected text

The parser keeps control characters out of header values and the cookie loop cuts them at
every semicolon, so neither gets into a session id or a cookie.  The ids that are drawn
have letters and digits alone.  Hence neither the key of a session nor its cookie can be
changed by what an id contains.
-/

namespace CleanArchitecture

open Program RequestParser

/-! ## Clean texts -/

/-- A control character. -/
def IsControl (c : UInt8) : Prop :=
  c ≤ 31 ∨ c = 127

instance (c : UInt8) : Decidable (IsControl c) :=
  inferInstanceAs (Decidable (_ ∨ _))

/-- A text without control characters. -/
def Plain (s : Bytes) : Prop :=
  ∀ c ∈ s, ¬ IsControl c

/-- A text without control characters and semicolons. -/
def Clean (s : Bytes) : Prop :=
  Plain s ∧ ';'.toUInt8 ∉ s

theorem not_isControl_of_isCtl {c : UInt8} (printable : isCtl (charToInt c) = false) :
    ¬ IsControl c := by
  simp only [isCtl, Bool.or_eq_false_iff, Bool.and_eq_false_iff, decide_eq_false_iff_not,
    beq_eq_false_iff_ne] at printable
  rintro (low | delete)
  · have small : c.toNat ≤ 31 := UInt8.le_iff_toNat_le.mp low
    have value : charToInt c = c.toNat :=
      Int.bmod_eq_of_le (by omega) (by omega)
    rw [value] at printable
    omega
  · subst delete
    exact printable.2 (by decide)

theorem Plain.append {s t : Bytes} (first : Plain s) (second : Plain t) : Plain (s ++ t) := by
  intro c member
  rcases List.mem_append.mp member with left | right
  · exact first c left
  · exact second c right

theorem Plain.subset {s t : Bytes} (plain : Plain t) (subset : s ⊆ t) : Plain s :=
  fun c member => plain c (subset member)

theorem Clean.subset {s t : Bytes} (clean : Clean t) (subset : s ⊆ t) : Clean s :=
  ⟨clean.1.subset subset, fun member => clean.2 (subset member)⟩

theorem Clean.append {s t : Bytes} (first : Clean s) (second : Clean t) : Clean (s ++ t) := by
  refine ⟨first.1.append second.1, ?_⟩
  rw [List.mem_append, not_or]
  exact ⟨first.2, second.2⟩

theorem clean_nil : Clean [] :=
  ⟨fun _ member => absurd member List.not_mem_nil, List.not_mem_nil⟩

theorem clean_alphabet : Clean alphabet := by
  have plain : ∀ c ∈ alphabet, ¬ IsControl c := by
    decide +kernel
  exact ⟨plain, by decide +kernel⟩

theorem Spelt.clean {sid : Bytes} (spelt : Spelt sid) : Clean sid := by
  obtain ⟨words, rfl⟩ := spelt
  exact clean_alphabet.subset (spellId_subset words)

theorem Clean.zero_notMem {s : Bytes} (clean : Clean s) : 0 ∉ s :=
  fun nul => clean.1 0 nul (.inl (by decide))

/-! ## The parser -/

structure CleanRequest (req : Request) : Prop where
  headers : ∀ h ∈ req.headers, Plain h.value
  sessionId : Clean req.sessionId
  cookies : ∀ entry ∈ req.cookies, Clean entry.1 ∧ Clean entry.2

theorem forall_mem_modifyLast {p : Header → Prop} {f : Header → Header}
    (keeps : ∀ h, p h → p (f h)) {headers : List Header} (all : ∀ h ∈ headers, p h) :
    ∀ h ∈ headers.modifyLast f, p h := by
  induction headers using List.reverseRecOn with
  | nil => exact all
  | append_singleton headers last =>
      rw [List.modifyLast_concat]
      intro h member
      rcases List.mem_append.mp member with earlier | here
      · exact all h (List.mem_append_left _ earlier)
      · rw [List.mem_singleton.mp here]
        exact keeps last (all last (by simp))

theorem plain_pushName {headers : List Header} (plain : ∀ h ∈ headers, Plain h.value)
    (input : UInt8) : ∀ h ∈ pushName headers input, Plain h.value := by
  apply forall_mem_modifyLast _ plain
  exact fun h plain => plain

/-- Only characters that are no controls are pushed into a value. -/
theorem plain_pushValue {headers : List Header} (plain : ∀ h ∈ headers, Plain h.value)
    {input : UInt8} (printable : isCtl (charToInt input) = false) :
    ∀ h ∈ pushValue headers input, Plain h.value := by
  apply forall_mem_modifyLast _ plain
  intro h plain
  apply plain.append
  intro c pushed
  rw [List.mem_singleton.mp pushed]
  exact not_isControl_of_isCtl printable

theorem CleanRequest.withHeaders {req : Request} (clean : CleanRequest req) {headers : List Header}
    (plain : ∀ h ∈ headers, Plain h.value) : CleanRequest { req with headers := headers } :=
  ⟨plain, clean.sessionId, clean.cookies⟩

/-- One byte of a head. -/
theorem CleanRequest.consume {state : State} {req : Request} (clean : CleanRequest req)
    (input : UInt8) : CleanRequest (RequestParser.consume state req input).2.2 := by
  have same : ∀ {req' : Request}, req'.headers = req.headers → req'.sessionId = req.sessionId →
      req'.cookies = req.cookies → CleanRequest req' := by
    intro req' headers session cookies
    exact ⟨headers ▸ clean.headers, session ▸ clean.sessionId, cookies ▸ clean.cookies⟩
  have fresh : ∀ h ∈ req.headers ++ [({} : Header)], Plain h.value := by
    intro h member
    rcases List.mem_append.mp member with earlier | here
    · exact clean.headers h earlier
    · rw [List.mem_singleton.mp here]
      exact clean_nil.1
  cases state with
  | headerLineStart =>
      simp only [RequestParser.consume]
      repeat' split
      all_goals first
        | exact clean
        | exact clean.withHeaders (plain_pushName fresh input)
  | headerName =>
      simp only [RequestParser.consume]
      repeat' split
      all_goals first
        | exact clean
        | exact clean.withHeaders (plain_pushName clean.headers input)
  | headerLws | headerValue =>
      simp only [RequestParser.consume]
      repeat' split
      all_goals first
        | exact clean
        | exact clean.withHeaders (plain_pushValue clean.headers (Bool.eq_false_iff.mpr ‹_›))
  | _ =>
      simp only [RequestParser.consume]
      repeat' split
      all_goals exact same rfl rfl rfl

theorem CleanRequest.parse {req : Request} (clean : CleanRequest req) (state : State)
    (input : Bytes) : CleanRequest (RequestParser.parse state req input).state.2 := by
  apply Scanner.scan_invariant (M := scanner) (fun config => CleanRequest config.2)
  · exact fun config b kept => kept.consume b
  · exact clean

/-! ## The header values -/

theorem mem_assign {cookies : CookieMap} {key value : Bytes} {entry : Bytes × Bytes}
    (member : entry ∈ cookies.assign key value) : entry ∈ cookies ∨ entry = (key, value) := by
  induction cookies with
  | nil => exact .inr (List.mem_singleton.mp member)
  | cons first rest ih =>
      obtain ⟨k, v⟩ := first
      rw [CookieMap.assign] at member
      split at member
      · rename_i same
        rcases List.mem_cons.mp member with here | later
        · exact .inr (same ▸ here)
        · exact .inl (.tail _ later)
      · rcases List.mem_cons.mp member with here | later
        · exact .inl (here ▸ List.mem_cons_self)
        · rcases ih later with among | added
          · exact .inl (.tail _ among)
          · exact .inr added

/-- A piece without control characters and semicolons. -/
theorem CleanRequest.parseCookiePair {req : Request} (clean : CleanRequest req) {tmp : Bytes}
    (piece : Clean tmp) : CleanRequest (Connection.parseCookiePair req tmp) := by
  unfold Connection.parseCookiePair
  split
  · exact clean
  · rename_i midCursor _
    have key : Clean (tmp.take midCursor) := piece.subset (List.take_subset _ _)
    have value : Clean (tmp.drop (midCursor + 1)) := piece.subset (List.drop_subset _ _)
    simp only
    split
    · exact ⟨clean.headers, value, clean.cookies⟩
    · refine ⟨clean.headers, clean.sessionId, fun entry member => ?_⟩
      rcases mem_assign member with old | rfl
      · exact clean.cookies entry old
      · exact ⟨key, value⟩

theorem CleanRequest.scanHeaders {headers : List Header} {i j : Nat} {req req' : Request}
    (plain : ∀ h ∈ headers, Plain h.value) (clean : CleanRequest req)
    (scanned : Connection.scanHeaders headers i req = .ok (j, req')) : CleanRequest req' := by
  induction headers generalizing i req with
  | nil =>
      cases scanned
      exact clean
  | cons h headers ih =>
      obtain ⟨k, next, first, rest⟩ := Connection.scanHeaders_cons.mp scanned
      have kept : CleanRequest next := by
        rcases Connection.scanHeader_cases first with ⟨n, -, -, -, -, rfl⟩ |
          ⟨-, ⟨-, rfl⟩ | ⟨-, parsed⟩ | ⟨-, rfl⟩⟩
        · exact ⟨clean.headers, clean.sessionId, clean.cookies⟩
        · exact ⟨clean.headers, clean.sessionId, clean.cookies⟩
        · refine Connection.parseCookie_keeps CleanRequest ?_ clean parsed
          intro current tmp piece kept
          exact kept.parseCookiePair ⟨(plain h List.mem_cons_self).subset piece.2, piece.1⟩
        · exact clean
      rcases rest with ⟨-, -, rfl⟩ | ⟨-, rest⟩
      · exact kept
      · exact ih (fun other member => plain other (.tail h member)) kept rest

/-! ## The connection -/

/-- What the server answers to a request: the router's 404, or what the endpoint that the
router finds returns when it is run in some environment. -/
inductive ServedBy (rh : RequestHandler Endpoint) (app : Application) (rounds : Nat)
    (req : Request) (res : Response) : Request × Response → Prop
  | notFound (routed : rh.route req = .ok none) :
      ServedBy rh app rounds req res (req, { res with status := statusNotFound })
  | called {σ : Type} {h : BackendHandler σ} {s s' : σ} {endpoint : Endpoint} {ex : Exchange}
      (routed : rh.route req = .ok (some endpoint))
      (ran : run h (endpoint.handle app rounds { req := req, res := res }) s = some (ex, s')) :
      ServedBy rh app rounds req res (ex.req, ex.res)

/-- The handler of a read is the server wherever it is called. -/
def Served (rh : RequestHandler Endpoint) (app : Application) (rounds : Nat) (r : ReadCompletion)
    (out : List Action) : Prop :=
  ∀ req res, .handleRequest req res ∈ out → ServedBy rh app rounds req res (r.handler req res)

/-- The cookies of a response are session cookies with clean ids. -/
def CleanResponse (res : Response) : Prop :=
  ∀ cookie ∈ res.cookies, ∃ sid age, Clean sid ∧ cookie = WrapperRequest.sessionCookie sid age

structure CleanConnection (c : Connection) : Prop where
  req : CleanRequest c.req
  res : CleanResponse c.res

section Server

variable {rh : RequestHandler Endpoint} {app : Application} {rounds : Nat}

theorem CleanRequest.withSession {req : Request} (clean : CleanRequest req) {sid : Bytes}
    (cleanId : Clean sid) : CleanRequest { req with sessionId := sid } :=
  ⟨clean.headers, cleanId, clean.cookies⟩

theorem CleanRequest.withBody {req : Request} (clean : CleanRequest req) (body : Bytes) :
    CleanRequest { req with body := body } :=
  ⟨clean.headers, clean.sessionId, clean.cookies⟩

/-- The server renews the session id with a spelt one at most, and adds the cookies of
such ids. -/
theorem ServedBy.clean {req : Request} {res : Response} {answer : Request × Response}
    (served : ServedBy rh app rounds req res answer) (cleanReq : CleanRequest req)
    (cleanRes : CleanResponse res) : CleanRequest answer.1 ∧ CleanResponse answer.2 := by
  cases served with
  | notFound routed => exact ⟨cleanReq, cleanRes⟩
  | called routed ran =>
      have evolves := (Endpoint.returns_handle app rounds _ _).holds_of_run ran
      obtain ⟨sid, origin, renewed⟩ := evolves.request
      have cleanId : Clean sid := by
        rcases origin with rfl | spelt
        · exact cleanReq.sessionId
        · exact spelt.clean
      refine ⟨?_, fun cookie member => ?_⟩
      · rw [renewed]
        exact cleanReq.withSession cleanId
      · rcases evolves.cookies cookie member with old | ⟨id, age, origin, rfl⟩
        · exact cleanRes cookie old
        · rcases origin with rfl | spelt
          · exact ⟨[], age, clean_nil, rfl⟩
          · exact ⟨id, age, spelt.clean, rfl⟩

theorem cleanResponse_stock (status : Int) : CleanResponse (stockResponse status) :=
  fun _ member => absurd member List.not_mem_nil

/-- A call of the server keeps the connection clean. -/
theorem CleanConnection.respond {c : Connection} {r : ReadCompletion} (clean : CleanConnection c)
    (served : Served rh app rounds r (Connection.respond c r.handler).2) :
    CleanConnection (Connection.respond c r.handler).1 := by
  obtain ⟨req, res⟩ := (served c.req c.res List.mem_cons_self).clean clean.req clean.res
  exact ⟨req, res⟩

/-- A completed read keeps the connection clean. -/
theorem CleanConnection.onRead {c c' : Connection} {r : ReadCompletion} {out : List Action}
    (served : Served rh app rounds r out) (clean : CleanConnection c)
    (stepped : Connection.onRead c r = .ok (c', out)) : CleanConnection c' := by
  have parsedClean : ∀ {verdict : ResultType} {config : State × Request} {n : Nat},
      RequestParser.parse c.requestParser c.req r.chunk.bytes = ⟨verdict, config, n⟩ →
        CleanRequest config.2 := by
    intro verdict config n parsed
    have kept := clean.req.parse c.requestParser r.chunk.bytes
    rwa [parsed] at kept
  have scannedClean : ∀ {verdict : ResultType} {config : State × Request} {n i : Nat}
      {req : Request}, RequestParser.parse c.requestParser c.req r.chunk.bytes =
        ⟨verdict, config, n⟩ → Connection.scanHeaders config.2.headers 0 config.2 = .ok (i, req) →
          CleanRequest req := by
    intro verdict config n i req parsed scanned
    have head := parsedClean parsed
    exact head.scanHeaders head.headers scanned
  cases Connection.readStep_of_onRead stepped with
  | headContinues header parsed => exact ⟨parsedClean parsed, clean.res⟩
  | headBad header parsed => exact ⟨parsedClean parsed, cleanResponse_stock _⟩
  | headTooLong header parsed scanned => exact ⟨scannedClean parsed scanned, cleanResponse_stock _⟩
  | headDispatched header parsed scanned =>
      apply CleanConnection.respond _ served
      exact ⟨(scannedClean parsed scanned).withBody _, clean.res⟩
  | headThenBody header parsed scanned =>
      exact ⟨(scannedClean parsed scanned).withBody _, clean.res⟩
  | bodyTooLong => exact ⟨clean.req.withBody _, cleanResponse_stock _⟩
  | bodyDispatched =>
      apply CleanConnection.respond _ served
      exact ⟨clean.req.withBody _, clean.res⟩
  | bodyContinues => exact ⟨clean.req.withBody _, clean.res⟩

theorem clean_start : CleanConnection {} := by
  refine ⟨⟨?_, clean_nil, ?_⟩, ?_⟩
  · exact fun _ member => absurd member List.not_mem_nil
  · exact fun _ member => absurd member List.not_mem_nil
  · exact fun _ member => absurd member List.not_mem_nil

/-- Every run of a connection whose requests the server answers stays clean. -/
theorem clean_of_run {reads : List ReadCompletion} {outputs : List (List Action)} {c : Connection}
    (ran : Connection.machine.run {} reads = .ok (c, outputs))
    (served : ∀ pair ∈ reads.zip outputs, Served rh app rounds pair.1 pair.2) : CleanConnection c :=
  EventMachine.run_invariant_of_zip CleanConnection (Served rh app rounds)
    (fun _ _ _ _ served clean stepped => clean.onRead served stepped) clean_start ran served

end Server

/-! ## Keys and cookies -/

theorem clean_toString (z : Int) : Clean (toString z) := by
  have digits : Clean (decimal z.natAbs) := by
    have digit := (isNumeral_decimal z.natAbs).2.1
    constructor
    · intro c member control
      have low := digit c member
      simp only [isdigit, Bool.and_eq_true, decide_eq_true_eq, UInt8.le_iff_toNat_le] at low
      rcases control with small | rfl
      · rw [UInt8.le_iff_toNat_le] at small
        simp only [UInt8.toNat_ofNat] at low small
        omega
      · exact absurd low (by decide)
    · intro semicolon
      exact absurd (digit _ semicolon) (by decide)
  unfold toString
  split
  · have sign : (∀ c ∈ ascii "-", ¬ IsControl c) ∧ ';'.toUInt8 ∉ ascii "-" := by
      decide +kernel
    exact Clean.append sign digits
  · exact digits

/-- The attributes of a session cookie after its name and value. -/
def sessionAttributes (age : Int) : List Bytes :=
  [ascii " Path=/", ascii " SameSite=strict"] ++
    if age > -1 then [ascii " MaxAge=" ++ toString age] else []

/-- The text of a session cookie. -/
theorem toString_sessionCookie (sid : Bytes) (age : Int) :
    (WrapperRequest.sessionCookie sid age).toString =
      [';'.toUInt8].intercalate ((ascii "SESSION=" ++ sid) :: sessionAttributes age) := by
  have named : sessionName ≠ [] := by decide
  have path : ascii "/" ≠ [] := by decide
  have site : ascii "strict" ≠ [] := by decide
  have first : sessionName ++ ascii "=" = ascii "SESSION=" := by decide +kernel
  have second : ascii "; Path=" ++ ascii "/" = ';'.toUInt8 :: ascii " Path=/" := by decide +kernel
  have third : ascii "; SameSite=" ++ ascii "strict" = ';'.toUInt8 :: ascii " SameSite=strict" := by
    decide +kernel
  have fourth : ascii "; MaxAge=" = ';'.toUInt8 :: ascii " MaxAge=" := by decide +kernel
  simp only [Cookie.toString, WrapperRequest.sessionCookie, named, path, site, ne_eq,
    not_true_eq_false, not_false_eq_true, if_true, if_false, Bool.false_eq_true, List.append_nil,
    first, second, third, fourth, sessionAttributes]
  split <;> simp [List.intercalate]

theorem clean_sessionAttributes (age : Int) : ∀ part ∈ sessionAttributes age, Clean part := by
  intro part member
  rcases List.mem_append.mp member with fixed | aged
  · have all : ∀ text ∈ [ascii " Path=/", ascii " SameSite=strict"],
        (∀ c ∈ text, ¬ IsControl c) ∧ ';'.toUInt8 ∉ text := by
      decide +kernel
    exact all part fixed
  · split at aged
    · rw [List.mem_singleton.mp aged]
      have name : (∀ c ∈ ascii " MaxAge=", ¬ IsControl c) ∧ ';'.toUInt8 ∉ ascii " MaxAge=" := by
        decide +kernel
      exact Clean.append name (clean_toString age)
    · cases aged

theorem plain_intercalate {parts : List Bytes} (plain : ∀ part ∈ parts, Plain part) :
    Plain ([';'.toUInt8].intercalate parts) := by
  induction parts with
  | nil => exact fun _ member => absurd member List.not_mem_nil
  | cons part rest ih =>
      have later := ih fun other member => plain other (.tail part member)
      by_cases last : rest = []
      · rw [last, List.intercalate_singleton]
        exact plain part List.mem_cons_self
      · rw [List.intercalate_cons_of_ne_nil last]
        have separator : Plain [';'.toUInt8] := by
          unfold Plain
          decide +kernel
        exact ((plain part List.mem_cons_self).append separator).append later

/-- A session cookie is on one line and has its own attributes alone. -/
theorem sessionCookie_attributes {sid : Bytes} (clean : Clean sid) (age : Int) :
    Plain (WrapperRequest.sessionCookie sid age).toString ∧
      (WrapperRequest.sessionCookie sid age).toString.splitOn ';'.toUInt8 =
        (ascii "SESSION=" ++ sid) :: sessionAttributes age := by
  have name : (∀ c ∈ ascii "SESSION=", ¬ IsControl c) ∧ ';'.toUInt8 ∉ ascii "SESSION=" := by
    decide +kernel
  have parts : ∀ part ∈ (ascii "SESSION=" ++ sid) :: sessionAttributes age, Clean part := by
    rw [List.forall_mem_cons]
    exact ⟨Clean.append name clean, clean_sessionAttributes age⟩
  rw [toString_sessionCookie]
  constructor
  · exact plain_intercalate fun part member => (parts part member).1
  · exact List.splitOn_intercalate _ (fun part member => (parts part member).2) (List.cons_ne_nil _ _)

/-- Session ids without injected text.  In every state of a run whose requests the server
answers, the session id and the cookies of the request are clean; the keys of the
request's sessions are the same as strings and as C strings, and the cookies of the
response are session cookies on one line with their own attributes alone. -/
theorem session_ids_clean {rh : RequestHandler Endpoint} {app : Application} {rounds : Nat}
    {reads : List ReadCompletion} {outputs : List (List Action)} {c : Connection}
    (ran : Connection.machine.run {} reads = .ok (c, outputs))
    (served : ∀ pair ∈ reads.zip outputs, Served rh app rounds pair.1 pair.2) :
    Clean c.req.sessionId ∧
      (∀ entry ∈ c.req.cookies, Clean entry.1 ∧ Clean entry.2) ∧
      (∀ sid, sid = c.req.sessionId ∨ Spelt sid →
        Clean sid ∧ cStr (sessionPrefix ++ sid) = sessionPrefix ++ sid) ∧
      ∀ cookie ∈ c.res.cookies, ∃ sid age, Clean sid ∧ Plain cookie.toString ∧
        cookie.toString.splitOn ';'.toUInt8 = (ascii "SESSION=" ++ sid) :: sessionAttributes age := by
  obtain ⟨req, res⟩ := clean_of_run ran served
  refine ⟨req.sessionId, req.cookies, fun sid origin => ?_, fun cookie member => ?_⟩
  · have clean : Clean sid := by
      rcases origin with rfl | spelt
      · exact req.sessionId
      · exact spelt.clean
    exact ⟨clean, storeKey_eq clean.zero_notMem⟩
  · obtain ⟨sid, age, clean, rfl⟩ := res cookie member
    exact ⟨sid, age, clean, sessionCookie_attributes clean age⟩

/-! ## A login over a connection -/

/-- A server with one route, and its handler in a world. -/
def loginHandler : RequestHandler Endpoint where
  basePath := ascii "/login"
  map _ := some (Trie.empty.setValue (some .login))

def loginRun (req : Request) (res : Response) : Option (Exchange × World) :=
  run (World.handler sampleEnvironment)
    (Endpoint.login.handle sampleApplication 1 { req := req, res := res }) (sampleWorld [sampleRow])

/-- A login with the credentials of the sample row and a session id of the client's. -/
def loginRead : ReadCompletion where
  chunk :=
    { bytes := ascii "POST /login HTTP/1.1\r\nContent-Type: application/json\r\n" ++
        ascii "Content-Length: 45\r\nCookie: theme=dark; SESSION=chosen\r\n\r\n" ++
        (sampleExchange (ascii "username") (ascii "password")).req.body
      fits := by decide +kernel }
  available := 0
  handler req res :=
    match loginRun req res with
    | some (ex, _) => (ex.req, ex.res)
    | none => (req, res)

/-- Whether a call of the request handler is a login that the world answers. -/
def isServedLogin : Action → Bool
  | .handleRequest req res =>
      (match loginHandler.route req with
        | .ok endpoint => endpoint = some .login
        | .error _ => false) && (loginRun req res).isSome
  | _ => true

theorem served_of_isServedLogin {out : List Action} (logins : out.all isServedLogin = true) :
    Served loginHandler sampleApplication 1 loginRead out := by
  intro req res called
  have login := List.all_eq_true.mp logins _ called
  obtain ⟨routed, ran⟩ := Bool.and_eq_true_iff.mp login
  split at routed
  · rename_i endpoint route
    obtain ⟨⟨ex, w⟩, ended⟩ := Option.isSome_iff_exists.mp ran
    have handled : loginRead.handler req res = (ex.req, ex.res) := by
      simp only [loginRead, ended]
    rw [handled]
    rw [of_decide_eq_true routed] at route
    exact .called route ended
  · cases routed

/-- The id that a login draws replaces the one that the client chose. -/
theorem session_ids_clean_sample : ∃ c outputs,
    Connection.machine.run {} [loginRead] = .ok (c, outputs) ∧
      c.req.sessionId = ascii "aaaaaaaaaaaaaaaa" ∧
      c.req.cookies = [(ascii "theme", ascii "dark")] ∧ Clean c.req.sessionId ∧
      ∃ cookie ∈ c.res.cookies, Plain cookie.toString := by
  have ran : (Connection.machine.run {} [loginRead]).map (fun ended =>
      ended.2.all (fun out => out.all isServedLogin) &&
        decide (ended.1.req.sessionId = ascii "aaaaaaaaaaaaaaaa" ∧
          ended.1.req.cookies = [(ascii "theme", ascii "dark")] ∧ ended.1.res.cookies ≠ [])) =
      .ok true := by
    decide +kernel
  obtain ⟨c, outputs, ended, seen⟩ := EventMachine.exists_of_view ran
  obtain ⟨logins, shown⟩ := Bool.and_eq_true_iff.mp seen
  obtain ⟨session, cookies, set⟩ := of_decide_eq_true shown
  have served : ∀ pair ∈ [loginRead].zip outputs,
      Served loginHandler sampleApplication 1 pair.1 pair.2 := by
    rintro ⟨r, out⟩ member
    obtain ⟨read, output⟩ := List.of_mem_zip member
    rw [List.mem_singleton.mp read]
    exact served_of_isServedLogin (List.all_eq_true.mp logins out output)
  obtain ⟨clean, -, -, texts⟩ := session_ids_clean ended served
  obtain ⟨cookie, rest, first⟩ := List.exists_cons_of_ne_nil set
  have member : cookie ∈ c.res.cookies := first ▸ List.mem_cons_self
  obtain ⟨sid, age, -, plain, -⟩ := texts cookie member
  exact ⟨c, outputs, ended, session, cookies, clean, cookie, member, plain⟩

end CleanArchitecture
