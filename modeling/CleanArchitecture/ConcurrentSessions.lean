import CleanArchitecture.SessionAuthenticity
import CleanArchitecture.StoreProtocol

/-!
# Requests for a session at the same time

A logout and a request for the user first test whether their session exists and then
delete or read it.  Between the two another logout may delete the session.  As long
as that does not happen, nobody is answered 500 over a healthy store.
-/

namespace CleanArchitecture

open Program Backend WrapperRequest WrapperResponse

/-! ## The phases of a request -/

inductive SessionPhase
  | start
  | refused
  | authenticated (key : Bytes)
  | read (data : Bytes)
  | deleted
  | lost
  deriving DecidableEq

/-- The data of a user that can be shown as JSON. -/
def Shown (libraries : Libraries) (data : Bytes) : Prop :=
  ∃ id username body, libraries.userId data = some id ∧ libraries.userUsername data = some username ∧
    libraries.jsonDump (userJson (cStr id) (cStr username)) = some body

/-- The session is tested, then read or deleted.  It is lost if the second command
does not find it, or finds no user. -/
def sessionRules (libraries : Libraries) : StoreRules SessionPhase where
  allows
    | .start, args => ∃ key, args = [ascii "EXISTS", key]
    | .authenticated key, args => args = [ascii "GET", key] ∨ args = [ascii "DEL", key]
    | .lost, _ => True
    | _, _ => False
  aborts
    | .lost => True
    | .read data => ¬ Shown libraries data
    | _ => False
  next
    | .start, [_, key], some reply => if reply.counts then .authenticated key else .refused
    | .authenticated _, [name, _], some reply =>
        if name = ascii "GET" then
          if reply.type = .string ∧ libraries.userVerify reply.str = true then .read reply.str
          else .lost
        else if reply.counts then .deleted else .lost
    | _, _, _ => .lost

/-- A request is answered without an error of the server, or its session was lost. -/
def AnsweredOrLost (ex : Exchange) (phase : SessionPhase) : Prop :=
  phase = .lost ∨ ex.res.status ∈ [statusOk, statusNoContent, statusUnauthorized]

variable {libraries : Libraries}

theorem follows_isAuthImpl (ex : Exchange) :
    Follows (sessionRules libraries).protocol
      (fun tested reached => tested.2.req.sessionId ≠ [] ∧
        reached = if tested.1 then .authenticated (storeKey tested.2.req.sessionId) else .refused)
      .start (isAuthImpl ex) := by
  apply (StoreRules.follows_getSessionKey ex).bind
  rintro ⟨key, keyed⟩ _ outcome
  obtain ⟨rfl, nonempty, same, -⟩ := outcome
  obtain rfl : key = sessionPrefix ++ keyed.req.sessionId := same
  have tested : Follows (sessionRules libraries).protocol
      (fun present reached => reached =
        if present then .authenticated (storeKey keyed.req.sessionId) else .refused) .start
      (IStore.exists (sessionPrefix ++ keyed.req.sessionId)) :=
    StoreRules.follows_countPositive ⟨_, rfl⟩ trivial fun reply => rfl
  exact tested.bind fun present reached next => follows_pure ⟨nonempty, next⟩

/-- A request that lost its session may call what it likes. -/
theorem OnSession.follows_lost {α : Type} {verbs : List Bytes} {post : α → Prop}
    {program : Backend α} (onSession : OnSession verbs post program) :
    Follows (sessionRules libraries).protocol (fun value reached => post value ∧ reached = .lost) .lost
      program := by
  apply Within.follows onSession
  · intro command call
    cases command with
    | acquire pool => exact .inl (call ▸ trivial)
    | popFront pool => exact .inl (call ▸ trivial)
    | pushBack pool => exact .inl (call ▸ trivial)
    | release pool => exact .inl (call ▸ trivial)
    | redisCommand => trivial
    | freeReplyObject => exact .inl trivial
    | getrandom => exact .inr (.inl rfl)
    | nullDereference => exact .inr (.inr ⟨trivial, trivial⟩)
    | outOfRounds => exact .inr (.inr ⟨trivial, trivial⟩)
    | _ => exact call.elim
  · intro command response call
    cases command <;> rfl

/-- The user of the session that was read, or the session was lost. -/
theorem follows_getSessionUserImpl {ex : Exchange} (session : ex.req.sessionId ≠ []) :
    Follows (sessionRules libraries).protocol
      (fun got reached => reached = .lost ∨ ∃ data id username, reached = .read data ∧
        libraries.userId data = some id ∧ libraries.userUsername data = some username ∧
        got.1 = some { id := cStr id, username := cStr username })
      (.authenticated (storeKey ex.req.sessionId)) (getSessionUserImpl libraries ex) := by
  rw [getSessionUserImpl, getSessionKey_of_session session]
  have got : Follows (sessionRules libraries).protocol
      (fun answer reached => reached = .lost ∨ ∃ data, answer = .ok (some data) ∧
        libraries.userVerify data = true ∧ reached = .read data)
      (.authenticated (storeKey ex.req.sessionId))
      (IStore.getByteArray (sessionPrefix ++ ex.req.sessionId)) := by
    refine StoreRules.follows_getByteArrayImpl (.inl rfl) trivial ?_ ?_
    · intro reply string
      by_cases verified : libraries.userVerify reply.str = true
      · exact .inr ⟨reply.str, rfl, verified, if_pos ⟨string, verified⟩⟩
      · exact .inl (if_neg fun both => verified both.2)
    · intro reply answer other _
      exact .inl (if_neg fun both => other both.1)
  have lost : ∀ pointer : Option Bytes, Follows (sessionRules libraries).protocol
      (fun _ reached => reached = .lost) .lost (dereference pointer) := fun pointer =>
    StoreRules.follows_dereference (fun _ => trivial) fun _ _ => rfl
  apply got.bind
  intro answer reached outcome
  rcases outcome with rfl | ⟨data, rfl, verified, rfl⟩
  · split
    · split
      · apply (lost _).bind
        intro id _ same
        obtain rfl := same
        exact (lost _).bind fun username _ same => follows_pure (.inl same)
      · exact follows_pure (.inl rfl)
    · exact follows_pure (.inl rfl)
  · simp only [verified, if_true]
    have member : ∀ pointer : Option Bytes, (pointer = none → ¬ Shown libraries data) →
        Follows (sessionRules libraries).protocol
          (fun value reached => pointer = some value ∧ reached = .read data) (.read data)
          (dereference pointer) := fun pointer missing =>
      StoreRules.follows_dereference missing fun _ found => ⟨found, rfl⟩
    have noId : libraries.userId data = none → ¬ Shown libraries data := by
      rintro missing ⟨id, username, body, found, -, -⟩
      rw [missing] at found
      cases found
    have noUsername : libraries.userUsername data = none → ¬ Shown libraries data := by
      rintro missing ⟨id, username, body, -, found, -⟩
      rw [missing] at found
      cases found
    apply (member _ noId).bind
    intro id _ outcome
    obtain ⟨idFound, rfl⟩ := outcome
    apply (member _ noUsername).bind
    intro username _ outcome
    exact follows_pure (.inr ⟨data, id, username, outcome.2, idFound, outcome.1, rfl⟩)

theorem follows_clearSession {ex : Exchange} (session : ex.req.sessionId ≠ []) :
    Follows (sessionRules libraries).protocol
      (fun cleared reached => reached = if cleared.1 then .deleted else .lost)
      (.authenticated (storeKey ex.req.sessionId)) (clearSessionUserImpl ex) := by
  rw [clearSessionUserImpl, getSessionKey_of_session session]
  have deleted : Follows (sessionRules libraries).protocol
      (fun deleted reached => reached = if deleted then .deleted else .lost)
      (.authenticated (storeKey ex.req.sessionId))
      (IStore.del (sessionPrefix ++ ex.req.sessionId)) :=
    StoreRules.follows_countPositive (.inr rfl) trivial fun reply => rfl
  apply deleted.bind
  intro removed reached next
  cases removed with
  | true => exact follows_pure next
  | false => exact follows_pure next

/-! ## Use cases -/

variable {app : Application}

theorem LogoutAuthUseCase.follows_sessionRules (ex : Exchange) :
    Follows (sessionRules app.libraries).protocol AnsweredOrLost .start
      (LogoutAuthUseCase.execute app ex) := by
  apply (follows_isAuthImpl ex).bind
  rintro ⟨auth, keyed⟩ reached outcome
  obtain ⟨nonempty, next⟩ := outcome
  cases auth with
  | false => exact follows_pure (.inr (by simp))
  | true =>
      obtain rfl : reached = .authenticated (storeKey keyed.req.sessionId) := next
      apply (follows_clearSession nonempty).bind
      rintro ⟨logout, cleared⟩ reached next
      cases logout with
      | true => exact follows_pure (.inr (by simp))
      | false =>
          obtain rfl : reached = .lost := next
          apply (onSession_getSessionUserImpl _ _).follows_lost.bind
          intro _ _ outcome
          exact follows_pure (.inl outcome.2)

theorem UserAuthUseCase.follows_sessionRules (ex : Exchange) :
    Follows (sessionRules app.libraries).protocol AnsweredOrLost .start
      (UserAuthUseCase.execute app ex) := by
  apply (follows_isAuthImpl ex).bind
  rintro ⟨auth, keyed⟩ reached outcome
  obtain ⟨nonempty, next⟩ := outcome
  cases auth with
  | false => exact follows_pure (.inr (by simp))
  | true =>
      obtain rfl : reached = .authenticated (storeKey keyed.req.sessionId) := next
      apply (follows_getSessionUserImpl nonempty).bind
      rintro ⟨user, read⟩ reached outcome
      rcases outcome with rfl | ⟨data, id, username, rfl, idFound, usernameFound, shown⟩
      · cases user with
        | none => exact follows_pure (.inl rfl)
        | some user =>
            simp only
            split
            · exact ⟨.inr (.inr ⟨trivial, trivial⟩), fun response => response.elim⟩
            · exact follows_pure (.inl rfl)
      · obtain rfl : user = some { id := cStr id, username := cStr username } := shown
        simp only
        split
        · rename_i noText
          refine ⟨.inr (.inr ⟨trivial, ?_⟩), fun response => response.elim⟩
          rintro ⟨id', username', body, idFound', usernameFound', dumped⟩
          rw [idFound] at idFound'
          rw [usernameFound] at usernameFound'
          cases idFound'
          cases usernameFound'
          rw [noText] at dumped
          cases dumped
        · exact follows_pure (.inr (by simp))

/-! ## Requests that do not race -/

section Requests

variable {σ ι : Type} [DecidableEq ι] {h : BackendHandler σ} {view : σ → StoreMap}

/-- The requests to the endpoints, each with its own exchange, in a state of the
environment. -/
def requests (app : Application) (rounds : Nat) (endpoints : ι → Endpoint)
    (exchanges : ι → Exchange) (start : σ) :
    Threads Command Command.Response Exchange SessionPhase σ ι where
  programs i := (endpoints i).handle app rounds (exchanges i)
  phases _ := .start
  shared := start

/-- When a request deletes a session, no other request has found the session and is
still to read or delete it. -/
def NoRace (turn : Turn Command Command.Response Exchange SessionPhase σ ι) : Prop :=
  ∀ ctx key, turn.command = .redisCommand ctx [ascii "DEL", key] →
    ∀ j, j ≠ turn.thread → turn.before.phases j ≠ .authenticated key

/-- No session was lost: those that were found are still there, and what is stored or
was read was stored at first. -/
structure SessionsAlive (stored : Bytes → Prop) (phases : ι → SessionPhase) (m : StoreMap) :
    Prop where
  present : ∀ i key, phases i = .authenticated key → m key ≠ none
  held : ∀ key data, m key = some data → stored data
  read : ∀ i data, phases i = .read data → stored data
  alive : ∀ i, phases i ≠ .lost

variable {stored : Bytes → Prop} {phases : ι → SessionPhase} {m : StoreMap}

/-- The phase of one request moves on. -/
theorem SessionsAlive.update (sessions : SessionsAlive stored phases m) (i : ι) {phase : SessionPhase}
    (present : ∀ key, phase = .authenticated key → m key ≠ none)
    (read : ∀ data, phase = .read data → stored data) (alive : phase ≠ .lost) :
    SessionsAlive stored (Function.update phases i phase) m where
  present :=
    (Function.forall_update_iff phases fun _ phase =>
      ∀ key, phase = .authenticated key → m key ≠ none).mpr ⟨present, fun j _ => sessions.present j⟩
  held := sessions.held
  read :=
    (Function.forall_update_iff phases fun _ phase => ∀ data, phase = .read data → stored data).mpr
      ⟨read, fun j _ => sessions.read j⟩
  alive :=
    (Function.forall_update_iff phases fun _ phase => phase ≠ .lost).mpr
      ⟨alive, fun j _ => sessions.alive j⟩

/-- A session that no other request has found is deleted. -/
theorem SessionsAlive.delete (sessions : SessionsAlive stored phases m) {i : ι} {key : Bytes}
    (alone : ∀ j, j ≠ i → phases j ≠ .authenticated key) :
    SessionsAlive stored (Function.update phases i .deleted) (Function.update m key none) := by
  have moved : SessionsAlive stored (Function.update phases i .deleted) m :=
    sessions.update i (by rintro _ ⟨⟩) (by rintro _ ⟨⟩) (by rintro ⟨⟩)
  have found : ∀ j, Function.update phases i .deleted j ≠ .authenticated key :=
    (Function.forall_update_iff phases fun _ phase => phase ≠ .authenticated key).mpr
      ⟨by rintro ⟨⟩, alone⟩
  constructor
  · intro j other there
    rw [Function.update_of_ne]
    · exact moved.present j other there
    · rintro rfl
      exact found j there
  · intro other data there
    by_cases same : other = key
    · subst same
      rw [Function.update_self] at there
      cases there
    · rw [Function.update_of_ne same] at there
      exact moved.held other data there
  · exact moved.read
  · exact moved.alive

/-- A command of a request that does not race loses no session. -/
theorem SessionsAlive.step (verified : ∀ data, stored data → libraries.userVerify data = true)
    {s : Threads Command Command.Response Exchange SessionPhase σ ι} {i : ι} {ctx : Nat}
    {args : List Bytes} (handle : Nat) (allowed : (sessionRules libraries).allows (s.phases i) args)
    (noRace : NoRace { thread := i, command := .redisCommand ctx args, before := s })
    (sessions : SessionsAlive stored s.phases (view s.shared)) :
    SessionsAlive stored
      (Function.update s.phases i ((sessionRules libraries).next (s.phases i) args
        (some { redisReply args (view s.shared) with handle := handle })))
      (redisMap args (view s.shared)) := by
  cases phase : s.phases i with
  | start =>
      rw [phase] at allowed
      obtain ⟨key, rfl⟩ := allowed
      rw [redisMap_exists, redisReply_exists]
      cases found : view s.shared key with
      | none =>
          change SessionsAlive stored (Function.update s.phases i .refused) _
          exact sessions.update i (by rintro _ ⟨⟩) (by rintro _ ⟨⟩) (by rintro ⟨⟩)
      | some data =>
          change SessionsAlive stored (Function.update s.phases i (.authenticated key)) _
          refine sessions.update i ?_ (by rintro _ ⟨⟩) (by rintro ⟨⟩)
          rintro _ ⟨⟩
          rw [found]
          exact Option.some_ne_none data
  | authenticated key =>
      rw [phase] at allowed
      obtain ⟨data, found⟩ := Option.ne_none_iff_exists'.mp (sessions.present i key phase)
      rcases allowed with rfl | rfl
      · rw [redisMap_get, redisReply_get, found]
        have held := sessions.held key data found
        have next : (sessionRules libraries).next (.authenticated key) [ascii "GET", key]
            (some { handle := handle, type := .string, str := data }) = .read data := by
          simp [sessionRules, verified data held]
        rw [next]
        refine sessions.update i (by rintro _ ⟨⟩) ?_ (by rintro ⟨⟩)
        rintro _ ⟨⟩
        exact held
      · rw [redisMap_del, redisReply_del, found]
        exact sessions.delete (noRace ctx key rfl)
  | lost => exact absurd phase (sessions.alive i)
  | refused =>
      rw [phase] at allowed
      exact allowed.elim
  | read data =>
      rw [phase] at allowed
      exact allowed.elim
  | deleted =>
      rw [phase] at allowed
      exact allowed.elim

/-- Requests for sessions at the same time.  In every interleaving in which no two
requests race, every finished request is answered 200, 204 or 401.  If the random
source answers and the stored users are valid UTF-8, every other one can go on. -/
theorem HealthyStore.concurrent_requests (healthy : HealthyStore h view) {app : Application}
    {rounds : Nat} (lawful : LawfulLibraries app.libraries) {endpoints : ι → Endpoint}
    (kinds : ∀ i, endpoints i = .user ∨ endpoints i = .logout) {exchanges : ι → Exchange} {start : σ}
    (written : ∀ key data, view start key = some data → ∃ user : User,
      data = app.libraries.createUser user.id user.username)
    {schedule : List ι} {turns : List (Turn Command Command.Response Exchange SessionPhase σ ι)}
    {last : Threads Command Command.Response Exchange SessionPhase σ ι}
    (ran : (interleaving (fun _ => (sessionRules app.libraries).protocol) h).run
      (requests app rounds endpoints exchanges start) schedule = .ok (last, turns))
    (noRace : ∀ turn ∈ turns, NoRace turn) :
    (∀ i ex', last.programs i = .done ex' →
        ex'.res.status ∈ [statusOk, statusNoContent, statusUnauthorized]) ∧
      ((∀ t, ∃ buffer t', h .getrandom t = some (buffer, t')) →
        (∀ key data, view start key = some data → ∃ user : User, ValidUtf8 user.id ∧
          ValidUtf8 user.username ∧ data = app.libraries.createUser user.id user.username) →
        ∀ i, (∀ ex', last.programs i ≠ .done ex') →
          ∃ next turn, (interleaving (fun _ => (sessionRules app.libraries).protocol) h).step last i =
            .ok (next, turn)) := by
  have verified : ∀ data, (∃ key, view start key = some data) →
      app.libraries.userVerify data = true := by
    rintro data ⟨key, found⟩
    obtain ⟨user, rfl⟩ := written key data found
    exact lawful.user_verify _ _
  have follows : (requests app rounds endpoints exchanges start).Follow
      (fun _ => (sessionRules app.libraries).protocol) fun _ => AnsweredOrLost := by
    intro i
    simp only [requests]
    rcases kinds i with kind | kind
    · rw [kind]
      exact UserAuthUseCase.follows_sessionRules (exchanges i)
    · rw [kind]
      exact LogoutAuthUseCase.follows_sessionRules (exchanges i)
  have initial : SessionsAlive (fun data => ∃ key, view start key = some data)
      (fun _ : ι => .start) (view start) :=
    ⟨by rintro i key ⟨⟩, fun key data found => ⟨key, found⟩, by rintro i data ⟨⟩, by rintro i ⟨⟩⟩
  obtain ⟨follow, sessions⟩ := healthy.invariant_of_interleaving
    (SessionsAlive fun data => ∃ key, view start key = some data) NoRace
    (fun s i ctx args handle allowed condition sessions =>
      sessions.step verified handle allowed condition) follows initial ran noRace
  constructor
  · intro i ex' finished
    exact (follow.post_of_done finished).resolve_left (sessions.alive i)
  · intro draws utf8 i unfinished
    refine healthy.exists_turn draws follow ?_ unfinished
    intro aborts
    cases phase : last.phases i with
    | lost => exact sessions.alive i phase
    | read data =>
        rw [phase] at aborts
        obtain ⟨key, found⟩ := sessions.read i data phase
        obtain ⟨user, id, username, rfl⟩ := utf8 key data found
        obtain ⟨body, dumped, -⟩ := lawful.json_user (cStr user.id) (cStr user.username)
          (validUtf8_cStr id) (validUtf8_cStr username)
        exact aborts ⟨user.id, user.username, body, lawful.user_id _ _, lawful.user_username _ _,
          dumped⟩
    | _ =>
        rw [phase] at aborts
        exact aborts

end Requests

/-! ## Two requests for one session -/

/-- A world whose store holds one session. -/
def sessionWorld : World :=
  { sampleWorld [] with
    store := Function.update (fun _ => none) (storeKey (ascii "session"))
      (some (sampleLibraries.createUser sampleRow.id sampleRow.username)) }

/-- Two requests for that session. -/
def sampleRequests (endpoints : Bool → Endpoint) :
    Threads Command Command.Response Exchange SessionPhase World Bool :=
  requests sampleApplication 1 endpoints (fun _ => { req := { sessionId := ascii "session" } })
    sessionWorld

def sampleSessions : EventMachine (Threads Command Command.Response Exchange SessionPhase World Bool)
    Bool (Turn Command Command.Response Exchange SessionPhase World Bool) Unit :=
  interleaving (fun _ => (sessionRules sampleApplication.libraries).protocol)
    (World.handler sampleEnvironment)

/-- Whether the other request has found the session that a turn deletes. -/
def deletesFound (turn : Turn Command Command.Response Exchange SessionPhase World Bool) : Bool :=
  match turn.command with
  | .redisCommand _ [name, key] =>
      name = ascii "DEL" ∧ turn.before.phases (!turn.thread) = .authenticated key
  | _ => false

theorem noRace_of_deletesFound
    {turn : Turn Command Command.Response Exchange SessionPhase World Bool}
    (clear : deletesFound turn = false) : NoRace turn := by
  intro ctx key deletion j other found
  rw [deletesFound, deletion] at clear
  rw [Bool.eq_not.mpr other] at found
  exact of_decide_eq_false clear ⟨rfl, found⟩

def sampleStatus (last : Threads Command Command.Response Exchange SessionPhase World Bool)
    (i : Bool) : Option Int :=
  (last.programs i).result?.map fun ex => ex.res.status

theorem of_sampleStatus {last : Threads Command Command.Response Exchange SessionPhase World Bool}
    {i : Bool} {status : Int} (answered : sampleStatus last i = some status) :
    ∃ ex', last.programs i = .done ex' ∧ ex'.res.status = status := by
  obtain ⟨ex', finished, same⟩ := Option.map_eq_some_iff.mp answered
  exact ⟨ex', result?_eq_some.mp finished, same⟩

theorem written_sessionWorld (key data : Bytes) (found : sessionWorld.store key = some data) :
    ∃ user : User, ValidUtf8 user.id ∧ ValidUtf8 user.username ∧
      data = sampleApplication.libraries.createUser user.id user.username := by
  simp only [sessionWorld] at found
  by_cases same : key = storeKey (ascii "session")
  · subst same
    rw [Function.update_self] at found
    cases found
    exact ⟨{ id := sampleRow.id, username := sampleRow.username }, validUtf8_sampleRow.1,
      validUtf8_sampleRow.2, rfl⟩
  · rw [Function.update_of_ne same] at found
    cases found

/-- The user is read between the test and the deletion of the logout. -/
theorem concurrent_requests_sample : ∃ last turns shown ended,
    sampleSessions.run (sampleRequests fun i => if i then .logout else .user)
        (List.replicate 12 [false, true]).flatten = .ok (last, turns) ∧
      last.programs false = .done shown ∧ last.programs true = .done ended ∧
      shown.res.status ∈ [statusOk, statusNoContent, statusUnauthorized] ∧
      ended.res.status ∈ [statusOk, statusNoContent, statusUnauthorized] := by
  have ran : (sampleSessions.run (sampleRequests fun i => if i then .logout else .user)
      (List.replicate 12 [false, true]).flatten).map (fun ended =>
        ended.2.all (fun turn => !deletesFound turn) &&
          decide (sampleStatus ended.1 false = some statusOk ∧
            sampleStatus ended.1 true = some statusNoContent)) = .ok true := by
    decide +kernel
  obtain ⟨last, turns, finished, seen⟩ := EventMachine.exists_of_view ran
  obtain ⟨clear, statuses⟩ := Bool.and_eq_true_iff.mp seen
  obtain ⟨shown, shownDone, -⟩ := of_sampleStatus (of_decide_eq_true statuses).1
  obtain ⟨ended, endedDone, -⟩ := of_sampleStatus (of_decide_eq_true statuses).2
  obtain ⟨answered, -⟩ := (World.healthy sampleEnvironment).concurrent_requests
    lawful_sampleLibraries (by decide) (fun key data found => by
      obtain ⟨user, -, -, same⟩ := written_sessionWorld key data found
      exact ⟨user, same⟩) finished
    fun turn member => noRace_of_deletesFound (by simpa using List.all_eq_true.mp clear turn member)
  exact ⟨last, turns, shown, ended, finished, shownDone, endedDone, answered false shown shownDone,
    answered true ended endedDone⟩

/-- Two logouts find the session before either deletes it: the second one is answered
500. -/
theorem logout_answered_500 : ∃ last turns first second,
    sampleSessions.run (sampleRequests fun _ => .logout)
        ((List.replicate 12 [false, true]).flatten ++ List.replicate 6 true) = .ok (last, turns) ∧
      last.programs false = .done first ∧ last.programs true = .done second ∧
      first.res.status = statusNoContent ∧ second.res.status = statusInternalServerError := by
  have ran : (sampleSessions.run (sampleRequests fun _ => .logout)
      ((List.replicate 12 [false, true]).flatten ++ List.replicate 6 true)).map (fun ended =>
        decide (sampleStatus ended.1 false = some statusNoContent ∧
          sampleStatus ended.1 true = some statusInternalServerError)) = .ok true := by
    decide +kernel
  obtain ⟨last, turns, finished, statuses⟩ := EventMachine.exists_of_view ran
  obtain ⟨first, firstDone, status⟩ := of_sampleStatus (of_decide_eq_true statuses).1
  obtain ⟨second, secondDone, status'⟩ := of_sampleStatus (of_decide_eq_true statuses).2
  exact ⟨last, turns, first, second, finished, firstDone, secondDone, status, status'⟩

end CleanArchitecture
