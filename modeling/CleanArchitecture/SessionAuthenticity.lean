import CleanArchitecture.DatabaseFrame
import CleanArchitecture.EventMachine
import CleanArchitecture.SampleWorld
import CleanArchitecture.SessionRules
import Mathlib.Data.List.Basic

/-!
# Session authenticity

The answers to a run of requests tell which session ids are logged in as whom.
Over a healthy store the map under the session prefix always agrees with that
history, so a request for the user of a session is answered from it.
-/

namespace CleanArchitecture

open Program Backend WrapperRequest WrapperResponse

/-! ## History -/

/-- The answer to a request: its exchange afterwards and, for a login, the user
whose credentials it named. -/
structure Answer where
  endpoint : Endpoint
  exchange : Exchange
  user : Option User
  deriving DecidableEq

inductive SessionEvent
  | login (sid : Bytes) (user : User)
  | logout (sid : Bytes)

/-- A login answered 204 issues the session id in its cookie; a logout answered 204
ends the session of its request. -/
def Answer.event (answer : Answer) : Option SessionEvent :=
  if answer.exchange.res.status = statusNoContent then
    match answer.endpoint with
    | .login =>
        match answer.exchange.res.cookies.getLast?, answer.user with
        | some cookie, some user => some (.login cookie.value user)
        | _, _ => none
    | .logout => some (.logout answer.exchange.req.sessionId)
    | _ => none
  else none

/-- An answer that neither issues nor ends a session id. -/
def Answer.Spares (answer : Answer) (sid : Bytes) : Prop :=
  (∀ user, answer.event ≠ some (.login sid user)) ∧ answer.event ≠ some (.logout sid)

/-- The latest login that issued the session id logged this user in, and no logout
ended it afterwards. -/
def LoggedIn (answers : List Answer) (sid : Bytes) (user : User) : Prop :=
  ∃ before answer after, answers = before ++ answer :: after ∧
    answer.event = some (.login sid user) ∧ ∀ later ∈ after, later.Spares sid

/-- The user of a session id after an answer. -/
def Answer.next (sid : Bytes) (current : Option User) (answer : Answer) : Option User :=
  match answer.event with
  | none => current
  | some (.login issued user) => if issued = sid then some user else current
  | some (.logout ended) => if ended = sid then none else current

def activeUser (sid : Bytes) (answers : List Answer) : Option User :=
  answers.foldl (Answer.next sid) none

theorem activeUser_concat (sid : Bytes) (answers : List Answer) (answer : Answer) :
    activeUser sid (answers ++ [answer]) = answer.next sid (activeUser sid answers) := by
  rw [activeUser, List.foldl_append]
  rfl

theorem Answer.next_of_spares {answer : Answer} {sid : Bytes} (spares : answer.Spares sid)
    (current : Option User) : answer.next sid current = current := by
  unfold Answer.next
  split
  · rfl
  · rename_i issued user event
    apply if_neg
    rintro rfl
    exact spares.1 user event
  · rename_i ended event
    apply if_neg
    rintro rfl
    exact spares.2 event

theorem Answer.next_of_not_spares {answer : Answer} {sid : Bytes} (affects : ¬ answer.Spares sid)
    {current : Option User} {user : User} :
    answer.next sid current = some user ↔ answer.event = some (.login sid user) := by
  unfold Answer.Spares at affects
  unfold Answer.next
  cases event : answer.event with
  | none => simp [event] at affects
  | some change =>
      cases change with
      | login issued other =>
          simp only [event, Option.some.injEq, SessionEvent.login.injEq, reduceCtorEq,
            not_false_eq_true, ne_eq, not_and, and_true, not_forall, not_not, exists_prop] at affects ⊢
          obtain ⟨-, rfl, -⟩ := affects
          simp
      | logout ended =>
          simp only [event, Option.some.injEq, reduceCtorEq, SessionEvent.logout.injEq, ne_eq,
            not_false_eq_true, implies_true, true_and, not_not] at affects ⊢
          simp [affects]

theorem loggedIn_nil {sid : Bytes} {user : User} : ¬ LoggedIn [] sid user := by
  rintro ⟨before, answer, after, parts, -⟩
  simp at parts

/-- One more answer logs the session in, or leaves it as it was. -/
theorem loggedIn_concat {answers : List Answer} {answer : Answer} {sid : Bytes} {user : User} :
    LoggedIn (answers ++ [answer]) sid user ↔
      answer.event = some (.login sid user) ∨ answer.Spares sid ∧ LoggedIn answers sid user := by
  constructor
  · rintro ⟨before, login, after, parts, issued, kept⟩
    rcases List.eq_nil_or_concat' after with rfl | ⟨earlier, last, rfl⟩
    · obtain ⟨-, same⟩ := List.append_inj' parts rfl
      cases same
      exact .inl issued
    · rw [← List.cons_append, ← List.append_assoc] at parts
      obtain ⟨rfl, same⟩ := List.append_inj' parts rfl
      cases same
      exact .inr ⟨kept answer (by simp), before, login, earlier, rfl, issued,
        fun later member => kept later (List.mem_append_left _ member)⟩
  · rintro (issued | ⟨spares, before, login, after, rfl, issued, kept⟩)
    · exact ⟨answers, answer, [], rfl, issued, by simp⟩
    · refine ⟨before, login, after ++ [answer], by simp, issued, ?_⟩
      intro later member
      rcases List.mem_append.mp member with old | new
      · exact kept later old
      · exact List.mem_singleton.mp new ▸ spares

theorem activeUser_eq_some_iff {sid : Bytes} {answers : List Answer} {user : User} :
    activeUser sid answers = some user ↔ LoggedIn answers sid user := by
  induction answers using List.reverseRecOn with
  | nil =>
      constructor
      · intro active
        cases active
      · intro login
        exact absurd login loggedIn_nil
  | append_singleton answers answer ih =>
      rw [activeUser_concat, loggedIn_concat, ← ih]
      by_cases spares : answer.Spares sid
      · rw [Answer.next_of_spares spares]
        simp [spares, spares.1 user]
      · rw [Answer.next_of_not_spares spares]
        simp [spares]

/-- The users whom these answers logged in are in UTF-8. -/
def UsersUtf8 (answers : List Answer) : Prop :=
  ∀ answer ∈ answers, ∀ sid user, answer.event = some (.login sid user) →
    ValidUtf8 user.id ∧ ValidUtf8 user.username

theorem UsersUtf8.of_activeUser {answers : List Answer} (utf8 : UsersUtf8 answers) {sid : Bytes}
    {user : User} (active : activeUser sid answers = some user) :
    ValidUtf8 user.id ∧ ValidUtf8 user.username := by
  obtain ⟨before, login, later, rfl, issued, -⟩ := activeUser_eq_some_iff.mp active
  exact utf8 login (by simp) _ user issued

theorem Answer.of_login_event {answer : Answer} {sid : Bytes} {user : User}
    (event : answer.event = some (.login sid user)) :
    answer.endpoint = .login ∧ answer.user = some user := by
  unfold Answer.event at event
  split at event
  · split at event
    · rename_i login
      split at event
      · rename_i named
        cases event
        exact ⟨login, named⟩
      · cases event
    · cases event
    · cases event
  · cases event

theorem Answer.event_login {ex : Exchange} {cookie : Cookie} (user : User)
    (opened : ex.res.status = statusNoContent) (issued : ex.res.cookies.getLast? = some cookie) :
    Answer.event ⟨.login, ex, some user⟩ = some (.login cookie.value user) := by
  rw [Answer.event, if_pos opened]
  simp only [issued]

theorem UsersUtf8.concat {answers : List Answer} {answer : Answer} (utf8 : UsersUtf8 answers)
    (last : answer.endpoint = .login → ∀ user, answer.user = some user →
      ValidUtf8 user.id ∧ ValidUtf8 user.username) : UsersUtf8 (answers ++ [answer]) := by
  intro other member sid user event
  rcases List.mem_append.mp member with earlier | new
  · exact utf8 other earlier sid user event
  · obtain rfl := List.mem_singleton.mp new
    obtain ⟨login, named⟩ := Answer.of_login_event event
    exact last login user named

/-! ## Runs of requests -/

section Service

variable {σ : Type} (h : BackendHandler σ) (app : Application) (rounds : Nat)

/-- The request has no session of a user. -/
def Unauthenticated (s : σ) (ex : Exchange) : Prop :=
  ∃ keyed s', run h (isAuthImpl ex) s = some ((false, keyed), s')

/-- The user whose credentials a login names, as the code finds it. -/
def loginUser (ex : Exchange) (s : σ) : Option User :=
  (run h (LoginAuthUseCase.authenticate app ex) s).bind fun authenticated => authenticated.1.1

/-- Requests handled one at a time, each by the endpoint it is routed to; a run
ends with the process, or with a loop that takes more than `rounds` rounds. -/
def service : EventMachine σ (Endpoint × Exchange) Answer Unit where
  step s request :=
    match run h (request.1.handle app rounds request.2) s with
    | none => .error ()
    | some (exchange, s') =>
        .ok (s',
          { endpoint := request.1
            exchange := exchange
            user := if request.1 = .login then loginUser h app request.2 s else none })

theorem service_step_of_run {s s' : σ} {request : Endpoint × Exchange} {ex : Exchange}
    (ran : run h (request.1.handle app rounds request.2) s = some (ex, s')) :
    (service h app rounds).step s request =
      .ok (s',
        { endpoint := request.1
          exchange := ex
          user := if request.1 = .login then loginUser h app request.2 s else none }) := by
  simp only [service, ran]

theorem run_of_service_step {s s' : σ} {request : Endpoint × Exchange} {answer : Answer}
    (stepped : (service h app rounds).step s request = .ok (s', answer)) :
    ∃ ex, run h (request.1.handle app rounds request.2) s = some (ex, s') ∧
      answer =
        { endpoint := request.1
          exchange := ex
          user := if request.1 = .login then loginUser h app request.2 s else none } := by
  simp only [service] at stepped
  split at stepped
  · cases stepped
  · rename_i ex last ran
    cases stepped
    exact ⟨ex, ran, rfl⟩

/-- The id in a body with a user. -/
def answeredId (libraries : Libraries) (content : Bytes) : Option Bytes :=
  (libraries.jsonParse content).bind fun json => json.stringMember (ascii "id")

/-- A request for the user of its session is answered 200 with this user id. -/
def AnsweredWith (s : σ) (ex : Exchange) (id : Bytes) : Prop :=
  ∃ ex' s', run h (Endpoint.user.handle app rounds ex) s = some (ex', s') ∧
    ex'.res.status = statusOk ∧ answeredId app.libraries ex'.res.content = some id

/-- A request for the user of its session is answered 401. -/
def AnsweredUnauthorized (s : σ) (ex : Exchange) : Prop :=
  ∃ ex' s', run h (Endpoint.user.handle app rounds ex) s = some (ex', s') ∧
    ex'.res.status = statusUnauthorized

/-- In a state after these answers, a request for the user of a session is answered 200 with
the id of the user whom the latest login that issued the session id logged in, if no logout
ended it afterwards, and 401 otherwise.  A further request that neither issues nor ends that
session id changes nothing about this answer. -/
def Authentic (last : σ) (answers : List Answer) : Prop :=
  ∀ ex : Exchange, ex.req.sessionId ≠ [] → 0 ∉ ex.req.sessionId →
    (∀ id, AnsweredWith h app rounds last ex id ↔
        ∃ user, LoggedIn answers ex.req.sessionId user ∧ user.id = id) ∧
      (AnsweredUnauthorized h app rounds last ex ↔
        ∀ user, ¬ LoggedIn answers ex.req.sessionId user) ∧
      ∀ request after answer, 0 ∉ request.2.req.sessionId →
        (service h app rounds).step last request = .ok (after, answer) →
        answer.Spares ex.req.sessionId →
        (∀ id, AnsweredWith h app rounds after ex id ↔ AnsweredWith h app rounds last ex id) ∧
          (AnsweredUnauthorized h app rounds after ex ↔
            AnsweredUnauthorized h app rounds last ex)

end Service

/-- Flatbuffers decode what they encode, and JSON texts of users with valid UTF-8
are written and read back. -/
structure LawfulLibraries (libraries : Libraries) : Prop where
  user_verify : ∀ id username, libraries.userVerify (libraries.createUser id username) = true
  user_id : ∀ id username, libraries.userId (libraries.createUser id username) = some id
  user_username : ∀ id username,
    libraries.userUsername (libraries.createUser id username) = some username
  json_user : ∀ id username, ValidUtf8 id → ValidUtf8 username →
    ∃ text, libraries.jsonDump (userJson id username) = some text ∧
      libraries.jsonParse text = some (userJson id username)

/-! ## What an answer does to the store -/

variable {σ : Type} {h : BackendHandler σ} {view : σ → StoreMap} (healthy : HealthyStore h view)
  {app : Application} {rounds : Nat}

include healthy

theorem HealthyStore.of_authenticate {ex ex' : Exchange} {found : Option User} {s s' : σ}
    (ran : run h (LoginAuthUseCase.authenticate app ex) s = some ((found, ex'), s')) :
    view s' = view s ∧ (found = none → ex'.res.status ≠ statusNoContent) ∧
      ∀ user, found = some user → 0 ∉ user.id := by
  obtain ⟨⟨auth, keyed⟩, s₁, tested, rest⟩ := run_bind_eq_some.mp ran
  obtain ⟨sid, -, -, rfl, same₁⟩ := healthy.of_isAuthImpl tested
  cases auth with
  | true =>
      cases rest
      exact ⟨same₁, by simp [statusForbidden, statusNoContent], by simp⟩
  | false =>
      obtain ⟨body, s₂, parsed, rest⟩ := run_bind_eq_some.mp rest
      have same₂ := (healthy.of_offStore (LoginAuthUseCase.offStore_parseBody _ _) parsed).1
      cases body with
      | error log =>
          cases rest
          exact ⟨same₂.trans same₁, by simp [statusUnauthorized, statusNoContent], by simp⟩
      | ok body =>
          simp only at rest
          split at rest
          · cases rest
            exact ⟨same₂.trans same₁, by simp [statusUnauthorized, statusNoContent], by simp⟩
          · obtain ⟨user, s₃, checked, rest⟩ := run_bind_eq_some.mp rest
            obtain ⟨same₃, noNul⟩ :=
              healthy.of_offStore (LoginAuthUseCase.offStore_checkUser _ _) checked
            cases user with
            | none =>
                cases rest
                exact ⟨same₃.trans (same₂.trans same₁),
                  by simp [statusUnauthorized, statusNoContent], by simp⟩
            | some user =>
                cases rest
                exact ⟨same₃.trans (same₂.trans same₁), by simp, noNul⟩

/-- A login stores its user under a new id, or changes nothing and is not answered
204. -/
theorem HealthyStore.of_login {ex ex' : Exchange} {s s' : σ}
    (ran : run h (LoginAuthUseCase.execute app rounds ex) s = some (ex', s')) :
    ∃ found authenticated s₁,
      run h (LoginAuthUseCase.authenticate app ex) s = some ((found, authenticated), s₁) ∧
        match found with
        | none => ex'.res.status ≠ statusNoContent ∧ view s' = view s
        | some user =>
            0 ∉ user.id ∧ ex'.res.status = statusNoContent ∧
              ∃ sid, sid ≠ [] ∧ 0 ∉ sid ∧
                ex'.res.cookies.getLast? = some (sessionCookie sid 3600) ∧
                view s' = Function.update (view s) (storeKey sid)
                  (some (app.libraries.createUser user.id user.username)) := by
  obtain ⟨⟨found, authenticated⟩, s₁, checked, rest⟩ := run_bind_eq_some.mp ran
  refine ⟨found, authenticated, s₁, checked, ?_⟩
  obtain ⟨same, rejected, noNul⟩ := healthy.of_authenticate checked
  cases found with
  | none =>
      cases rest
      exact ⟨rejected rfl, same⟩
  | some user =>
      obtain ⟨⟨log, opened⟩, s₂, set, finished⟩ := run_bind_eq_some.mp rest
      cases finished
      obtain ⟨sid, nonempty, sidNoNul, -, rfl, stored⟩ := healthy.of_setSessionUserImpl set
      rw [same] at stored
      exact ⟨noNul user rfl, rfl, sid, nonempty, sidNoNul, by simp [setStatus, pushCookie], stored⟩

/-- A logout answered 204 deletes the key of its session, any other one changes
nothing. -/
theorem HealthyStore.of_logout {ex ex' : Exchange} {s s' : σ}
    (ran : run h (LogoutAuthUseCase.execute app ex) s = some (ex', s')) :
    (ex'.res.status ≠ statusNoContent ∧ view s' = view s) ∨
      (ex'.res.status = statusNoContent ∧ ex.HasSession ex'.req.sessionId ∧
        view s' = Function.update (view s) (storeKey ex'.req.sessionId) none) := by
  obtain ⟨⟨auth, keyed⟩, s₁, tested, rest⟩ := run_bind_eq_some.mp ran
  obtain ⟨sid, session, present, rfl, same₁⟩ := healthy.of_isAuthImpl tested
  cases auth with
  | false =>
      cases rest
      exact .inl ⟨by simp [statusUnauthorized, statusNoContent], same₁⟩
  | true =>
      obtain ⟨s₂, cleared, after⟩ :=
        healthy.run_clearSessionUserImpl (ex.withSession sid) session.1 s₁
      have found : (view s₁ (storeKey (ex.withSession sid).req.sessionId)).isSome = true := by
        rw [same₁]
        exact present.symm
      rw [if_pos found] at cleared
      have finished := (run_bind_of_run cleared).symm.trans rest
      cases finished
      rw [same₁] at after
      exact .inr ⟨rfl, session, after⟩

theorem HealthyStore.view_of_user {ex ex' : Exchange} {s s' : σ}
    (ran : run h (UserAuthUseCase.execute app ex) s = some (ex', s')) : view s' = view s := by
  obtain ⟨⟨auth, keyed⟩, s₁, tested, rest⟩ := run_bind_eq_some.mp ran
  obtain ⟨sid, -, -, rfl, same₁⟩ := healthy.of_isAuthImpl tested
  cases auth with
  | false =>
      cases rest
      exact same₁
  | true =>
      obtain ⟨⟨user, read⟩, s₂, got, rest⟩ := run_bind_eq_some.mp rest
      have same₂ := healthy.view_of_getSessionUserImpl got
      cases user with
      | none =>
          cases rest
          exact same₂.trans same₁
      | some user =>
          simp only at rest
          split at rest
          · rw [run_terminate] at rest
            cases rest
          · cases rest
            exact same₂.trans same₁

theorem HealthyStore.view_of_register {ex ex' : Exchange} {s s' : σ}
    (ran : run h (RegisterAuthUseCase.execute app ex) s = some (ex', s')) : view s' = view s := by
  obtain ⟨⟨auth, keyed⟩, s₁, tested, rest⟩ := run_bind_eq_some.mp ran
  obtain ⟨sid, -, -, rfl, same₁⟩ := healthy.of_isAuthImpl tested
  cases auth with
  | true =>
      cases rest
      exact same₁
  | false =>
      simp only [Bool.false_eq_true, if_false] at rest
      split at rest
      · cases rest
        exact same₁
      · split at rest
        · cases rest
          exact same₁
        · have same₂ := (healthy.of_offStore (RegisterAuthUseCase.offStore_addUser _ _ _) rest).1
          exact same₂.trans same₁

/-- What the event of an answer says about the store. -/
def StoreChange (libraries : Libraries) (before after : StoreMap) : Option SessionEvent → Prop
  | none => after = before
  | some (.login sid user) =>
      0 ∉ user.id ∧ 0 ∉ sid ∧
        after = Function.update before (storeKey sid)
          (some (libraries.createUser user.id user.username))
  | some (.logout sid) => 0 ∉ sid ∧ after = Function.update before (storeKey sid) none

theorem HealthyStore.step_change {s s' : σ} {request : Endpoint × Exchange} {answer : Answer}
    (noNul : 0 ∉ request.2.req.sessionId)
    (stepped : (service h app rounds).step s request = .ok (s', answer)) :
    StoreChange app.libraries (view s) (view s') answer.event := by
  obtain ⟨ex', ran, rfl⟩ := run_of_service_step h app rounds stepped
  obtain ⟨endpoint, ex⟩ := request
  cases endpoint with
  | user =>
      have quiet : Answer.event ⟨.user, ex', none⟩ = none := ite_self none
      simpa [quiet, StoreChange] using healthy.view_of_user ran
  | register =>
      have quiet : Answer.event ⟨.register, ex', none⟩ = none := ite_self none
      simpa [quiet, StoreChange] using healthy.view_of_register ran
  | logout =>
      rcases healthy.of_logout ran with ⟨rejected, same⟩ | ⟨ended, session, after⟩
      · have quiet : Answer.event ⟨.logout, ex', none⟩ = none := if_neg rejected
        simpa [quiet, StoreChange] using same
      · have ends : Answer.event ⟨.logout, ex', none⟩ = some (.logout ex'.req.sessionId) :=
          if_pos ended
        simpa [ends, StoreChange] using And.intro (session.noNul noNul) after
  | login =>
      obtain ⟨found, authenticated, s₁, checked, outcome⟩ := healthy.of_login ran
      have known : loginUser h app ex s = found := by
        rw [loginUser, checked, Option.bind_some]
      cases found with
      | none =>
          have quiet : Answer.event ⟨.login, ex', none⟩ = none := if_neg outcome.1
          simpa [known, quiet, StoreChange] using outcome.2
      | some user =>
          obtain ⟨userNoNul, opened, sid, -, sidNoNul, cookie, after⟩ := outcome
          have issues : Answer.event ⟨.login, ex', some user⟩ = some (.login sid user) :=
            Answer.event_login user opened cookie
          simpa [known, issues, StoreChange] using ⟨userNoNul, sidNoNul, after⟩

/-- The store holds under the key of each session id the user of that session. -/
def StoreAgrees (libraries : Libraries) (answers : List Answer) (store : StoreMap) : Prop :=
  ∀ sid, 0 ∉ sid →
    (store (storeKey sid) = (activeUser sid answers).map fun user =>
        libraries.createUser user.id user.username) ∧
      ∀ user, activeUser sid answers = some user → 0 ∉ user.id

omit healthy in
theorem StoreAgrees.step {libraries : Libraries} {answers : List Answer} {answer : Answer}
    {before after : StoreMap} (agrees : StoreAgrees libraries answers before)
    (change : StoreChange libraries before after answer.event) :
    StoreAgrees libraries (answers ++ [answer]) after := by
  intro sid sidNoNul
  obtain ⟨held, noNul⟩ := agrees sid sidNoNul
  rw [activeUser_concat, Answer.next]
  cases event : answer.event with
  | none =>
      rw [event] at change
      obtain rfl : after = before := change
      exact ⟨held, noNul⟩
  | some happened =>
      rw [event] at change
      cases happened with
      | login issued user =>
          obtain ⟨userNoNul, issuedNoNul, rfl⟩ := change
          by_cases same : issued = sid
          · subst same
            simp [userNoNul]
          · simpa [same, update_storeKey_of_ne sidNoNul issuedNoNul same] using ⟨held, noNul⟩
      | logout ended =>
          obtain ⟨endedNoNul, rfl⟩ := change
          by_cases same : ended = sid
          · subst same
            simp
          · simpa [same, update_storeKey_of_ne sidNoNul endedNoNul same] using ⟨held, noNul⟩

omit healthy in
theorem storeAgrees_nil (libraries : Libraries) {store : StoreMap}
    (noSessions : ∀ sid, store (sessionPrefix ++ sid) = none) : StoreAgrees libraries [] store := by
  intro sid sidNoNul
  rw [storeKey_eq sidNoNul, noSessions]
  exact ⟨rfl, by simp [activeUser]⟩

/-- Over every run from a store without sessions the store agrees with the answers. -/
theorem HealthyStore.storeAgrees_of_run {start last : σ}
    (noSessions : ∀ sid, view start (sessionPrefix ++ sid) = none)
    {requests : List (Endpoint × Exchange)} {answers : List Answer}
    (noNul : ∀ request ∈ requests, 0 ∉ request.2.req.sessionId)
    (ran : (service h app rounds).run start requests = .ok (last, answers)) :
    StoreAgrees app.libraries answers (view last) := by
  refine EventMachine.run_invariant
    (fun requests answers s => (∀ request ∈ requests, 0 ∉ request.2.req.sessionId) →
      StoreAgrees app.libraries answers (view s)) ?_ ?_ ran noNul
  · intro _
    exact storeAgrees_nil app.libraries noSessions
  · intro earlier answered s request s' answer _ agrees stepped noNul
    have agreed := agrees fun other member => noNul other (List.mem_append_left _ member)
    exact agreed.step (healthy.step_change (noNul request (by simp)) stepped)

/-! ## Requests for the user of a session -/

theorem HealthyStore.answeredUnauthorized (app : Application) (rounds : Nat) {s : σ} {ex : Exchange}
    (session : ex.req.sessionId ≠ []) (absent : view s (storeKey ex.req.sessionId) = none) :
    ∃ s', run h (Endpoint.user.handle app rounds ex) s =
      some (setStatus statusUnauthorized ex, s') := by
  obtain ⟨s', tested, -⟩ := healthy.run_isAuthImpl session s
  refine ⟨s', ?_⟩
  rw [absent] at tested
  exact run_bind_of_run tested

theorem HealthyStore.answeredOk (rounds : Nat) (lawful : LawfulLibraries app.libraries) {s : σ}
    {ex : Exchange} {user : User} (session : ex.req.sessionId ≠ [])
    (held : view s (storeKey ex.req.sessionId) =
      some (app.libraries.createUser user.id user.username))
    (noNul : 0 ∉ user.id) (id : ValidUtf8 user.id) (username : ValidUtf8 user.username) :
    ∃ body s', run h (Endpoint.user.handle app rounds ex) s =
        some (setStatus statusOk (setContentType .applicationJson (setBody body ex)), s') ∧
      answeredId app.libraries body = some user.id := by
  obtain ⟨s₁, tested, same₁⟩ := healthy.run_isAuthImpl session s
  rw [held] at tested
  obtain ⟨s₂, got, -⟩ := healthy.run_getSessionUserImpl session ((congrFun same₁ _).trans held)
    (lawful.user_verify _ _) (lawful.user_id _ _) (lawful.user_username _ _)
  rw [cStr_eq_self noNul] at got
  obtain ⟨body, dumped, parsed⟩ := lawful.json_user user.id (cStr user.username) id
    (validUtf8_cStr username)
  refine ⟨body, s₂, ?_, ?_⟩
  · apply (run_bind_of_run tested).trans
    apply (run_bind_of_run got).trans
    simp only [dumped]
    rfl
  · rw [answeredId, parsed]
    rfl

/-- The answer for a session is read off the history that the store agrees with. -/
theorem HealthyStore.answered_iff (rounds : Nat) (lawful : LawfulLibraries app.libraries) {s : σ}
    {answers : List Answer} (agrees : StoreAgrees app.libraries answers (view s)) {ex : Exchange}
    (session : ex.req.sessionId ≠ []) (sessionNoNul : 0 ∉ ex.req.sessionId)
    (utf8 : ∀ user, activeUser ex.req.sessionId answers = some user →
      ValidUtf8 user.id ∧ ValidUtf8 user.username) :
    (∀ id, AnsweredWith h app rounds s ex id ↔
        ∃ user, activeUser ex.req.sessionId answers = some user ∧ user.id = id) ∧
      (AnsweredUnauthorized h app rounds s ex ↔ activeUser ex.req.sessionId answers = none) := by
  obtain ⟨held, noNul⟩ := agrees ex.req.sessionId sessionNoNul
  cases active : activeUser ex.req.sessionId answers with
  | none =>
      rw [active] at held
      obtain ⟨s', ran⟩ := healthy.answeredUnauthorized app rounds session held
      constructor
      · intro id
        constructor
        · rintro ⟨ex', last, answered, status, -⟩
          rw [ran] at answered
          cases answered
          cases status
        · rintro ⟨user, missing, -⟩
          cases missing
      · exact iff_of_true ⟨_, s', ran, rfl⟩ rfl
  | some user =>
      rw [active] at held
      obtain ⟨body, s', ran, named⟩ := healthy.answeredOk rounds lawful session held
        (noNul user active) (utf8 user active).1 (utf8 user active).2
      constructor
      · intro id
        constructor
        · rintro ⟨ex', last, answered, -, answeredId⟩
          rw [ran] at answered
          cases answered
          exact ⟨user, rfl, Option.some.inj (named.symm.trans answeredId)⟩
        · rintro ⟨other, same, rfl⟩
          cases same
          exact ⟨_, s', ran, rfl, named⟩
      · refine iff_of_false ?_ (Option.some_ne_none user)
        rintro ⟨ex', last, answered, status⟩
        rw [ran] at answered
        cases answered
        cases status

/-- Where the store agrees with the answers, each session is answered from them. -/
theorem HealthyStore.authentic_of_agrees (lawful : LawfulLibraries app.libraries) {last : σ}
    {answers : List Answer} (agrees : StoreAgrees app.libraries answers (view last))
    (utf8 : UsersUtf8 answers) : Authentic h app rounds last answers := by
  intro ex session sessionNoNul
  obtain ⟨withUser, unauthorized⟩ := healthy.answered_iff rounds lawful agrees session
    sessionNoNul fun _ active => utf8.of_activeUser active
  refine ⟨?_, ?_, ?_⟩
  · intro id
    simp only [withUser, activeUser_eq_some_iff]
  · simp only [unauthorized, Option.eq_none_iff_forall_ne_some, ne_eq, activeUser_eq_some_iff]
  · intro request after answer requestNoNul stepped spares
    have same : activeUser ex.req.sessionId (answers ++ [answer]) =
        activeUser ex.req.sessionId answers := by
      rw [activeUser_concat, Answer.next_of_spares spares]
    have agreesAfter := agrees.step (healthy.step_change requestNoNul stepped)
    obtain ⟨withUserAfter, unauthorizedAfter⟩ := healthy.answered_iff rounds lawful
      agreesAfter session sessionNoNul (by rw [same]; exact fun _ => utf8.of_activeUser)
    constructor
    · intro id
      rw [withUserAfter, withUser, same]
    · rw [unauthorizedAfter, unauthorized, same]

/-- After every run that comes to its end, from a store without sessions, each session is
answered from the answers of the run. -/
theorem HealthyStore.authentic_of_run (lawful : LawfulLibraries app.libraries) {start last : σ}
    (noSessions : ∀ sid, view start (sessionPrefix ++ sid) = none)
    {requests : List (Endpoint × Exchange)} {answers : List Answer}
    (noNul : ∀ request ∈ requests, 0 ∉ request.2.req.sessionId)
    (ran : (service h app rounds).run start requests = .ok (last, answers))
    (utf8 : UsersUtf8 answers) : Authentic h app rounds last answers :=
  healthy.authentic_of_agrees lawful (healthy.storeAgrees_of_run noSessions noNul ran) utf8

omit healthy

/-! ## The sample world -/

theorem lawful_sampleLibraries : LawfulLibraries sampleLibraries where
  user_verify id username := decide_eq_true (SampleWorld.two_mul_idLength_writeUser id username)
  user_id id username := congrArg some (SampleWorld.readUserId_writeUser id username)
  user_username id username := congrArg some (SampleWorld.readUserUsername_writeUser id username)
  json_user id username _ _ := by
    refine ⟨_, rfl, ?_⟩
    simp only [sampleLibraries, SampleWorld.readObject_writeObject]
    rfl

def sampleRow : UserRow where
  id := ascii "00000000-0000-0000-0000-000000000000"
  username := ascii "username"
  password := SampleWorld.spellPassword (ascii "password")

theorem validUtf8_sampleRow : ValidUtf8 sampleRow.id ∧ ValidUtf8 sampleRow.username :=
  ⟨⟨"00000000-0000-0000-0000-000000000000".toList, by decide⟩,
    ⟨"username".toList, by decide⟩⟩

end CleanArchitecture
