import CleanArchitecture.SessionAuthenticity

/-!
# Which requests are let through

All four endpoints ask first whether the request's session is in the store.  Over a
healthy store that is a question about the answers given before: was the session id
issued by a login, and not ended by a logout since.
-/

namespace CleanArchitecture

open Program Backend WrapperRequest WrapperResponse

/-- An answer is the one that the earlier answers determine for a session id: the user
endpoint names the user who is logged in, a logout needs a session, and a login or a
registration needs there to be none. -/
structure Determined (libraries : Libraries) (earlier : List Answer) (sid : Bytes)
    (answer : Answer) : Prop where
  user : answer.endpoint = .user →
    (∀ id, (answer.exchange.res.status = statusOk ∧
        answeredId libraries answer.exchange.res.content = some id) ↔
      ∃ user, LoggedIn earlier sid user ∧ user.id = id) ∧
    (answer.exchange.res.status = statusUnauthorized ↔ ∀ user, ¬ LoggedIn earlier sid user)
  logout : answer.endpoint = .logout →
    (answer.exchange.res.status = statusNoContent ↔ ∃ user, LoggedIn earlier sid user) ∧
    (answer.exchange.res.status = statusUnauthorized ↔ ∀ user, ¬ LoggedIn earlier sid user)
  guarded : answer.endpoint = .login ∨ answer.endpoint = .register →
    (answer.exchange.res.status = statusForbidden ↔ ∃ user, LoggedIn earlier sid user)

/-! ## Statuses past the gate -/

/-- Whatever the environment answers, the response is not 403. -/
def Passes (program : Backend Exchange) : Prop :=
  Within (fun _ => True) (fun ex => ex.res.status ≠ statusForbidden) program

theorem within_anything {α : Type} (program : Backend α) :
    Within (fun _ => True) (fun _ => True) program := by
  induction program with
  | done value => exact trivial
  | call command next ih => exact ⟨trivial, ih⟩

theorem Passes.of_run {σ : Type} {h : BackendHandler σ} {program : Backend Exchange}
    {s s' : σ} {ex : Exchange} (passes : Passes program)
    (ran : run h program s = some (ex, s')) : ex.res.status ≠ statusForbidden :=
  passes.holds_of_run ran

/-- Whatever the environment answers, a login without a user is not answered 403. -/
def Rejects (program : Backend (Option User × Exchange)) : Prop :=
  Within (fun _ => True) (fun found => found.1 = none → found.2.res.status ≠ statusForbidden)
    program

theorem Rejects.of_run {σ : Type} {h : BackendHandler σ}
    {program : Backend (Option User × Exchange)} {s s' : σ} {ex : Exchange}
    (rejects : Rejects program) (ran : run h program s = some ((none, ex), s')) :
    ex.res.status ≠ statusForbidden :=
  rejects.holds_of_run ran rfl

theorem passes_setStatus {status : Int} (other : status ≠ statusForbidden) (ex : Exchange) :
    Passes (pure (setStatus status ex)) :=
  within_pure other

theorem passes_bind {α : Type} (program : Backend α) {next : α → Backend Exchange}
    (rest : ∀ value, Passes (next value)) : Passes (program >>= next) :=
  (within_anything program).bind fun value _ => rest value

theorem passes_addUser (app : Application) (body : AuthBody) (ex : Exchange) :
    Passes (RegisterAuthUseCase.addUser app body ex) := by
  have badRequest : statusBadRequest ≠ statusForbidden := by decide
  have created : statusCreated ≠ statusForbidden := by decide
  unfold RegisterAuthUseCase.addUser
  split
  · exact passes_setStatus badRequest _
  · split
    · exact passes_setStatus badRequest _
    · apply passes_bind
      intro hashed
      split
      · exact passes_setStatus badRequest _
      · apply passes_bind
        intro added
        split
        · split <;> exact passes_setStatus badRequest _
        · exact passes_setStatus created _

/-- A session id has a key exactly if somebody is logged in under it. -/
theorem StoreAgrees.isSome_iff {libraries : Libraries} {answers : List Answer} {store : StoreMap}
    (agrees : StoreAgrees libraries answers store) {sid : Bytes} (noNul : 0 ∉ sid) :
    (store (storeKey sid)).isSome = true ↔ ∃ user, LoggedIn answers sid user := by
  rw [(agrees sid noNul).1, Option.isSome_map, Option.isSome_iff_exists]
  exact exists_congr fun user => activeUser_eq_some_iff

namespace HealthyStore

variable {σ : Type} {h : BackendHandler σ} {view : σ → StoreMap} (healthy : HealthyStore h view)
  {app : Application} {rounds : Nat}

include healthy

/-- A registration is refused with 403 exactly if its session has a key. -/
theorem forbidden_register {ex ex' : Exchange} {s s' : σ}
    (ran : run h (RegisterAuthUseCase.execute app ex) s = some (ex', s')) :
    ∃ sid, ex.HasSession sid ∧
      (ex'.res.status = statusForbidden ↔ (view s (storeKey sid)).isSome = true) := by
  obtain ⟨⟨auth, keyed⟩, s₁, tested, rest⟩ := run_bind_eq_some.mp ran
  obtain ⟨sid, session, present, rfl, -⟩ := healthy.of_isAuthImpl tested
  refine ⟨sid, session, ?_⟩
  rw [← present]
  cases auth with
  | true =>
      cases rest
      exact iff_of_true rfl rfl
  | false =>
      have badRequest : statusBadRequest ≠ statusForbidden := by decide
      refine iff_of_false ?_ Bool.false_ne_true
      apply Passes.of_run _ rest
      dsimp only
      rw [if_neg Bool.false_ne_true]
      split
      · exact passes_setStatus badRequest _
      · split
        · exact passes_setStatus badRequest _
        · exact passes_addUser app _ _

/-- A login is refused with 403 exactly if its session has a key. -/
theorem forbidden_login {ex ex' : Exchange} {s s' : σ}
    (ran : run h (LoginAuthUseCase.execute app rounds ex) s = some (ex', s')) :
    ∃ sid, ex.HasSession sid ∧
      (ex'.res.status = statusForbidden ↔ (view s (storeKey sid)).isSome = true) := by
  obtain ⟨⟨found, authenticated⟩, s₂, checked, finished⟩ := run_bind_eq_some.mp ran
  obtain ⟨⟨auth, keyed⟩, s₁, tested, rest⟩ := run_bind_eq_some.mp checked
  obtain ⟨sid, session, present, rfl, -⟩ := healthy.of_isAuthImpl tested
  refine ⟨sid, session, ?_⟩
  rw [← present]
  cases auth with
  | true =>
      cases rest
      cases finished
      exact iff_of_true rfl rfl
  | false =>
      have unauthorized : statusUnauthorized ≠ statusForbidden := by decide
      have noContent : statusNoContent ≠ statusForbidden := by decide
      refine iff_of_false ?_ Bool.false_ne_true
      cases found with
      | none =>
          cases finished
          apply Rejects.of_run _ rest
          dsimp only
          rw [if_neg Bool.false_ne_true]
          apply (within_anything _).bind
          intro body _
          split
          · exact within_pure fun _ => unauthorized
          · split
            · exact within_pure fun _ => unauthorized
            · apply (within_anything _).bind
              intro user _
              split
              · exact within_pure fun _ => unauthorized
              · exact within_pure fun nobody => absurd nobody (Option.some_ne_none _)
      | some user =>
          obtain ⟨set, s₃, -, ended⟩ := run_bind_eq_some.mp finished
          cases ended
          exact noContent

/-- A logout is answered 204 if its session has a key, and 401 if it has none. -/
theorem status_logout {ex ex' : Exchange} {s s' : σ}
    (ran : run h (LogoutAuthUseCase.execute app ex) s = some (ex', s')) :
    ∃ sid, ex.HasSession sid ∧
      ex'.res.status = if (view s (storeKey sid)).isSome then statusNoContent
        else statusUnauthorized := by
  obtain ⟨⟨auth, keyed⟩, s₁, tested, rest⟩ := run_bind_eq_some.mp ran
  obtain ⟨sid, session, present, rfl, same₁⟩ := healthy.of_isAuthImpl tested
  refine ⟨sid, session, ?_⟩
  rw [← present]
  cases auth with
  | false =>
      cases rest
      rfl
  | true =>
      obtain ⟨s₂, cleared, -⟩ :=
        healthy.run_clearSessionUserImpl (ex.withSession sid) session.1 s₁
      have found : (view s₁ (storeKey (ex.withSession sid).req.sessionId)).isSome = true := by
        rw [same₁]
        exact present.symm
      rw [if_pos found] at cleared
      have finished := (run_bind_of_run cleared).symm.trans rest
      cases finished
      rfl

/-- The user endpoint answers 401 without a key, and otherwise 200 with the user that the
store holds. -/
theorem status_user (lawful : LawfulLibraries app.libraries) {ex ex' : Exchange} {s s' : σ}
    (ran : run h (UserAuthUseCase.execute app ex) s = some (ex', s')) :
    ∃ sid, ex.HasSession sid ∧
      (view s (storeKey sid) = none → ex'.res.status = statusUnauthorized) ∧
      ∀ user : User, view s (storeKey sid) =
          some (app.libraries.createUser user.id user.username) →
        0 ∉ user.id → ValidUtf8 user.id → ValidUtf8 user.username →
          ex'.res.status = statusOk ∧ answeredId app.libraries ex'.res.content = some user.id := by
  obtain ⟨⟨auth, keyed⟩, s₁, tested, rest⟩ := run_bind_eq_some.mp ran
  obtain ⟨sid, session, present, rfl, same₁⟩ := healthy.of_isAuthImpl tested
  refine ⟨sid, session, ?_, ?_⟩
  · intro absent
    rw [absent] at present
    obtain rfl : auth = false := present
    cases rest
    rfl
  · intro user held noNul id username
    rw [held] at present
    obtain rfl : auth = true := present
    have found : view s₁ (storeKey (ex.withSession sid).req.sessionId) =
        some (app.libraries.createUser user.id user.username) :=
      (congrFun same₁ _).trans held
    obtain ⟨s₂, got, -⟩ := healthy.run_getSessionUserImpl session.1 found
      (lawful.user_verify _ _) (lawful.user_id _ _) (lawful.user_username _ _)
    rw [cStr_eq_self noNul] at got
    obtain ⟨body, dumped, parsed⟩ := lawful.json_user user.id (cStr user.username) id
      (validUtf8_cStr username)
    have finished := (run_bind_of_run got).symm.trans rest
    simp only [dumped] at finished
    cases finished
    refine ⟨rfl, ?_⟩
    change answeredId app.libraries body = some user.id
    rw [answeredId, parsed]
    rfl

/-! ## Answers to a run of requests -/

/-- An answer is determined by those that the store agrees with. -/
theorem determined (lawful : LawfulLibraries app.libraries) {s s' : σ} {earlier : List Answer}
    {answer : Answer} {request : Endpoint × Exchange}
    (agrees : StoreAgrees app.libraries earlier (view s))
    (noNul : 0 ∉ request.2.req.sessionId)
    (utf8 : ∀ sid user, LoggedIn earlier sid user →
      ValidUtf8 user.id ∧ ValidUtf8 user.username)
    (stepped : (service h app rounds).step s request = .ok (s', answer)) :
    ∃ sid, request.2.HasSession sid ∧ Determined app.libraries earlier sid answer := by
  obtain ⟨ex', ran, rfl⟩ := run_of_service_step h app rounds stepped
  obtain ⟨endpoint, ex⟩ := request
  cases endpoint with
  | user =>
      obtain ⟨sid, session, absent, present⟩ := healthy.status_user lawful ran
      refine ⟨sid, session, fun _ => ?_, by rintro ⟨⟩, by rintro (⟨⟨⟩⟩ | ⟨⟨⟩⟩)⟩
      obtain ⟨held, noNulId⟩ := agrees sid (session.noNul noNul)
      dsimp only
      cases active : activeUser sid earlier with
      | none =>
          have nobody : ∀ user, ¬ LoggedIn earlier sid user := by
            intro user loggedIn
            rw [activeUser_eq_some_iff.mpr loggedIn] at active
            cases active
          rw [active] at held
          have status := absent held
          constructor
          · intro id
            apply iff_of_false
            · rintro ⟨ok, -⟩
              rw [status] at ok
              exact absurd ok (by decide)
            · rintro ⟨user, loggedIn, -⟩
              exact nobody user loggedIn
          · exact iff_of_true status nobody
      | some user =>
          have loggedIn := activeUser_eq_some_iff.mp active
          rw [active] at held
          obtain ⟨id, username⟩ := utf8 sid user loggedIn
          obtain ⟨status, content⟩ := present user held (noNulId user active) id username
          constructor
          · intro id
            rw [content]
            constructor
            · rintro ⟨-, same⟩
              exact ⟨user, loggedIn, Option.some.inj same⟩
            · rintro ⟨other, otherLoggedIn, rfl⟩
              have same := activeUser_eq_some_iff.mpr otherLoggedIn
              rw [active, Option.some.injEq] at same
              exact ⟨status, congrArg _ (congrArg _ same)⟩
          · refine iff_of_false ?_ fun nobody => nobody user loggedIn
            rw [status]
            decide
  | logout =>
      obtain ⟨sid, session, status⟩ := healthy.status_logout ran
      refine ⟨sid, session, by rintro ⟨⟩, fun _ => ?_, by rintro (⟨⟨⟩⟩ | ⟨⟨⟩⟩)⟩
      have active := agrees.isSome_iff (session.noNul noNul)
      have apart : statusNoContent ≠ statusUnauthorized := by decide
      dsimp only
      rw [status, ← active, ← not_exists, ← active]
      split
      · rename_i found
        exact ⟨iff_of_true rfl found, iff_of_false apart (not_not.mpr found)⟩
      · rename_i absent
        exact ⟨iff_of_false apart.symm absent, iff_of_true rfl absent⟩
  | login =>
      obtain ⟨sid, session, forbidden⟩ := healthy.forbidden_login ran
      refine ⟨sid, session, by rintro ⟨⟩, by rintro ⟨⟩, fun _ => ?_⟩
      exact forbidden.trans (agrees.isSome_iff (session.noNul noNul))
  | register =>
      obtain ⟨sid, session, forbidden⟩ := healthy.forbidden_register ran
      refine ⟨sid, session, by rintro ⟨⟩, by rintro ⟨⟩, fun _ => ?_⟩
      exact forbidden.trans (agrees.isSome_iff (session.noNul noNul))

/-- Access control.  In every run of requests from a store without sessions each answer is
determined by the answers before it and the session of its request: the user endpoint
names the user who is logged in or answers 401, a logout succeeds for a session that is
logged in and no other, and a login or a registration is refused with 403 for one. -/
theorem access_control (lawful : LawfulLibraries app.libraries) {start last : σ}
    (noSessions : ∀ sid, view start (sessionPrefix ++ sid) = none)
    {first rest : List (Endpoint × Exchange)} {request : Endpoint × Exchange}
    {answers : List Answer}
    (noNul : ∀ request' ∈ first ++ request :: rest, 0 ∉ request'.2.req.sessionId)
    (ran : (service h app rounds).run start (first ++ request :: rest) = .ok (last, answers))
    (utf8 : ∀ answer ∈ answers, ∀ sid user, answer.event = some (.login sid user) →
      ValidUtf8 user.id ∧ ValidUtf8 user.username) :
    ∃ earlier answer later, answers = earlier ++ answer :: later ∧
      earlier.length = first.length ∧
      ∃ sid, request.2.HasSession sid ∧ Determined app.libraries earlier sid answer := by
  obtain ⟨s, earlier, continued, begun, ended, rfl⟩ := EventMachine.run_append_ok.mp ran
  obtain ⟨s', answer, later, stepped, -, rfl⟩ := EventMachine.run_cons_ok.mp ended
  refine ⟨earlier, answer, later, rfl, EventMachine.length_of_run begun, ?_⟩
  rw [List.forall_mem_append, List.forall_mem_cons] at noNul
  have agrees := healthy.storeAgrees_of_run noSessions noNul.1 begun
  refine healthy.determined lawful agrees noNul.2.1 ?_ stepped
  rintro sid user ⟨before, login, after, rfl, issued, -⟩
  exact utf8 login (by simp) sid user issued

end HealthyStore

end CleanArchitecture
