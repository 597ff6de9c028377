import CleanArchitecture.DatabaseFrame
import CleanArchitecture.SessionRules

/-!
# What the use cases do to an exchange

Whatever the environment answers, a use case changes nothing of its request but
the session id, and adds no cookies to the response but those of a session.
-/

namespace CleanArchitecture

open Program Backend

/-- The calls of the session functions, with the verbs of the Redis commands. -/
def Command.IsSessionCall (verbs : List Bytes) : Command → Prop
  | .acquire pool => pool = .redis
  | .popFront pool => pool = .redis
  | .pushBack pool _ => pool = .redis
  | .release pool => pool = .redis
  | .redisCommand _ args => ∃ verb ∈ verbs, args.head? = some verb
  | .freeReplyObject _ => True
  | .getrandom => True
  | .nullDereference => True
  | .outOfRounds => True
  | _ => False

/-- A program of session calls alone, with a postcondition. -/
abbrev OnSession {α : Type} (verbs : List Bytes) (post : α → Prop) (program : Backend α) : Prop :=
  Within (Command.IsSessionCall verbs) post program

theorem OnSession.widen {α : Type} {verbs wider : List Bytes} {post : α → Prop}
    {program : Backend α} (onSession : OnSession verbs post program) (subset : verbs ⊆ wider) :
    OnSession wider post program := by
  refine Within.mono onSession ?_ fun _ holds => holds
  intro command call
  cases command with
  | redisCommand context args =>
      obtain ⟨verb, member, first⟩ := call
      exact ⟨verb, subset member, first⟩
  | _ => exact call

theorem onSession_call {verbs : List Bytes} {command : Command}
    (call : command.IsSessionCall verbs) : OnSession verbs (fun _ => True) (perform command) :=
  within_perform call

theorem onSession_dereference {α : Type} {verbs : List Bytes} (pointer : Option α) :
    OnSession verbs (fun value => pointer = some value) (dereference pointer) := by
  refine (within_dereference pointer).mono ?_ fun _ found => found
  rintro command rfl
  trivial

/-! ## Store operations -/

namespace RedisStore

variable (verb : Bytes)

theorem onSession_command (rest : List Bytes) :
    OnSession [verb] (fun _ => True) (command (verb :: rest)) := by
  have taken : OnSession [verb] (fun _ => True) getContext :=
    (onSession_call (by trivial)).bind fun _ _ => onSession_call (by trivial)
  have sent : ∀ ctx, OnSession [verb] (fun _ => True) (redisCommand ctx (verb :: rest)) := fun ctx =>
    onSession_call ⟨verb, List.mem_singleton_self verb, rfl⟩
  have released : ∀ ctx, OnSession [verb] (fun _ => True) (releaseContext ctx) := fun ctx =>
    (onSession_call (by trivial)).bind fun _ _ => onSession_call (by trivial)
  refine taken.bind fun ctx _ => (sent ctx).bind fun reply _ => ?_
  apply (released ctx).bind
  intro _ _
  exact (onSession_dereference reply).mono (fun _ call => call) fun _ _ => trivial

theorem onSession_countPositive (key : Bytes) :
    OnSession [verb] (fun _ => True) (countPositive verb key) := by
  apply (onSession_command verb [key]).bind
  intro reply _
  split
  · exact (onSession_call (by trivial)).bind fun _ _ => within_pure trivial
  · exact within_pure trivial

theorem onSession_getValue {α : Type} (convert : Bytes → Except Log α) (function key : Bytes) :
    OnSession [ascii "GET"] (fun _ => True) (getValue convert function key) := by
  apply (onSession_command (ascii "GET") [key]).bind
  intro reply _
  apply (onSession_call (by trivial)).bind
  intro _ _
  split
  · exact within_pure trivial
  · split
    · exact within_pure trivial
    · exact within_pure trivial

theorem onSession_setValue (key value : Bytes) :
    OnSession [ascii "SET"] (fun _ => True) (setValue key value) := by
  apply (onSession_command (ascii "SET") [key, value]).bind
  intro reply _
  exact (onSession_call (by trivial)).bind fun _ _ => within_pure trivial

end RedisStore

/-! ## Exchanges -/

/-- An id that the random source can spell. -/
def Spelt (sid : Bytes) : Prop :=
  ∃ words, sid = spellId words

theorem Spelt.ne_nil {sid : Bytes} (spelt : Spelt sid) : sid ≠ [] := by
  obtain ⟨words, rfl⟩ := spelt
  exact spellId_ne_nil words

theorem Spelt.zero_notMem {sid : Bytes} (spelt : Spelt sid) : 0 ∉ sid := by
  obtain ⟨words, rfl⟩ := spelt
  exact zero_notMem_spellId words

/-- The exchange with its own session id or one that was spelt. -/
def Exchange.Renews (ex ex' : Exchange) : Prop :=
  ∃ sid, (sid = ex.req.sessionId ∨ Spelt sid) ∧ ex' = ex.withSession sid

theorem Exchange.Renews.refl (ex : Exchange) : ex.Renews ex :=
  ⟨ex.req.sessionId, .inl rfl, rfl⟩

theorem Exchange.Renews.res {ex ex' : Exchange} (renews : ex.Renews ex') : ex'.res = ex.res := by
  obtain ⟨sid, -, rfl⟩ := renews
  rfl

/-- An exchange and a later state of it. -/
structure Exchange.Evolves (ex ex' : Exchange) : Prop where
  request : ∃ sid, (sid = ex.req.sessionId ∨ Spelt sid) ∧
    ex'.req = { ex.req with sessionId := sid }
  cookies : ∀ cookie ∈ ex'.res.cookies, cookie ∈ ex.res.cookies ∨
    ∃ sid age, (sid = [] ∨ Spelt sid) ∧ cookie = WrapperRequest.sessionCookie sid age

namespace Exchange.Evolves

theorem refl (ex : Exchange) : ex.Evolves ex :=
  ⟨⟨ex.req.sessionId, .inl rfl, rfl⟩, fun _ member => .inl member⟩

theorem trans {ex ex' ex'' : Exchange} (first : ex.Evolves ex') (second : ex'.Evolves ex'') :
    ex.Evolves ex'' := by
  obtain ⟨sid, origin, req⟩ := first.request
  obtain ⟨sid', origin', req'⟩ := second.request
  rw [req] at origin' req'
  refine ⟨⟨sid', ?_, req'⟩, ?_⟩
  · rcases origin' with rfl | spelt
    · exact origin
    · exact .inr spelt
  · intro cookie member
    rcases second.cookies cookie member with earlier | session
    · exact first.cookies cookie earlier
    · exact .inr session

/-- The response may change, but for its cookies. -/
theorem of_response {ex ex' : Exchange} (req : ex'.req = ex.req)
    (cookies : ex'.res.cookies = ex.res.cookies) : ex.Evolves ex' :=
  ⟨⟨ex.req.sessionId, .inl rfl, req⟩, fun _ member => .inl (cookies ▸ member)⟩

theorem of_renews {ex ex' : Exchange} (renews : ex.Renews ex') : ex.Evolves ex' := by
  obtain ⟨sid, origin, rfl⟩ := renews
  exact ⟨⟨sid, origin, rfl⟩, fun _ member => .inl member⟩

theorem pushCookie {ex : Exchange} {sid : Bytes} (age : Int) (origin : sid = [] ∨ Spelt sid) :
    ex.Evolves (WrapperRequest.pushCookie ex (WrapperRequest.sessionCookie sid age)) := by
  refine ⟨⟨ex.req.sessionId, .inl rfl, rfl⟩, ?_⟩
  intro cookie member
  rcases List.mem_append.mp member with old | new
  · exact .inl old
  · exact .inr ⟨sid, age, origin, List.mem_singleton.mp new⟩

end Exchange.Evolves

/-! ## Session functions -/

namespace WrapperRequest

theorem onSession_getSessionKey {verbs : List Bytes} (ex : Exchange) :
    OnSession verbs
      (fun keyed => keyed.1 = sessionPrefix ++ keyed.2.req.sessionId ∧ ex.Renews keyed.2)
      (getSessionKey ex) := by
  by_cases session : ex.req.sessionId ≠ []
  · rw [getSessionKey_of_session session]
    exact within_pure ⟨rfl, .refl ex⟩
  · rw [getSessionKey, getSessionIdImpl, if_neg session]
    have drawn : OnSession verbs
        (fun spelt => spelt.1 = spelt.2.req.sessionId ∧ ex.Renews spelt.2)
        (do
          let buffer ← getrandom
          return (spellId buffer, ex.withSession (spellId buffer))) := by
      refine (onSession_call (by trivial)).bind fun buffer _ => within_pure ⟨rfl, ?_⟩
      exact ⟨spellId buffer, .inr ⟨buffer, rfl⟩, rfl⟩
    refine drawn.bind fun spelt outcome => within_pure ⟨?_, outcome.2⟩
    exact congrArg (sessionPrefix ++ ·) outcome.1

theorem onSession_isAuthImpl (ex : Exchange) :
    OnSession [ascii "EXISTS"] (fun tested => ex.Renews tested.2) (isAuthImpl ex) := by
  apply (onSession_getSessionKey ex).bind
  intro keyed outcome
  exact (RedisStore.onSession_countPositive _ _).bind fun _ _ => within_pure outcome.2

theorem onSession_getNewSessionIdImpl (rounds : Nat) (ex : Exchange) :
    OnSession [ascii "EXISTS"] (fun drawn => Spelt drawn.1 ∧ drawn.2 = ex.withSession drawn.1)
      (getNewSessionIdImpl rounds ex) := by
  induction rounds generalizing ex with
  | zero => exact ⟨trivial, fun response => response.elim⟩
  | succ rounds ih =>
      have drawn : OnSession [ascii "EXISTS"] (fun _ => True) getrandom :=
        onSession_call (by trivial)
      apply drawn.bind
      intro buffer _
      rw [getSessionKey_of_session (spellId_ne_nil buffer)]
      apply (RedisStore.onSession_countPositive _ _).bind
      intro taken _
      split
      · exact (ih _).mono (fun _ call => call) fun _ renewed => renewed
      · exact within_pure ⟨⟨buffer, rfl⟩, rfl⟩

theorem onSession_setSessionUserImpl (libraries : Libraries) (rounds : Nat) (user : User)
    (ex : Exchange) :
    OnSession [ascii "EXISTS", ascii "SET"]
      (fun set => ∃ sid, Spelt sid ∧
        set.2 = pushCookie (ex.withSession sid) (sessionCookie sid 3600))
      (setSessionUserImpl libraries rounds user ex) := by
  refine ((onSession_getNewSessionIdImpl rounds ex).widen (by simp)).bind
    fun (sid, renewed) outcome => ?_
  have spelt : Spelt sid := outcome.1
  obtain rfl : renewed = ex.withSession sid := outcome.2
  have nonempty : (ex.withSession sid).req.sessionId ≠ [] := spelt.ne_nil
  simp only [getSessionKey_of_session nonempty]
  refine ((RedisStore.onSession_setValue _ _).widen (by simp)).bind fun _ _ => within_pure ?_
  exact ⟨sid, spelt, rfl⟩

theorem onSession_getSessionUserImpl (libraries : Libraries) (ex : Exchange) :
    OnSession [ascii "GET"] (fun got => ex.Renews got.2) (getSessionUserImpl libraries ex) := by
  apply (onSession_getSessionKey ex).bind
  intro keyed outcome
  apply (RedisStore.onSession_getValue _ _ _).bind
  intro data _
  split
  · split
    · apply (onSession_dereference _).bind
      intro id _
      exact (onSession_dereference _).bind fun username _ => within_pure outcome.2
    · exact within_pure outcome.2
  · exact within_pure outcome.2

theorem onSession_clearSessionUserImpl (ex : Exchange) :
    OnSession [ascii "DEL"]
      (fun cleared => ∃ renewed, ex.Renews renewed ∧
        cleared.2 = if cleared.1 then pushCookie renewed (sessionCookie [] 0) else renewed)
      (clearSessionUserImpl ex) := by
  apply (onSession_getSessionKey ex).bind
  rintro ⟨key, renewed⟩ outcome
  apply (RedisStore.onSession_countPositive _ _).bind
  intro deleted _
  cases deleted with
  | true => exact within_pure ⟨renewed, outcome.2, rfl⟩
  | false => exact within_pure ⟨renewed, outcome.2, rfl⟩

end WrapperRequest

/-! ## Use cases -/

/-- Whatever a program calls, its result satisfies the postcondition. -/
abbrev Returns {α : Type} (post : α → Prop) (program : Backend α) : Prop :=
  Within (fun _ => True) post program

theorem OnSession.returns {α : Type} {verbs : List Bytes} {post : α → Prop} {program : Backend α}
    (onSession : OnSession verbs post program) : Returns post program :=
  Within.mono onSession (fun _ _ => trivial) fun _ holds => holds

theorem OffStore.returns {α : Type} {post : α → Prop} {program : Backend α}
    (offStore : OffStore post program) : Returns post program :=
  Within.mono offStore (fun _ _ => trivial) fun _ holds => holds

open WrapperRequest WrapperResponse

namespace Exchange.Evolves

variable {ex ex' : Exchange}

theorem setStatus (evolves : ex.Evolves ex') (status : Int) :
    ex.Evolves (WrapperResponse.setStatus status ex') :=
  evolves.trans (of_response rfl rfl)

theorem setBody (evolves : ex.Evolves ex') (body : Bytes) :
    ex.Evolves (WrapperResponse.setBody body ex') :=
  evolves.trans (of_response rfl rfl)

theorem setContentType (evolves : ex.Evolves ex') (type : ContentTypeEnum) :
    ex.Evolves (WrapperResponse.setContentType type ex') :=
  evolves.trans (of_response rfl rfl)

end Exchange.Evolves

/-- A login that ends before its session only has a status. -/
theorem LoginAuthUseCase.returns_authenticate (app : Application) (ex : Exchange) :
    Returns (fun found => ∃ keyed, ex.Renews keyed ∧
        match found.1 with
        | some _ => found.2 = keyed
        | none => ∃ status, status ≠ statusNoContent ∧ found.2 = setStatus status keyed)
      (LoginAuthUseCase.authenticate app ex) := by
  have unauthorized : statusUnauthorized ≠ statusNoContent := by decide
  apply (onSession_isAuthImpl ex).returns.bind
  rintro ⟨auth, keyed⟩ renews
  cases auth with
  | true => exact within_pure ⟨keyed, renews, statusForbidden, by decide, rfl⟩
  | false =>
      apply (LoginAuthUseCase.offStore_parseBody _ _).returns.bind
      intro body _
      cases body with
      | error log => exact within_pure ⟨keyed, renews, _, unauthorized, rfl⟩
      | ok body =>
          simp only
          split
          · exact within_pure ⟨keyed, renews, _, unauthorized, rfl⟩
          · apply (LoginAuthUseCase.offStore_checkUser _ _).returns.bind
            intro user _
            cases user with
            | none => exact within_pure ⟨keyed, renews, _, unauthorized, rfl⟩
            | some user => exact within_pure ⟨keyed, renews, rfl⟩

theorem LoginAuthUseCase.returns_execute (app : Application) (rounds : Nat) (ex : Exchange) :
    Returns ex.Evolves (LoginAuthUseCase.execute app rounds ex) := by
  apply (LoginAuthUseCase.returns_authenticate app ex).bind
  rintro ⟨found, authenticated⟩ outcome
  obtain ⟨keyed, renews, found_eq⟩ := outcome
  have evolves := Exchange.Evolves.of_renews renews
  cases found with
  | none =>
      obtain ⟨status, -, rfl⟩ := found_eq
      exact within_pure (evolves.setStatus _)
  | some user =>
      obtain rfl : authenticated = keyed := found_eq
      apply (onSession_setSessionUserImpl _ _ _ _).returns.bind
      rintro ⟨log, opened⟩ opens
      obtain ⟨sid, spelt, rfl⟩ := opens
      have renewed : authenticated.Evolves (authenticated.withSession sid) :=
        .of_renews ⟨sid, .inr spelt, rfl⟩
      exact within_pure (((evolves.trans renewed).trans (.pushCookie _ (.inr spelt))).setStatus _)

theorem LogoutAuthUseCase.returns_execute (app : Application) (ex : Exchange) :
    Returns ex.Evolves (LogoutAuthUseCase.execute app ex) := by
  apply (onSession_isAuthImpl ex).returns.bind
  rintro ⟨auth, keyed⟩ renews
  have evolves := Exchange.Evolves.of_renews renews
  cases auth with
  | false => exact within_pure (evolves.setStatus _)
  | true =>
      apply (onSession_clearSessionUserImpl _).returns.bind
      rintro ⟨logout, cleared⟩ clears
      obtain ⟨renewed, renews, ended⟩ := clears
      have again := evolves.trans (.of_renews renews)
      cases logout with
      | true =>
          rw [show cleared = _ from ended]
          exact within_pure ((again.trans (.pushCookie _ (.inl rfl))).setStatus _)
      | false =>
          rw [show cleared = _ from ended]
          apply (onSession_getSessionUserImpl _ _).returns.bind
          rintro ⟨user, read⟩ reads
          exact within_pure ((again.trans (.of_renews reads)).setStatus _)

theorem UserAuthUseCase.returns_execute (app : Application) (ex : Exchange) :
    Returns ex.Evolves (UserAuthUseCase.execute app ex) := by
  apply (onSession_isAuthImpl ex).returns.bind
  rintro ⟨auth, keyed⟩ renews
  have evolves := Exchange.Evolves.of_renews renews
  cases auth with
  | false => exact within_pure (evolves.setStatus _)
  | true =>
      apply (onSession_getSessionUserImpl _ _).returns.bind
      rintro ⟨user, read⟩ reads
      have again := evolves.trans (.of_renews reads)
      cases user with
      | none => exact within_pure (again.setStatus _)
      | some user =>
          simp only
          split
          · exact ⟨trivial, fun response => response.elim⟩
          · exact within_pure (((again.setBody _).setContentType _).setStatus _)

theorem RegisterAuthUseCase.returns_addUser (app : Application) (body : AuthBody) (ex : Exchange) :
    Returns ex.Evolves (RegisterAuthUseCase.addUser app body ex) := by
  have answered : ∀ status text, ex.Evolves (setStatus status (setBody text ex)) :=
    fun status text => ((Exchange.Evolves.refl ex).setBody text).setStatus status
  unfold RegisterAuthUseCase.addUser
  split
  · exact within_pure (answered _ _)
  · split
    · exact within_pure (answered _ _)
    · apply (User.offStore_hashPassword _ _ _).returns.bind
      rintro ⟨log, user⟩ _
      split
      · exact within_pure (answered _ _)
      · apply (app.userDb.offStore_addUserImpl _).returns.bind
        intro id _
        split
        · split
          · exact within_pure (answered _ _)
          · exact within_pure (answered _ _)
        · exact within_pure (answered _ _)

theorem RegisterAuthUseCase.returns_execute (app : Application) (ex : Exchange) :
    Returns ex.Evolves (RegisterAuthUseCase.execute app ex) := by
  apply (onSession_isAuthImpl ex).returns.bind
  rintro ⟨auth, keyed⟩ renews
  have evolves := Exchange.Evolves.of_renews renews
  cases auth with
  | true => exact within_pure (evolves.setStatus _)
  | false =>
      simp only [Bool.false_eq_true, if_false]
      split
      · exact within_pure ((evolves.setBody _).setStatus _)
      · split
        · exact within_pure ((evolves.setBody _).setStatus _)
        · exact (RegisterAuthUseCase.returns_addUser app _ keyed).mono (fun _ _ => trivial)
            fun _ added => evolves.trans added

/-- Every endpoint only renews the session id of its request and adds session
cookies to its response. -/
theorem Endpoint.returns_handle (app : Application) (rounds : Nat) (endpoint : Endpoint)
    (ex : Exchange) : Returns ex.Evolves (endpoint.handle app rounds ex) := by
  cases endpoint with
  | user => exact UserAuthUseCase.returns_execute app ex
  | login => exact LoginAuthUseCase.returns_execute app rounds ex
  | logout => exact LogoutAuthUseCase.returns_execute app ex
  | register => exact RegisterAuthUseCase.returns_execute app ex

end CleanArchitecture
