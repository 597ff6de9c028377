import CleanArchitecture.ProgramHistory
import CleanArchitecture.SessionAuthenticity
import CleanArchitecture.SessionFrame

/-!
# Session writes that fail

The result of the write of a session is dropped.  Over a store whose commands may fail,
a login has the session that it is answered with, or reports an error, if and only if no
write fails.
-/

namespace CleanArchitecture

open Program Backend WrapperRequest WrapperResponse

/-! ## Stores whose commands may fail -/

/-- A null pointer or an error. -/
def FailedReply (reply : Option RedisReply) : Prop :=
  ∀ r, reply = some r → r.type = .error

/-- Every store command succeeds and acts on the map that a view of the state shows, or
fails, with or without an effect; no other call touches it. -/
structure FallibleStore {σ : Type} (h : BackendHandler σ) (view : σ → StoreMap) : Prop where
  answers : ∀ context args s reply s', h (.redisCommand context args) s = some (reply, s') →
    (∃ handle, reply = some { redisReply args (view s) with handle := handle } ∧
      view s' = redisMap args (view s)) ∨
    FailedReply reply
  frame : ∀ command s response s', ¬ command.IsRedisCommand →
    h command s = some (response, s') → view s' = view s

theorem HealthyStore.fallible {σ : Type} {h : BackendHandler σ} {view : σ → StoreMap}
    (healthy : HealthyStore h view) : FallibleStore h view where
  answers context args s reply s' answered := by
    obtain ⟨handle, s₁, succeeded, after⟩ := healthy.answers context args s
    rw [succeeded] at answered
    cases answered
    exact .inl ⟨handle, rfl, after⟩
  frame := healthy.frame

/-- A `SET` that fails. -/
def WriteFails (event : CallEvent Command.Response) : Prop :=
  match event with
  | ⟨.redisCommand _ args, reply⟩ =>
      (∃ key value, args = [ascii "SET", key, value]) ∧ FailedReply reply
  | _ => False

namespace FallibleStore

variable {σ : Type} {h : BackendHandler σ} {view : σ → StoreMap} (fallible : FallibleStore h view)

include fallible

theorem view_of_offStore {α : Type} {post : α → Prop} {program : Backend α}
    (offStore : OffStore post program) {s s' : σ} {result : α}
    (ran : run h program s = some (result, s')) : view s' = view s :=
  (offStore.of_run view fallible.frame ran).1

/-- A command that returns was sent once, and its reply was no null pointer. -/
theorem of_command {args : List Bytes} {reply : RedisReply} {s s' : σ}
    (ran : run h (RedisStore.command args) s = some (reply, s')) :
    ∃ ctx before after, h (.redisCommand ctx args) before = some (some reply, after) ∧
      view before = view s ∧ view s' = view after ∧
      (⟨.redisCommand ctx args, some reply⟩ : CallEvent Command.Response) ∈
        history h (RedisStore.command args) s := by
  obtain ⟨ctx, before, got, rest⟩ := run_bind_eq_some.mp ran
  obtain ⟨answer, after, sent, rest⟩ := run_bind_eq_some.mp rest
  obtain ⟨_, last, released, read⟩ := run_bind_eq_some.mp rest
  obtain ⟨rfl, rfl⟩ := run_dereference_eq_some.mp read
  have taken := fallible.view_of_offStore offStore_getContext got
  have returned := fallible.view_of_offStore (offStore_releaseContext ctx) released
  rw [run_redisCommand] at sent
  refine ⟨ctx, before, after, sent, taken, returned, ?_⟩
  apply mem_history_bind_right got
  apply mem_history_bind_left ((run_redisCommand _ _ _).trans sent)
  rw [redisCommand, history_perform_of_answer sent]
  exact List.mem_singleton_self _

/-- A write that does not fail is seen in the map. -/
theorem of_setValue {key value : Bytes} {written : Bool} {s s' : σ}
    (ran : run h (RedisStore.setValue key value) s = some (written, s'))
    (kept : ∀ event ∈ history h (RedisStore.setValue key value) s, ¬ WriteFails event) :
    view s' = Function.update (view s) key (some value) := by
  obtain ⟨reply, s₁, commanded, rest⟩ := run_bind_eq_some.mp ran
  obtain ⟨_, s₂, freed, finished⟩ := run_bind_eq_some.mp rest
  cases finished
  obtain ⟨ctx, before, after, sent, same, returned, called⟩ := fallible.of_command commanded
  have unchanged := fallible.view_of_offStore (offStore_call id) freed
  rw [unchanged, returned]
  rcases fallible.answers _ _ _ _ _ sent with ⟨handle, -, stored⟩ | failed
  · rw [stored, redisMap_set, same]
  · have member : (⟨.redisCommand ctx [ascii "SET", key, value], some reply⟩ :
        CallEvent Command.Response) ∈ history h (RedisStore.setValue key value) s :=
      mem_history_bind_left commanded called
    exact absurd ⟨⟨key, value, rfl⟩, failed⟩ (kept _ member)

/-- The cookie of a session whose write did not fail is that of a stored user. -/
theorem of_setSessionUserImpl {libraries : Libraries} {rounds : Nat} {user : User}
    {ex ex' : Exchange} {log : Option Log} {s s' : σ}
    (ran : run h (setSessionUserImpl libraries rounds user ex) s = some ((log, ex'), s'))
    (kept : ∀ event ∈ history h (setSessionUserImpl libraries rounds user ex) s,
      ¬ WriteFails event) :
    ∃ sid, ex' = pushCookie (ex.withSession sid) (sessionCookie sid 3600) ∧
      view s' (sessionPrefix ++ sid) = some (libraries.createUser user.id user.username) := by
  obtain ⟨⟨sid, renewed⟩, s₁, drawn, rest⟩ := run_bind_eq_some.mp ran
  obtain ⟨spelt, renews⟩ := (onSession_getNewSessionIdImpl rounds ex).holds_of_run drawn
  simp only at spelt renews
  subst renews
  have nonempty : (ex.withSession sid).req.sessionId ≠ [] := spelt.ne_nil
  simp only [getSessionKey_of_session nonempty, pure_bind] at rest
  obtain ⟨written, s₂, wrote, finished⟩ := run_bind_eq_some.mp rest
  cases finished
  refine ⟨sid, rfl, ?_⟩
  have stored := fallible.of_setValue wrote (by
    intro event member
    apply kept event
    apply mem_history_bind_right drawn
    simp only [getSessionKey_of_session nonempty, pure_bind]
    exact mem_history_bind_left wrote member)
  rw [stored, ← storeKey_eq spelt.zero_notMem]
  exact Function.update_self ..

end FallibleStore

/-! ## Logins whose sessions are written -/

section Login

variable {σ : Type} (h : BackendHandler σ) (view : σ → StoreMap) (app : Application) (rounds : Nat)

/-- With a 204 and a new session cookie, the store holds the user that logged in under
the id of the cookie; and if a write fails, an error is reported, no cookie is set and the
login is not answered 204. -/
structure HasSessionOrReports (ex : Exchange) (s : σ) : Prop where
  stored : ∀ ex' s', run h (LoginAuthUseCase.execute app rounds ex) s = some (ex', s') →
    ex'.res.status = statusNoContent → ∀ cookie ∈ ex'.res.cookies, cookie ∉ ex.res.cookies →
      cookie.name = sessionName ∧ ∃ user ex₁ s₁,
        run h (LoginAuthUseCase.authenticate app ex) s = some ((some user, ex₁), s₁) ∧
        view s' (sessionPrefix ++ cookie.value) =
          some (app.libraries.createUser user.id user.username)
  reported : (∃ event ∈ history h (LoginAuthUseCase.execute app rounds ex) s, WriteFails event) →
    (∃ user ex₁ s₁ log ex₂ s₂,
      run h (LoginAuthUseCase.authenticate app ex) s = some ((some user, ex₁), s₁) ∧
      run h (setSessionUserImpl app.libraries rounds user ex₁) s₁ =
        some ((some log, ex₂), s₂) ∧
      ex₂.res.cookies = ex.res.cookies) ∧
    ∀ ex' s', run h (LoginAuthUseCase.execute app rounds ex) s = some (ex', s') →
      ex'.res.status ≠ statusNoContent

end Login

/-- No error is ever reported. -/
theorem returns_none_setSessionUserImpl (libraries : Libraries) (rounds : Nat) (user : User)
    (ex : Exchange) :
    Returns (fun set => set.1 = none) (setSessionUserImpl libraries rounds user ex) := by
  apply (onSession_getNewSessionIdImpl rounds ex).returns.bind
  rintro ⟨sid, renewed⟩ _
  apply (@onSession_getSessionKey [] renewed).returns.bind
  rintro ⟨key, keyed⟩ _
  apply (RedisStore.onSession_setValue _ _).returns.bind
  intro _ _
  exact within_pure rfl

/-- A login has its session or reports an error if and only if no write fails. -/
theorem FallibleStore.has_session_or_reports_iff {σ : Type} {h : BackendHandler σ}
    {view : σ → StoreMap} (fallible : FallibleStore h view) (app : Application) (rounds : Nat)
    (ex : Exchange) (s : σ) :
    HasSessionOrReports h view app rounds ex s ↔
      ∀ event ∈ history h (LoginAuthUseCase.execute app rounds ex) s, ¬ WriteFails event := by
  constructor
  · intro law event member failed
    obtain ⟨⟨user, ex₁, s₁, log, ex₂, s₂, -, set, -⟩, -⟩ := law.reported ⟨event, member, failed⟩
    have silent := (returns_none_setSessionUserImpl app.libraries rounds user ex₁).holds_of_run set
    cases silent
  · intro kept
    constructor
    · intro ex' s' ran answered cookie member fresh
      obtain ⟨⟨found, ex₁⟩, s₁, authenticated, rest⟩ := run_bind_eq_some.mp ran
      obtain ⟨keyed, renews, found_eq⟩ :=
        (LoginAuthUseCase.returns_authenticate app ex).holds_of_run authenticated
      cases found with
      | none =>
          obtain ⟨status, rejected, rfl⟩ := found_eq
          cases rest
          exact absurd answered rejected
      | some user =>
          obtain rfl : ex₁ = keyed := found_eq
          obtain ⟨⟨log, opened⟩, s₂, set, finished⟩ := run_bind_eq_some.mp rest
          cases finished
          have written : ∀ event ∈ history h (setSessionUserImpl app.libraries rounds user ex₁) s₁,
              ¬ WriteFails event := by
            intro event among
            apply kept event
            apply mem_history_bind_right authenticated
            exact mem_history_bind_left set among
          obtain ⟨sid, rfl, held⟩ := fallible.of_setSessionUserImpl set written
          rcases List.mem_append.mp member with old | new
          · have unchanged : ex₁.res.cookies = ex.res.cookies := by
              rw [renews.res]
            exact absurd (unchanged ▸ old) fresh
          · rw [List.mem_singleton.mp new]
            exact ⟨rfl, user, ex₁, s₁, authenticated, held⟩
    · rintro ⟨event, member, failed⟩
      exact absurd failed (kept event member)

/-! ## A store that takes writes, and one that does not -/

/-- A healthy store takes every write. -/
theorem HealthyStore.not_writeFails {σ α : Type} {h : BackendHandler σ} {view : σ → StoreMap}
    (healthy : HealthyStore h view) (program : Backend α) (s : σ) :
    ∀ event ∈ history h program s, ¬ WriteFails event := by
  rintro ⟨command, response⟩ member failed
  obtain ⟨before, after, answered⟩ := answered_of_history program s _ member
  cases command with
  | redisCommand context args =>
      obtain ⟨⟨key, value, rfl⟩, failedReply⟩ := failed
      obtain ⟨handle, s', succeeded, -⟩ :=
        healthy.answers context [ascii "SET", key, value] before
      simp only at answered
      rw [succeeded] at answered
      cases answered
      cases failedReply _ rfl
  | _ => exact failed

def sampleLogin : Exchange :=
  sampleExchange (ascii "username") (ascii "password")

theorem sampleLogin_has_session :
    HasSessionOrReports (World.handler sampleEnvironment) World.store sampleApplication 1
      sampleLogin (sampleWorld [sampleRow]) :=
  ((World.healthy sampleEnvironment).fallible.has_session_or_reports_iff sampleApplication 1
    sampleLogin (sampleWorld [sampleRow])).mpr
    ((World.healthy sampleEnvironment).not_writeFails _ _)

/-- The world with a Redis server that takes no writes. -/
def readOnlyHandler : BackendHandler World
  | .redisCommand context args, w =>
      if args.head? = some (ascii "SET") then
        some (some { type := .error, str := ascii "READONLY" }, w)
      else World.handler sampleEnvironment (.redisCommand context args) w
  | command, w => World.handler sampleEnvironment command w

theorem fallible_readOnlyHandler : FallibleStore readOnlyHandler World.store where
  answers context args w reply w' answered := by
    simp only [readOnlyHandler] at answered
    split at answered
    · cases answered
      right
      intro r same
      cases same
      rfl
    · exact (World.healthy sampleEnvironment).fallible.answers context args w reply w' answered
  frame command w response w' other answered := by
    cases command with
    | redisCommand => exact absurd trivial other
    | _ => exact World.store_of_handler sampleEnvironment other answered

/-- The login is answered 204 with the cookie of a session that the store does not hold. -/
theorem sampleLogin_without_session : FallibleStore readOnlyHandler World.store ∧ ∃ ex' w',
    run readOnlyHandler (LoginAuthUseCase.execute sampleApplication 1 sampleLogin)
        (sampleWorld [sampleRow]) = some (ex', w') ∧
      ex'.res.status = statusNoContent ∧
      ex'.res.cookies = [sessionCookie (spellId fun _ => 1) 3600] ∧
      w'.store (sessionPrefix ++ spellId fun _ => 1) = none := by
  have shown : (run readOnlyHandler (LoginAuthUseCase.execute sampleApplication 1 sampleLogin)
      (sampleWorld [sampleRow])).map (fun (ex', w') => (ex'.res.status, ex'.res.cookies,
        w'.store (sessionPrefix ++ spellId fun _ => 1))) =
      some (statusNoContent, [sessionCookie (spellId fun _ => 1) 3600], none) := by
    decide +kernel
  obtain ⟨⟨ex', w'⟩, ran, seen⟩ := Option.map_eq_some_iff.mp shown
  obtain ⟨status, rest⟩ := Prod.mk.inj seen
  obtain ⟨cookies, absent⟩ := Prod.mk.inj rest
  exact ⟨fallible_readOnlyHandler, ex', w', ran, status, cookies, absent⟩

end CleanArchitecture
