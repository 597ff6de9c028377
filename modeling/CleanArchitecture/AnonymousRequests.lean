import CleanArchitecture.ProgramHistory
import CleanArchitecture.SessionAuthenticity
import CleanArchitecture.SessionFrame

/-!
# Requests without a session cookie

A request without a session id is given the one that its random words spell, and is then
looked up like any other.  It stays anonymous if and only if the store has no session of
that id: unlike a new session, it is not drawn again when the id is taken.
-/

namespace CleanArchitecture

open Program Backend WrapperRequest WrapperResponse

/-! ## Programs that send one Redis command -/

/-- A Redis command that is called has these arguments. -/
def Command.SendsOnly (args : List Bytes) (command : Command) : Prop :=
  ∀ context sent, command = .redisCommand context sent → sent = args

theorem sendsOnly_of_offStore {α : Type} {post : α → Prop} {program : Backend α}
    (args : List Bytes) (offStore : OffStore post program) :
    Within (Command.SendsOnly args) post program := by
  apply offStore.mono
  · rintro command other context sent rfl
    exact absurd trivial other
  · exact fun _ holds => holds

theorem sendsOnly_command (args : List Bytes) :
    Within (Command.SendsOnly args) (fun _ => True) (RedisStore.command args) := by
  apply (sendsOnly_of_offStore args offStore_getContext).bind
  intro ctx _
  have sent : Within (Command.SendsOnly args) (fun _ => True) (redisCommand ctx args) := by
    apply within_perform
    rintro context sent same
    cases same
    rfl
  apply sent.bind
  intro reply _
  apply (sendsOnly_of_offStore args (offStore_releaseContext ctx)).bind
  intro _ _
  exact (sendsOnly_of_offStore args (offStore_dereference reply)).mono (fun _ call => call)
    fun _ _ => trivial

theorem sendsOnly_exists (key : Bytes) :
    Within (Command.SendsOnly [ascii "EXISTS", cStr key]) (fun _ => True) (IStore.exists key) := by
  apply (sendsOnly_command [ascii "EXISTS", cStr key]).bind
  intro reply _
  split
  · apply (sendsOnly_of_offStore _ (offStore_call id)).bind
    intro _ _
    exact within_pure trivial
  · exact within_pure trivial

/-! ## Anonymous requests -/

section Requests

variable {σ : Type} (h : BackendHandler σ) (view : σ → StoreMap) (app : Application) (rounds : Nat)

/-- The endpoint answers the request 401, changes nothing in the store and asks it only
whether keys exist that do not. -/
def RefusesAnonymously (endpoint : Endpoint) (ex : Exchange) (s : σ) : Prop :=
  (∃ ex' s', run h (endpoint.handle app rounds ex) s = some (ex', s') ∧
    ex'.res.status = statusUnauthorized ∧ view s' = view s) ∧
  ∀ event ∈ history h (endpoint.handle app rounds ex) s, ∀ context args,
    event.1 = .redisCommand context args →
      ∃ key, args = [ascii "EXISTS", key] ∧ view s key = none

/-- The request is not authenticated, however often it is asked while the store stays as
it is, and neither endpoint of a session lets it in. -/
structure StaysAnonymous (ex : Exchange) (s : σ) : Prop where
  isAuth : ∃ ex' s', run h (isAuthImpl ex) s = some ((false, ex'), s') ∧
    ∀ t, view t = view s → ∃ t', run h (isAuthImpl ex') t = some ((false, ex'), t')
  user : RefusesAnonymously h view app rounds .user ex s
  logout : RefusesAnonymously h view app rounds .logout ex s

end Requests

section Draws

variable {σ : Type} {h : BackendHandler σ} {view : σ → StoreMap} (healthy : HealthyStore h view)
  {ex : Exchange} (anonymous : ex.req.sessionId = []) {buffer : Fin sessionIdLength → UInt64}
  {s s₁ : σ} (drawn : h .getrandom s = some (buffer, s₁))

include anonymous drawn

theorem run_getSessionKey_of_draw :
    run h (getSessionKey ex) s =
        some ((sessionPrefix ++ spellId buffer, ex.withSession (spellId buffer)), s₁) ∧
      history h (getSessionKey ex) s = [⟨.getrandom, buffer⟩] := by
  have words := (run_getrandom s).trans drawn
  rw [getSessionKey, getSessionIdImpl, if_neg (not_not.mpr anonymous), bind_assoc]
  constructor
  · exact run_bind_of_run words
  · rw [history_bind_of_run words, getrandom, history_perform_of_answer drawn]
    rfl

include healthy

theorem HealthyStore.run_isAuthImpl_of_draw :
    (∃ s', run h (isAuthImpl ex) s =
        some (((view s (storeKey (spellId buffer))).isSome, ex.withSession (spellId buffer)), s') ∧
      view s' = view s) ∧
    ∀ event ∈ history h (isAuthImpl ex) s, ∀ context args,
      event.1 = .redisCommand context args →
        args = [ascii "EXISTS", storeKey (spellId buffer)] := by
  obtain ⟨keyed, called⟩ := run_getSessionKey_of_draw anonymous drawn
  have same := healthy.view_of_getrandom drawn
  obtain ⟨s', present, same'⟩ := healthy.run_exists (sessionPrefix ++ spellId buffer) s₁
  rw [same] at present
  constructor
  · refine ⟨s', ?_, same'.trans same⟩
    rw [isAuthImpl, run_bind_of_run keyed]
    exact run_bind_of_run present
  · intro event member context args command
    rw [isAuthImpl, history_bind_of_run keyed, called] at member
    simp only at member
    rw [history_bind_of_run present, history_pure, List.append_nil] at member
    rcases List.mem_cons.mp member with rfl | asked
    · cases command
    · exact (sendsOnly_exists _).of_history s₁ event asked context args command

theorem HealthyStore.refusesAnonymously {app : Application} {rounds : Nat} {endpoint : Endpoint}
    (free : view s (storeKey (spellId buffer)) = none) {next : Bool × Exchange → Backend Exchange}
    (checks : endpoint.handle app rounds ex = isAuthImpl ex >>= next)
    (refuses : next (false, ex.withSession (spellId buffer)) =
      pure (setStatus statusUnauthorized (ex.withSession (spellId buffer)))) :
    RefusesAnonymously h view app rounds endpoint ex s := by
  obtain ⟨⟨s', tested, same⟩, asked⟩ := healthy.run_isAuthImpl_of_draw anonymous drawn
  have refused : run h (isAuthImpl ex) s =
      some ((false, ex.withSession (spellId buffer)), s') := by
    rw [tested, free]
    rfl
  rw [RefusesAnonymously, checks]
  constructor
  · refine ⟨setStatus statusUnauthorized (ex.withSession (spellId buffer)), s', ?_, rfl, same⟩
    rw [run_bind_of_run refused]
    exact congrArg (run h · s') refuses
  · intro event member context args command
    rw [history_bind_of_run refused, refuses, history_pure, List.append_nil] at member
    exact ⟨_, asked event member context args command, free⟩

/-- A request without a session cookie stays anonymous if and only if the store has no
session of the id that it draws. -/
theorem HealthyStore.stays_anonymous_iff (app : Application) (rounds : Nat) :
    StaysAnonymous h view app rounds ex s ↔ view s (storeKey (spellId buffer)) = none := by
  obtain ⟨⟨s', tested, same⟩, -⟩ := healthy.run_isAuthImpl_of_draw anonymous drawn
  constructor
  · intro stays
    obtain ⟨ex', last, ran, -⟩ := stays.isAuth
    rw [tested] at ran
    cases free : view s (storeKey (spellId buffer)) with
    | none => rfl
    | some data =>
        rw [free] at ran
        cases ran
  · intro free
    constructor
    · refine ⟨ex.withSession (spellId buffer), s', by rw [tested, free]; rfl, ?_⟩
      intro t unchanged
      have renewed : (ex.withSession (spellId buffer)).req.sessionId ≠ [] := spellId_ne_nil buffer
      obtain ⟨t', again, -⟩ := healthy.run_isAuthImpl renewed t
      have absent : view t (storeKey (ex.withSession (spellId buffer)).req.sessionId) = none := by
        rw [unchanged]
        exact free
      rw [absent] at again
      exact ⟨t', again⟩
    · exact healthy.refusesAnonymously anonymous drawn free rfl rfl
    · exact healthy.refusesAnonymously anonymous drawn free rfl rfl

end Draws

/-- Nothing is stored, so the id that is drawn is free. -/
theorem stranger_stays_anonymous :
    StaysAnonymous (World.handler sampleEnvironment) World.store sampleApplication 1 {}
      (sampleWorld []) :=
  ((World.healthy sampleEnvironment).stays_anonymous_iff rfl rfl sampleApplication 1).mpr rfl

/-- A store with the session of the first id that is drawn. -/
def takenWorld : World :=
  { sampleWorld [] with
    store := fun key =>
      if key = sessionPrefix ++ spellId fun _ => 0 then
        some (sampleLibraries.createUser sampleRow.id sampleRow.username)
      else none }

/-- A request without a cookie is answered with the user of that session. -/
theorem stranger_authenticated : ∃ ex' w',
    run (World.handler sampleEnvironment) (Endpoint.user.handle sampleApplication 1 {})
        takenWorld = some (ex', w') ∧
      ex'.res.status = statusOk ∧
      answeredId sampleLibraries ex'.res.content = some sampleRow.id := by
  have shown : (run (World.handler sampleEnvironment) (Endpoint.user.handle sampleApplication 1 {})
      takenWorld).map (fun (ex', _) =>
        (ex'.res.status, answeredId sampleLibraries ex'.res.content)) =
      some (statusOk, some sampleRow.id) := by
    decide +kernel
  obtain ⟨⟨ex', w'⟩, ran, seen⟩ := Option.map_eq_some_iff.mp shown
  exact ⟨ex', w', ran, (Prod.mk.inj seen).1, (Prod.mk.inj seen).2⟩

end CleanArchitecture
