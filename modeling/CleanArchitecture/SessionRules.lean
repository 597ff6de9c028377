import CleanArchitecture.Session

/-!
# The session functions over a store that is a map

Over a healthy store each session function has one rule: which session the
request has afterwards, what it returns and what becomes of the map.
-/

namespace CleanArchitecture

open Program

/-! ## Session ids -/

theorem spellId_ne_nil (buffer : Fin sessionIdLength → UInt64) : spellId buffer ≠ [] := by
  intro empty
  have length := congrArg List.length empty
  rw [spellId, List.length_ofFn] at length
  cases length

theorem zero_notMem_alphabet : 0 ∉ alphabet := by
  decide +kernel

/-- Every byte of a spelt id is a letter of the alphabet. -/
theorem spellId_subset (buffer : Fin sessionIdLength → UInt64) : spellId buffer ⊆ alphabet := by
  intro letter member
  obtain ⟨i, rfl⟩ := List.mem_ofFn.mp member
  have inside : (buffer i).toNat % alphabetLen < alphabet.length :=
    Nat.mod_lt _ (by decide)
  rw [List.getD_eq_getElem?_getD, List.getElem?_eq_getElem inside, Option.getD_some]
  exact List.getElem_mem inside

theorem zero_notMem_spellId (buffer : Fin sessionIdLength → UInt64) : 0 ∉ spellId buffer :=
  fun nul => zero_notMem_alphabet (spellId_subset buffer nul)

/-- The key under which the store finds a session. -/
def storeKey (sid : Bytes) : Bytes :=
  cStr (sessionPrefix ++ sid)

theorem storeKey_eq {sid : Bytes} (noNul : 0 ∉ sid) : storeKey sid = sessionPrefix ++ sid := by
  apply cStr_eq_self
  rw [List.mem_append, not_or]
  exact ⟨by decide, noNul⟩

theorem storeKey_inj {sid other : Bytes} (noNul : 0 ∉ sid) (otherNoNul : 0 ∉ other) :
    storeKey sid = storeKey other ↔ sid = other := by
  rw [storeKey_eq noNul, storeKey_eq otherNoNul, List.append_cancel_left_eq]

/-- A change under the key of one session id is not seen under that of another. -/
theorem update_storeKey_of_ne {sid other : Bytes} (noNul : 0 ∉ sid) (otherNoNul : 0 ∉ other)
    (apart : other ≠ sid) (store : StoreMap) (value : Option Bytes) :
    Function.update store (storeKey other) value (storeKey sid) = store (storeKey sid) := by
  apply Function.update_of_ne
  intro keys
  exact apart ((storeKey_inj noNul otherNoNul).mp keys).symm

/-- The exchange with another session id in its request. -/
def Exchange.withSession (ex : Exchange) (sid : Bytes) : Exchange :=
  { ex with req := { ex.req with sessionId := sid } }

/-- A session id that a request can have once its key was asked for: its own, or a
drawn one if it has none. -/
def Exchange.HasSession (ex : Exchange) (sid : Bytes) : Prop :=
  sid ≠ [] ∧ (sid = ex.req.sessionId ∨ ex.req.sessionId = [] ∧ 0 ∉ sid)

theorem Exchange.HasSession.noNul {ex : Exchange} {sid : Bytes} (session : ex.HasSession sid)
    (noNul : 0 ∉ ex.req.sessionId) : 0 ∉ sid := by
  rcases session.2 with rfl | ⟨-, drawn⟩
  · exact noNul
  · exact drawn

namespace WrapperRequest

/-- A request with a session id keeps it. -/
theorem getSessionKey_of_session {ex : Exchange} (session : ex.req.sessionId ≠ []) :
    getSessionKey ex = pure (sessionPrefix ++ ex.req.sessionId, ex) := by
  rw [getSessionKey, getSessionIdImpl, if_pos session]
  rfl

end WrapperRequest

/-! ## Rules -/

namespace HealthyStore

open Backend WrapperRequest

variable {σ : Type} {h : BackendHandler σ} {view : σ → StoreMap} (healthy : HealthyStore h view)

include healthy

theorem view_of_getrandom {s s' : σ} {buffer : Fin sessionIdLength → UInt64}
    (drawn : h .getrandom s = some (buffer, s')) : view s' = view s :=
  healthy.frame .getrandom s buffer s' id drawn

theorem run_exists (key : Bytes) (s : σ) :
    ∃ s', run h (IStore.exists key) s = some ((view s (cStr key)).isSome, s') ∧ view s' = view s :=
  healthy.run_existsImpl (cStr key) s

theorem of_getSessionKey {ex ex' : Exchange} {key : Bytes} {s s' : σ}
    (ran : run h (getSessionKey ex) s = some ((key, ex'), s')) :
    ∃ sid, ex.HasSession sid ∧ key = sessionPrefix ++ sid ∧ ex' = ex.withSession sid ∧
      view s' = view s := by
  by_cases session : ex.req.sessionId ≠ []
  · rw [getSessionKey_of_session session, run_pure] at ran
    cases ran
    exact ⟨ex.req.sessionId, ⟨session, .inl rfl⟩, rfl, rfl, rfl⟩
  · rw [getSessionKey, getSessionIdImpl, if_neg session] at ran
    obtain ⟨⟨sid, drawnFor⟩, s₁, obtained, spelt⟩ := run_bind_eq_some.mp ran
    obtain ⟨buffer, s₂, drawn, stored⟩ := run_bind_eq_some.mp obtained
    cases stored
    cases spelt
    rw [run_getrandom] at drawn
    exact ⟨spellId buffer,
      ⟨spellId_ne_nil buffer, .inr ⟨not_not.mp session, zero_notMem_spellId buffer⟩⟩, rfl, rfl,
      healthy.view_of_getrandom drawn⟩

theorem of_isAuthImpl {ex ex' : Exchange} {auth : Bool} {s s' : σ}
    (ran : run h (isAuthImpl ex) s = some ((auth, ex'), s')) :
    ∃ sid, ex.HasSession sid ∧ auth = (view s (storeKey sid)).isSome ∧ ex' = ex.withSession sid ∧
      view s' = view s := by
  obtain ⟨⟨key, keyed⟩, s₁, asked, tested⟩ := run_bind_eq_some.mp ran
  obtain ⟨sid, session, rfl, rfl, same⟩ := healthy.of_getSessionKey asked
  obtain ⟨s₂, present, same₂⟩ := healthy.run_exists (sessionPrefix ++ sid) s₁
  rw [run_bind_of_run present] at tested
  cases tested
  exact ⟨sid, session, by rw [same, storeKey], rfl, same₂.trans same⟩

theorem run_isAuthImpl {ex : Exchange} (session : ex.req.sessionId ≠ []) (s : σ) :
    ∃ s', run h (isAuthImpl ex) s =
        some (((view s (storeKey ex.req.sessionId)).isSome, ex), s') ∧ view s' = view s := by
  obtain ⟨s', present, same⟩ := healthy.run_exists (sessionPrefix ++ ex.req.sessionId) s
  refine ⟨s', ?_, same⟩
  rw [isAuthImpl, getSessionKey_of_session session]
  exact run_bind_of_run present

/-- A new id had no key when the loop ended. -/
theorem of_getNewSessionIdImpl {rounds : Nat} {ex ex' : Exchange} {sid : Bytes} {s s' : σ}
    (ran : run h (getNewSessionIdImpl rounds ex) s = some ((sid, ex'), s')) :
    sid ≠ [] ∧ 0 ∉ sid ∧ view s (storeKey sid) = none ∧ ex' = ex.withSession sid ∧
      view s' = view s := by
  induction rounds generalizing ex s with
  | zero =>
      rw [getNewSessionIdImpl, run_outOfRounds] at ran
      cases ran
  | succ rounds ih =>
      obtain ⟨buffer, s₁, drawn, continued⟩ := run_bind_eq_some.mp ran
      rw [run_getrandom] at drawn
      have same₁ := healthy.view_of_getrandom drawn
      rw [getSessionKey_of_session (spellId_ne_nil buffer)] at continued
      obtain ⟨s₂, present, same₂⟩ := healthy.run_exists (sessionPrefix ++ spellId buffer) s₁
      have tested := (run_bind_of_run present).symm.trans continued
      rw [same₁] at tested same₂
      split at tested
      · obtain ⟨nonempty, noNul, absent, rfl, same₃⟩ := ih tested
        rw [same₂] at absent same₃
        exact ⟨nonempty, noNul, absent, rfl, same₃⟩
      · rename_i taken
        cases tested
        exact ⟨spellId_ne_nil buffer, zero_notMem_spellId buffer,
          Option.not_isSome_iff_eq_none.mp taken, rfl, same₂⟩

/-- The user is stored under a session id that had no key, and a cookie carries
the id. -/
theorem of_setSessionUserImpl {libraries : Libraries} {rounds : Nat} {user : User}
    {ex ex' : Exchange} {log : Option Log} {s s' : σ}
    (ran : run h (setSessionUserImpl libraries rounds user ex) s = some ((log, ex'), s')) :
    ∃ sid, sid ≠ [] ∧ 0 ∉ sid ∧ view s (storeKey sid) = none ∧
      ex' = pushCookie (ex.withSession sid) (sessionCookie sid 3600) ∧
      view s' = Function.update (view s) (storeKey sid)
        (some (libraries.createUser user.id user.username)) := by
  obtain ⟨⟨sid, renewed⟩, s₁, drawn, rest⟩ := run_bind_eq_some.mp ran
  obtain ⟨nonempty, noNul, absent, rfl, same₁⟩ := healthy.of_getNewSessionIdImpl drawn
  have keyed : getSessionKey (ex.withSession sid) =
      pure (sessionPrefix ++ sid, ex.withSession sid) :=
    getSessionKey_of_session nonempty
  simp only [keyed] at rest
  obtain ⟨s₂, written, stored⟩ := healthy.run_setByteArrayImpl (cStr (sessionPrefix ++ sid))
    (libraries.createUser user.id user.username) s₁
  have finished := (run_bind_of_run written).symm.trans rest
  cases finished
  rw [same₁] at stored
  exact ⟨sid, nonempty, noNul, absent, rfl, stored⟩

theorem run_getSessionUserImpl {libraries : Libraries} {ex : Exchange} {user : User} {data : Bytes}
    {s : σ} (session : ex.req.sessionId ≠ [])
    (found : view s (storeKey ex.req.sessionId) = some data)
    (verified : libraries.userVerify data = true) (id : libraries.userId data = some user.id)
    (username : libraries.userUsername data = some user.username) :
    ∃ s', run h (getSessionUserImpl libraries ex) s =
        some ((some { id := cStr user.id, username := cStr user.username }, ex), s') ∧
      view s' = view s := by
  obtain ⟨s', read, same⟩ := healthy.run_getByteArrayImpl
    (cStr (sessionPrefix ++ ex.req.sessionId)) s
  rw [← storeKey, found] at read
  refine ⟨s', ?_, same⟩
  rw [getSessionUserImpl, getSessionKey_of_session session]
  apply (run_bind_of_run read).trans
  simp only [verified, if_true, id, username]
  rfl

theorem view_of_getSessionUserImpl {libraries : Libraries} {ex ex' : Exchange}
    {user : Option User} {s s' : σ}
    (ran : run h (getSessionUserImpl libraries ex) s = some ((user, ex'), s')) :
    view s' = view s := by
  obtain ⟨⟨key, keyed⟩, s₁, asked, rest⟩ := run_bind_eq_some.mp ran
  obtain ⟨sid, -, rfl, rfl, same₁⟩ := healthy.of_getSessionKey asked
  obtain ⟨s₂, read, same₂⟩ := healthy.run_getByteArrayImpl (cStr (sessionPrefix ++ sid)) s₁
  have decoded := (run_bind_of_run read).symm.trans rest
  have unchanged : s' = s₂ := by
    split at decoded
    · split at decoded
      · obtain ⟨id, s₃, readId, named⟩ := run_bind_eq_some.mp decoded
        obtain ⟨username, s₄, readUsername, built⟩ := run_bind_eq_some.mp named
        rw [run_pure, Option.some.injEq, Prod.mk.injEq] at built
        rw [← built.2, (run_dereference_eq_some.mp readUsername).2,
          (run_dereference_eq_some.mp readId).2]
      · cases decoded
        rfl
    · cases decoded
      rfl
  rw [unchanged, same₂, same₁]

/-- The key is deleted, and a cookie ends the session if it was there. -/
theorem run_clearSessionUserImpl (ex : Exchange) (session : ex.req.sessionId ≠ []) (s : σ) :
    ∃ s', run h (clearSessionUserImpl ex) s =
        some
          (if (view s (storeKey ex.req.sessionId)).isSome then
            (true, pushCookie ex (sessionCookie [] 0))
          else (false, ex), s') ∧
      view s' = Function.update (view s) (storeKey ex.req.sessionId) none := by
  obtain ⟨s', deleted, after⟩ := healthy.run_delImpl (cStr (sessionPrefix ++ ex.req.sessionId)) s
  refine ⟨s', ?_, after⟩
  rw [clearSessionUserImpl, getSessionKey_of_session session]
  apply (run_bind_of_run deleted).trans
  rw [storeKey]
  split <;> rfl

end HealthyStore

end CleanArchitecture
