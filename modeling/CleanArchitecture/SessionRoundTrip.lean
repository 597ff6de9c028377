import CleanArchitecture.SessionAuthenticity
import CleanArchitecture.SessionFrame

/-!
# The user of a session, written and read

A user is stored with its strings whole and read back up to their first NUL.  Usernames
may have one, so a user comes back from its session if and only if its username has none.
-/

namespace CleanArchitecture

open Program WrapperRequest

/-! ## Trimmed usernames -/

theorem mem_dropWhile_of_not {c : UInt8} {p : UInt8 → Bool} (kept : ¬ p c = true) {s : Bytes}
    (member : c ∈ s) : c ∈ s.dropWhile p := by
  rw [← List.takeWhile_append_dropWhile (p := p) (l := s), List.mem_append] at member
  exact member.resolve_left fun taken => kept (List.mem_takeWhile_imp taken)

/-- Trimming takes no NUL away. -/
theorem zero_mem_trim {s : Bytes} : 0 ∈ trim s ↔ 0 ∈ s := by
  have kept : ¬ isspace 0 = true := by decide
  constructor
  · intro member
    rw [trim, rtrim, List.mem_reverse] at member
    exact (List.dropWhile_suffix _).subset
      (List.mem_reverse.mp ((List.dropWhile_suffix _).subset member))
  · intro member
    rw [trim, rtrim, List.mem_reverse]
    exact mem_dropWhile_of_not kept (List.mem_reverse.mpr (mem_dropWhile_of_not kept member))

/-! ## Round trips -/

/-- Flatbuffers verify and decode the users they encode. -/
structure DecodesUsers (libraries : Libraries) : Prop where
  verifies : ∀ id username, libraries.userVerify (libraries.createUser id username) = true
  id : ∀ id username, libraries.userId (libraries.createUser id username) = some id
  username : ∀ id username,
    libraries.userUsername (libraries.createUser id username) = some username

section

variable {σ : Type} (h : BackendHandler σ) (view : σ → StoreMap) (libraries : Libraries)
  (user : User)

/-- The user of the request's session has the same id and the same username. -/
def GetsUser (ex : Exchange) (s : σ) : Prop :=
  ∃ found ex' s', run h (getSessionUserImpl libraries ex) s = some ((some found, ex'), s') ∧
    found.id = user.id ∧ found.username = user.username

/-- The user is read back on the request on which it was set, and on every later one with
the value of its cookie while the store holds what it held then. -/
structure RoundTrips (ex : Exchange) (s : σ) : Prop where
  same : GetsUser h libraries user ex s
  later : ∀ cookie, ex.res.cookies.getLast? = some cookie → ∀ later t,
    later.req.sessionId = cookie.value →
      view t (sessionPrefix ++ cookie.value) = view s (sessionPrefix ++ cookie.value) →
        GetsUser h libraries user later t

end

variable {σ : Type} {h : BackendHandler σ} {view : σ → StoreMap} (healthy : HealthyStore h view)
  {libraries : Libraries} (decodes : DecodesUsers libraries)

include healthy decodes

/-- A stored user is read up to the first NULs of its strings. -/
theorem HealthyStore.getsUser_iff (user : User) (ex : Exchange) {s : σ}
    (session : ex.req.sessionId ≠ [])
    (found : view s (storeKey ex.req.sessionId) =
      some (libraries.createUser user.id user.username)) :
    GetsUser h libraries user ex s ↔ 0 ∉ user.id ∧ 0 ∉ user.username := by
  obtain ⟨s', ran, -⟩ := healthy.run_getSessionUserImpl session found (decodes.verifies _ _)
    (decodes.id _ _) (decodes.username _ _)
  constructor
  · rintro ⟨read, ex', last, got, id, username⟩
    rw [ran] at got
    cases got
    rw [← id, ← username]
    exact ⟨zero_notMem_cStr _, zero_notMem_cStr _⟩
  · rintro ⟨id, username⟩
    exact ⟨_, _, s', ran, cStr_eq_self id, cStr_eq_self username⟩

/-- A user that `make_user` accepts, with an id without NUL, comes back from its session
if and only if the username has no NUL. -/
theorem HealthyStore.round_trips_iff {function : String} {base user : User}
    {username trimmed : Bytes}
    (made : makeUserWith function base username = (.ok user, trimmed)) (noNul : 0 ∉ base.id)
    {rounds : Nat} {ex ex' : Exchange} {log : Option Log} {s s' : σ}
    (ran : run h (setSessionUserImpl libraries rounds user ex) s = some ((log, ex'), s')) :
    RoundTrips h view libraries user ex' s' ↔ 0 ∉ username := by
  obtain ⟨-, rfl, -⟩ := makeUserWith_ok.mp made
  obtain ⟨sid, -, sidNoNul, -, rfl, stored⟩ := healthy.of_setSessionUserImpl ran
  obtain ⟨other, ⟨words, rfl⟩, renewed⟩ :=
    (onSession_setSessionUserImpl libraries rounds { base with username := trim username }
      ex).holds_of_run ran
  obtain rfl : sid = spellId words := congrArg (fun ex : Exchange => ex.req.sessionId) renewed
  have nonempty := spellId_ne_nil words
  have held : view s' (storeKey (spellId words)) =
      some (libraries.createUser base.id (trim username)) := by
    rw [stored]
    exact Function.update_self ..
  have sameIff := healthy.getsUser_iff decodes { base with username := trim username }
    (pushCookie (ex.withSession (spellId words)) (sessionCookie (spellId words) 3600)) nonempty held
  rw [← not_iff_not.mpr zero_mem_trim]
  constructor
  · intro trips
    exact (sameIff.mp trips.same).2
  · intro clean
    constructor
    · exact sameIff.mpr ⟨noNul, clean⟩
    · intro cookie last later t session kept
      obtain rfl : sessionCookie (spellId words) 3600 = cookie := by
        simpa [pushCookie] using last
      have value : later.req.sessionId = spellId words := session
      have heldLater : view t (storeKey later.req.sessionId) =
          some (libraries.createUser base.id (trim username)) := by
        rw [value, storeKey_eq sidNoNul]
        rw [storeKey_eq sidNoNul] at held
        exact kept.trans held
      apply (healthy.getsUser_iff decodes { base with username := trim username } later ?_
        heldLater).mpr ⟨noNul, clean⟩
      rw [value]
      exact nonempty

omit healthy decodes

/-! ## A user with a plain name, and one with a NUL in its name -/

theorem decodesUsers_sample : DecodesUsers sampleLibraries where
  verifies := lawful_sampleLibraries.user_verify
  id := lawful_sampleLibraries.user_id
  username := lawful_sampleLibraries.user_username

def sampleId : Bytes :=
  ascii "00000000-0000-0000-0000-000000000000"

theorem plain_user_round_trips : ∃ user ex' w',
    makeUserHashed sampleId (ascii " username ") [] = (.ok user, ascii "username") ∧
      run (World.handler sampleEnvironment) (setSessionUserImpl sampleLibraries 1 user {})
        (sampleWorld []) = some ((none, ex'), w') ∧
      RoundTrips (World.handler sampleEnvironment) World.store sampleLibraries user ex' w' := by
  have made : makeUserHashed sampleId (ascii " username ") [] =
      (.ok { id := sampleId, username := ascii "username" }, ascii "username") := by
    decide +kernel
  have output : (run (World.handler sampleEnvironment)
      (setSessionUserImpl sampleLibraries 1
        { id := sampleId, username := ascii "username" } {}) (sampleWorld [])).map Prod.fst =
      some (none, pushCookie (Exchange.withSession {} (spellId fun _ => 0))
        (sessionCookie (spellId fun _ => 0) 3600)) := by
    decide +kernel
  obtain ⟨⟨answer, w'⟩, ran, rfl⟩ := Option.map_eq_some_iff.mp output
  refine ⟨_, _, w', made, ran, ?_⟩
  exact ((World.healthy sampleEnvironment).round_trips_iff decodesUsers_sample made
    (by decide +kernel) ran).mpr (by decide +kernel)

/-- Ten bytes, the ninth of which is NUL. -/
def nulUsername : Bytes :=
  ascii "username" ++ 0 :: ascii "s"

/-- The name comes back without its end. -/
theorem nul_user_cut_short : ∃ user,
    makeUserHashed sampleId nulUsername [] = (.ok user, nulUsername) ∧
      user.username = nulUsername ∧ nulUsername ≠ ascii "username" ∧
      (run (World.handler sampleEnvironment)
        (do
          let (_, ex) ← setSessionUserImpl sampleLibraries 1 user {}
          let (found, _) ← getSessionUserImpl sampleLibraries ex
          return found.map User.username)
        (sampleWorld [])).map Prod.fst = some (some (ascii "username")) :=
  ⟨{ id := sampleId, username := nulUsername }, by decide +kernel, rfl, by decide +kernel,
    by decide +kernel⟩

end CleanArchitecture
