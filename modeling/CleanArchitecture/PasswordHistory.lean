import CleanArchitecture.RegisterLogin

/-!
# The password that a user verifies

The plain password and its hash are set by different calls, each of which may fail.  A
user verifies the password that was last accepted before it was last hashed.
-/

namespace CleanArchitecture

open Program Backend

/-! ## Sequences of calls on a user -/

/-- A user that an overload of `make_user` returns. -/
inductive MadeUser (user : User) : Prop
  | hashed {id username hash trimmed : Bytes}
      (made : makeUserHashed id username hash = (.ok user, trimmed))
  | identified {id username trimmed : Bytes} (made : makeUserId id username = (.ok user, trimmed))
  | named {username trimmed : Bytes} (made : makeUser username = (.ok user, trimmed))

theorem MadeUser.password {user : User} (made : MadeUser user) : user.password = [] := by
  cases made with
  | hashed made =>
      obtain ⟨-, rfl, -⟩ := makeUserWith_ok.mp made
      rfl
  | identified made =>
      obtain ⟨-, rfl, -⟩ := makeUserWith_ok.mp made
      rfl
  | named made =>
      obtain ⟨-, rfl, -⟩ := makeUserWith_ok.mp made
      rfl

inductive UserCall
  | setPassword (password : Bytes)
  | hashPassword
  deriving DecidableEq

/-- A call in a run, with the user around it and the log it returned. -/
structure UserStep where
  call : UserCall
  before : User
  log : Option Log
  after : User

namespace UserStep

/-- The password that the step set. -/
def accepted (step : UserStep) : Option Bytes :=
  match step.call, step.log with
  | .setPassword password, none => some password
  | _, _ => none

/-- The step hashed the password. -/
def Hashed (step : UserStep) : Prop :=
  step.call = .hashPassword ∧ step.log = none

/-- A password is accepted by its length, a call with a log changes nothing, and no call
changes the id or the username. -/
structure Keeps (step : UserStep) : Prop where
  accepts_iff : ∀ password, step.call = .setPassword password →
    (step.log = none ↔ passwordMin ≤ password.length ∧ password.length ≤ passwordMax)
  unchanged : step.log ≠ none → step.after = step.before
  id : step.after.id = step.before.id
  username : step.after.username = step.before.username

end UserStep

/-- The password that was accepted last, from a first one on. -/
def latestAccepted (first : Bytes) (steps : List UserStep) : Bytes :=
  steps.foldl (fun latest step => step.accepted.getD latest) first

section Runs

variable {σ : Type} (h : BackendHandler σ) (libraries : Libraries) (crypto : MainCrypto)

def UserCall.program (user : User) : UserCall → Backend (Option Log × User)
  | .setPassword password => return user.setPassword password
  | .hashPassword => user.hashPassword libraries crypto

/-- One call after the other, with the user at the end. -/
def userRun : List UserCall → User → σ → Option (List UserStep × User × σ)
  | [], user, s => some ([], user, s)
  | first :: rest, user, s =>
      match run h (first.program libraries crypto user) s with
      | none => none
      | some ((log, after), s') =>
          (userRun rest after s').map fun (steps, last) =>
            (⟨first, user, log, after⟩ :: steps, last)

/-- A text verifies exactly one password. -/
def VerifiesOnly (hash password : Bytes) : Prop :=
  ∀ other t, ∃ answer t',
    run h (MainCrypto.verifyImpl libraries other hash) t = some (answer, t') ∧
      (answer = .ok true ↔ other = password)

/-- Hashing succeeds or fails, and a hash verifies the password it was made of. -/
structure HashVerifies : Prop where
  hashes : ∀ password s, ∃ answer s',
    run h (crypto.hashImpl libraries password) s = some (answer, s')
  verifies : ∀ password hash s s',
    run h (crypto.hashImpl libraries password) s = some (.ok hash, s') →
      VerifiesOnly h libraries hash password

end Runs

/-! ## What a step does -/

namespace UserStep

variable {σ : Type} {h : BackendHandler σ} {libraries : Libraries} {crypto : MainCrypto}

/-- The password is the accepted one, and the hash is that of the password before. -/
structure Sound (h : BackendHandler σ) (libraries : Libraries) (step : UserStep) : Prop
    extends Keeps step where
  password : step.after.password = step.accepted.getD step.before.password
  hash : step.Hashed → VerifiesOnly h libraries step.after.hashed step.before.password
  hashed_of_not : ¬ step.Hashed → step.after.hashed = step.before.hashed

/-- A call with a log changes nothing. -/
theorem sound_of_log {call : UserCall} {log : Log} {user : User}
    (rejected : ∀ password, call = .setPassword password →
      ¬ (passwordMin ≤ password.length ∧ password.length ≤ passwordMax)) :
    Sound h libraries ⟨call, user, some log, user⟩ := by
  constructor
  case toKeeps =>
    constructor
    case accepts_iff =>
      intro password same
      exact iff_of_false nofun (rejected password same)
    case unchanged => exact fun _ => rfl
    case id => rfl
    case username => rfl
  case password => cases call <;> rfl
  case hash =>
    rintro ⟨-, succeeded⟩
    cases succeeded
  case hashed_of_not => exact fun _ => rfl

theorem sound_setPassword {password : Bytes} (short : password.length < 2 ^ 32) (user : User) :
    Sound h libraries ⟨.setPassword password, user, (user.setPassword password).1,
      (user.setPassword password).2⟩ := by
  have length : toUint32 password.length = password.length := by
    have whole : (toUint32 password.length : Int) = password.length :=
      toUint32_of_nonneg (by omega) (by omega)
    omega
  unfold User.setPassword
  rw [length]
  split_ifs with tooShort tooLong
  · apply sound_of_log
    intro other same
    cases same
    omega
  · apply sound_of_log
    intro other same
    cases same
    omega
  · constructor
    case toKeeps =>
      constructor
      case accepts_iff =>
        intro other same
        cases same
        exact iff_of_true rfl ⟨by omega, by omega⟩
      case unchanged => exact fun log => absurd rfl log
      case id => rfl
      case username => rfl
    case password => rfl
    case hash =>
      rintro ⟨hashing, -⟩
      cases hashing
    case hashed_of_not => exact fun _ => rfl

theorem sound_hashPassword {user : User} {hash : Bytes}
    (verifies : VerifiesOnly h libraries hash user.password) :
    Sound h libraries ⟨.hashPassword, user, none, { user with hashed := hash }⟩ := by
  constructor
  case toKeeps =>
    constructor
    case accepts_iff =>
      intro password same
      cases same
    case unchanged => exact fun log => absurd rfl log
    case id => rfl
    case username => rfl
  case password => rfl
  case hash => exact fun _ => verifies
  case hashed_of_not => exact fun notHashed => absurd ⟨rfl, rfl⟩ notHashed

end UserStep

/-- A call returns, and what it does is sound. -/
theorem HashVerifies.run_program {σ : Type} {h : BackendHandler σ} {libraries : Libraries}
    {crypto : MainCrypto} (lawful : HashVerifies h libraries crypto) {call : UserCall}
    (short : ∀ password, call = .setPassword password → password.length < 2 ^ 32) (user : User)
    (s : σ) :
    ∃ log after s', run h (call.program libraries crypto user) s = some ((log, after), s') ∧
      UserStep.Sound h libraries ⟨call, user, log, after⟩ := by
  cases call with
  | setPassword password =>
      exact ⟨_, _, s, rfl, UserStep.sound_setPassword (short password rfl) user⟩
  | hashPassword =>
      obtain ⟨answer, s', hashing⟩ := lawful.hashes user.password s
      rw [UserCall.program, User.hashPassword, run_bind_of_run hashing]
      cases answer with
      | error log =>
          refine ⟨some log, user, s', rfl, UserStep.sound_of_log ?_⟩
          intro password same
          cases same
      | ok hash =>
          exact ⟨none, _, s', rfl,
            UserStep.sound_hashPassword (lawful.verifies user.password hash s s' hashing)⟩

/-! ## What a run does -/

/-- Each step begins with the user that the one before it left. -/
def Chained : User → List UserStep → User → Prop
  | user, [], last => last = user
  | user, step :: rest, last => step.before = user ∧ Chained step.after rest last

theorem chained_append {user last : User} {first second : List UserStep} :
    Chained user (first ++ second) last ↔
      ∃ middle, Chained user first middle ∧ Chained middle second last := by
  induction first generalizing user with
  | nil =>
      constructor
      · intro chained
        exact ⟨user, rfl, chained⟩
      · rintro ⟨middle, rfl, chained⟩
        exact chained
  | cons step first ih =>
      rw [List.cons_append, Chained, ih]
      constructor
      · rintro ⟨starts, middle, left, right⟩
        exact ⟨middle, ⟨starts, left⟩, right⟩
      · rintro ⟨middle, ⟨starts, left⟩, right⟩
        exact ⟨starts, middle, left, right⟩

section Chains

variable {σ : Type} {h : BackendHandler σ} {libraries : Libraries} {user last : User}
  {steps : List UserStep}

theorem names_of_chained (chained : Chained user steps last) (keeps : ∀ step ∈ steps, step.Keeps) :
    last.id = user.id ∧ last.username = user.username := by
  induction steps generalizing user with
  | nil =>
      cases chained
      exact ⟨rfl, rfl⟩
  | cons step steps ih =>
      obtain ⟨rfl, chained⟩ := chained
      rw [List.forall_mem_cons] at keeps
      obtain ⟨id, username⟩ := ih chained keeps.2
      exact ⟨id.trans keeps.1.id, username.trans keeps.1.username⟩

theorem password_of_chained (chained : Chained user steps last)
    (sound : ∀ step ∈ steps, step.Sound h libraries) :
    last.password = latestAccepted user.password steps := by
  induction steps generalizing user with
  | nil =>
      cases chained
      rfl
  | cons step steps ih =>
      obtain ⟨rfl, chained⟩ := chained
      rw [List.forall_mem_cons] at sound
      rw [ih chained sound.2, sound.1.password]
      rfl

theorem hashed_of_chained (chained : Chained user steps last)
    (sound : ∀ step ∈ steps, step.Sound h libraries) (noHash : ∀ step ∈ steps, ¬ step.Hashed) :
    last.hashed = user.hashed := by
  induction steps generalizing user with
  | nil =>
      cases chained
      rfl
  | cons step steps ih =>
      obtain ⟨rfl, chained⟩ := chained
      rw [List.forall_mem_cons] at sound noHash
      rw [ih chained sound.2 noHash.2, sound.1.hashed_of_not noHash.1]

/-- The hash is that of the password before the latest hashing. -/
theorem verifies_of_chained {earlier later : List UserStep} {hashing : UserStep}
    (chained : Chained user (earlier ++ hashing :: later) last)
    (sound : ∀ step ∈ earlier ++ hashing :: later, step.Sound h libraries)
    (hashed : hashing.Hashed) (noHash : ∀ step ∈ later, ¬ step.Hashed) :
    VerifiesOnly h libraries last.hashed (latestAccepted user.password earlier) := by
  obtain ⟨middle, left, rfl, right⟩ := chained_append.mp chained
  rw [List.forall_mem_append, List.forall_mem_cons] at sound
  obtain ⟨before, here, after⟩ := sound
  rw [hashed_of_chained right after noHash, ← password_of_chained left before]
  exact here.hash hashed

end Chains

theorem HashVerifies.run_calls {σ : Type} {h : BackendHandler σ} {libraries : Libraries}
    {crypto : MainCrypto} (lawful : HashVerifies h libraries crypto) {calls : List UserCall}
    (short : ∀ password, .setPassword password ∈ calls → password.length < 2 ^ 32) (user : User)
    (s : σ) :
    ∃ steps last s', userRun h libraries crypto calls user s = some (steps, last, s') ∧
      steps.map UserStep.call = calls ∧ Chained user steps last ∧
        ∀ step ∈ steps, step.Sound h libraries := by
  induction calls generalizing user s with
  | nil => exact ⟨[], user, s, rfl, rfl, rfl, List.forall_mem_nil _⟩
  | cons call calls ih =>
      obtain ⟨log, after, s₁, ran, sound⟩ := lawful.run_program
        (fun password same => short password (same ▸ List.mem_cons_self)) user s
      obtain ⟨steps, last, s₂, ranLater, same, chained, later⟩ := ih
        (fun password member => short password (.tail _ member)) after s₁
      refine ⟨⟨call, user, log, after⟩ :: steps, last, s₂, ?_, ?_, ⟨rfl, chained⟩, ?_⟩
      · rw [userRun, ran]
        dsimp only
        rw [ranLater]
        rfl
      · rw [List.map_cons, same]
      · rw [List.forall_mem_cons]
        exact ⟨sound, later⟩

/-- A user that was made verifies exactly the password last accepted before it was last
hashed, whatever calls were made and failed. -/
theorem HashVerifies.verifies_latest {σ : Type} {h : BackendHandler σ} {libraries : Libraries}
    {crypto : MainCrypto} (lawful : HashVerifies h libraries crypto) {user : User}
    (made : MadeUser user) {calls : List UserCall}
    (short : ∀ password, .setPassword password ∈ calls → password.length < 2 ^ 32) (s : σ) :
    ∃ steps last s', userRun h libraries crypto calls user s = some (steps, last, s') ∧
      steps.map UserStep.call = calls ∧ (∀ step ∈ steps, step.Keeps) ∧
        last.id = user.id ∧ last.username = user.username ∧
          ∀ earlier hashing later, steps = earlier ++ hashing :: later → hashing.Hashed →
            (∀ step ∈ later, ¬ step.Hashed) → ∀ password t, ∃ answer t',
              run h (last.verifyPassword libraries password) t = some (answer, t') ∧
                (answer = .ok true ↔ password = latestAccepted [] earlier) := by
  obtain ⟨steps, last, s', ran, same, chained, sound⟩ := lawful.run_calls short user s
  have keeps : ∀ step ∈ steps, step.Keeps := fun step member => (sound step member).toKeeps
  obtain ⟨id, username⟩ := names_of_chained chained keeps
  refine ⟨steps, last, s', ran, same, keeps, id, username, ?_⟩
  rintro earlier hashing later rfl hashed noHash
  rw [← made.password]
  exact verifies_of_chained chained sound hashed noHash

/-! ## A user of the sample world -/

namespace World

theorem hashVerifies {env : Environment} (app : Application)
    (verifies : VerifiesHashes env app.crypto) :
    HashVerifies (handler env) app.libraries app.crypto := by
  constructor
  case hashes =>
    intro password w
    have answered : run (handler env) (argon2idHashEncoded app.crypto password) w =
        some (env.hashEncoded app.crypto password, w) :=
      rfl
    rw [MainCrypto.hashImpl, run_bind_of_run answered]
    by_cases failed : (env.hashEncoded app.crypto password).1 ≠ argon2Ok
    · exact ⟨_, w, by simp only [if_pos failed]; rfl⟩
    · exact ⟨_, w, by simp only [if_neg failed]; rfl⟩
  case verifies =>
    intro password hash w w' hashing other t
    have hashed : run (handler env)
        (({ password := password } : User).hashPassword app.libraries app.crypto) w =
          some ((none, { password := password, hashed := hash }), w') :=
      run_bind_of_run hashing
    obtain ⟨-, encoded, made, same⟩ := of_hashPassword env hashed
    obtain rfl : hash = encoded.take app.crypto.encodedLen := congrArg User.hashed same
    obtain ⟨answer, ran, accepts⟩ :=
      run_verifyPassword env app { hashed := encoded.take app.crypto.encodedLen } other t
    exact ⟨answer, t, ran, accepts.trans (verifies password encoded made other)⟩

end World

/-- Passwords are set and hashed twice, with one too short in between and one unhashed in
the end. -/
def sampleUserCalls : List UserCall :=
  [.setPassword (ascii "password1"), .hashPassword, .setPassword (ascii "short"),
    .setPassword (ascii "password2"), .hashPassword, .setPassword (ascii "password3")]

theorem sampleUserCalls_verify :
    (makeUser (ascii " username ")).1 = .ok { username := ascii "username" } ∧
      ∃ steps last s', userRun (World.handler sampleEnvironment) sampleApplication.libraries
          sampleApplication.crypto sampleUserCalls { username := ascii "username" }
          (sampleWorld []) = some (steps, last, s') ∧
        steps.map UserStep.call = sampleUserCalls ∧ (∀ step ∈ steps, step.Keeps) ∧
          last.id = [] ∧ last.username = ascii "username" ∧
            ∀ earlier hashing later, steps = earlier ++ hashing :: later → hashing.Hashed →
              (∀ step ∈ later, ¬ step.Hashed) → ∀ password t, ∃ answer t',
                run (World.handler sampleEnvironment)
                    (last.verifyPassword sampleApplication.libraries password) t =
                  some (answer, t') ∧
                  (answer = .ok true ↔ password = latestAccepted [] earlier) := by
  have made : makeUser (ascii " username ") =
      (.ok { username := ascii "username" }, ascii "username") := by
    decide +kernel
  have short : ∀ password, .setPassword password ∈ sampleUserCalls → password.length < 2 ^ 32 := by
    intro password member
    simp only [sampleUserCalls, List.mem_cons, UserCall.setPassword.injEq, reduceCtorEq,
      List.not_mem_nil, or_false, false_or] at member
    rcases member with rfl | rfl | rfl | rfl <;> decide
  exact ⟨congrArg Prod.fst made,
    (World.hashVerifies sampleApplication World.verifiesHashes_sample).verifies_latest
      (.named made) short (sampleWorld [])⟩

end CleanArchitecture
