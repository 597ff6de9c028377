import CleanArchitecture.SessionAuthenticity
import CleanArchitecture.SessionFrame
import CleanArchitecture.Trimming

/-!
# The usernames in the users table

The policy of the entity is checked on a `std::string`; the database reads its
text up to the first NUL.  The table holds valid usernames as long as the part
that crosses over is valid too.
-/

namespace CleanArchitecture

open Program Backend WrapperRequest

/-! ## The policy -/

/-- No blanks at either end, and 8 to 60 bytes. -/
structure ValidUsername (username : Bytes) : Prop where
  first : ∀ c ∈ username.head?, isspace c = false
  last : ∀ c ∈ username.getLast?, isspace c = false
  min : usernameMin ≤ username.length
  max : username.length ≤ usernameMax

/-- A username that the factory accepts satisfies the policy as a whole. -/
theorem validUsername_trim {s : Bytes} (min : usernameMin ≤ (trim s).length)
    (max : (trim s).length ≤ usernameMax) : ValidUsername (trim s) :=
  have trimmed : Trimmed isspace (trim s) := trimmed_rdropWhile_dropWhile s
  ⟨trimmed.first, trimmed.last, min, max⟩

/-! ## Registrations -/

def Command.IsExecution : Command → Prop
  | .pqExecPrepared .. => True
  | _ => False

/-- The rows of the users table change by the execution of statements alone, and
one execution adds at most one row for its two parameters. -/
structure UsersTable {σ : Type} (h : BackendHandler σ) (rows : σ → List UserRow) : Prop where
  frame : ∀ command s response s', ¬ command.IsExecution → h command s = some (response, s') →
    rows s' = rows s
  inserts : ∀ client name nParams values lengths formats s response s',
    h (.pqExecPrepared client name nParams values lengths formats) s = some (response, s') →
      rows s' = rows s ∨ ∃ id username password,
        paramValues values lengths formats = [username, password] ∧
          rows s' = rows s ++ [{ id := id, username := username, password := password }]

/-- An execution of two parameters in text format, of which the first is a valid
username as the database reads it. -/
def Command.IsRegistrationCall : Command → Prop
  | .pqExecPrepared _ _ _ values _ formats =>
      ∃ username hashed, values = [username, hashed] ∧ formats = UserPostgres.addUserTypes ∧
        ValidUsername (cStr username)
  | _ => True

theorem paramValues_addUserTypes (username hashed : Bytes) (lengths : List Int) :
    paramValues [username, hashed] lengths UserPostgres.addUserTypes =
      [cStr username, cStr hashed] :=
  rfl

/-- The first NUL of a text, if it has one, comes after the least number of bytes
and not after a blank. -/
def CutsLate (s : Bytes) : Prop :=
  ∀ before after, s = before ++ 0 :: after → 0 ∉ before →
    usernameMin ≤ before.length ∧ ∀ c ∈ before.getLast?, isspace c = false

theorem cutsLate_of_noNul {s : Bytes} (noNul : 0 ∉ s) : CutsLate s := by
  rintro before after rfl
  exact absurd (by simp) noNul

/-- What the database reads of a valid username is valid if it is cut late. -/
theorem validUsername_cStr_iff {s : Bytes} (valid : ValidUsername s) :
    ValidUsername (cStr s) ↔ CutsLate s := by
  by_cases nul : 0 ∈ s
  · obtain ⟨before, after, rfl, clean⟩ := List.eq_append_cons_of_mem nul
    rw [cStr_append_zero clean]
    constructor
    · intro kept before' after' parts clean'
      have same : before = before' := by
        rw [← cStr_append_zero clean after, parts, cStr_append_zero clean']
      exact same ▸ ⟨kept.min, kept.last⟩
    · intro late
      obtain ⟨min, last⟩ := late before after rfl clean
      have long := valid.max
      rw [List.length_append] at long
      refine ⟨?_, last, min, by omega⟩
      intro c first
      apply valid.first
      rw [List.head?_append, Option.mem_def.mp first]
      rfl
  · rw [cStr_eq_self nul]
    exact iff_of_true valid (cutsLate_of_noNul nul)

/-- The username of a registration is cut late, as far as the policy accepts it and the
password. -/
def RegistersCutLate (libraries : Libraries) (req : Request) : Prop :=
  ∀ body, RegisterAuthUseCase.parseBody libraries req = .ok body →
    ValidUsername (trim body.username) →
      (User.setPassword { username := trim body.username } body.password).1 = none →
        CutsLate (trim body.username)

theorem OnSession.registrationCalls {α : Type} {verbs : List Bytes} {post : α → Prop}
    {program : Backend α} (onSession : OnSession verbs post program) :
    Within Command.IsRegistrationCall post program := by
  refine Within.mono onSession ?_ fun _ holds => holds
  intro command call
  cases command with
  | pqExecPrepared => exact call.elim
  | _ => trivial

theorem within_addUserImpl {userDb : UserPostgres} {user : User}
    (valid : ValidUsername (cStr user.username)) :
    Within Command.IsRegistrationCall (fun _ => True) (userDb.addUserImpl user) := by
  have queried : Within Command.IsRegistrationCall (fun _ => True)
      (Postgres.query userDb.addUserStatement [user.username, user.hashed]
        UserPostgres.addUserTypes) := by
    refine (Postgres.within_query _ _ _).mono ?_ fun _ _ => trivial
    intro command call
    cases command with
    | pqExecPrepared =>
        obtain ⟨-, -, rfl, rfl⟩ := call
        exact ⟨_, _, rfl, rfl, valid⟩
    | _ => trivial
  apply queried.bind
  intro answer _
  cases answer with
  | error log => exact within_pure trivial
  | ok result =>
      have cell : Within Command.IsRegistrationCall (fun _ => True)
          (dereference (pqGetvalue result 0 0)) := by
        refine (within_dereference _).mono ?_ fun _ _ => trivial
        rintro command rfl
        trivial
      exact cell.bind fun _ _ => ⟨trivial, fun _ => within_pure trivial⟩

theorem RegisterAuthUseCase.within_addUser (app : Application) {body : AuthBody} (ex : Exchange)
    (late : ValidUsername (trim body.username) →
      (User.setPassword { username := trim body.username } body.password).1 = none →
        CutsLate (trim body.username)) :
    Within Command.IsRegistrationCall (fun _ => True)
      (RegisterAuthUseCase.addUser app body ex) := by
  unfold RegisterAuthUseCase.addUser
  split
  · exact within_pure trivial
  · rename_i user made
    obtain ⟨⟨min, max⟩, rfl, -⟩ := makeUserWith_ok.mp (Prod.ext made rfl)
    split
    · exact within_pure trivial
    · rename_i set accepted
      have passes := congrArg Prod.fst accepted
      rw [User.setPassword_accepted accepted]
      have hashing : Within Command.IsRegistrationCall
          (fun hashed => hashed.2.username = trim body.username)
          (User.hashPassword app.libraries app.crypto
            { username := trim body.username, password := body.password }) := by
        refine (User.within_hashPassword _ _ _).mono ?_ fun _ named => named
        rintro command rfl
        trivial
      apply hashing.bind
      rintro ⟨log, hashed⟩ named
      cases log with
      | some log => exact within_pure trivial
      | none =>
          have valid : ValidUsername (cStr hashed.username) := by
            rw [named]
            have policy := validUsername_trim min max
            exact (validUsername_cStr_iff policy).mpr (late policy passes)
          apply (within_addUserImpl valid).bind
          intro added _
          split
          · split
            · exact within_pure trivial
            · exact within_pure trivial
          · exact within_pure trivial

/-! ## Runs of registrations -/

section Registrations

variable {σ : Type} {h : BackendHandler σ} {rows : σ → List UserRow} (table : UsersTable h rows)

include table

/-- A registration call keeps every username of the table valid. -/
theorem UsersTable.valid_of_call {command : Command} (call : command.IsRegistrationCall) {s s' : σ}
    {response : command.Response} (answered : h command s = some (response, s'))
    (valid : ∀ row ∈ rows s, ValidUsername row.username) :
    ∀ row ∈ rows s', ValidUsername row.username := by
  by_cases execution : command.IsExecution
  · cases command with
    | pqExecPrepared client name nParams values lengths formats =>
        obtain ⟨username, hashed, rfl, rfl, crossing⟩ := call
        rcases table.inserts _ _ _ _ _ _ _ _ _ answered with same | ⟨id, added, password, sent, after⟩
        · rwa [same]
        · rw [paramValues_addUserTypes] at sent
          obtain ⟨rfl, -⟩ := List.cons.inj sent
          intro row member
          rw [after] at member
          rcases List.mem_append.mp member with old | new
          · exact valid row old
          · exact List.mem_singleton.mp new ▸ crossing
    | _ => exact execution.elim
  · rwa [table.frame command s response s' execution answered]

/-- A registration that is refused as authenticated adds no row, any other one a valid
username. -/
theorem UsersTable.valid_of_register {app : Application} {ex ex' : Exchange} {s s' : σ}
    (late : Unauthenticated h s ex → RegistersCutLate app.libraries ex.req)
    (valid : ∀ row ∈ rows s, ValidUsername row.username)
    (ran : run h (RegisterAuthUseCase.execute app ex) s = some (ex', s')) :
    ∀ row ∈ rows s', ValidUsername row.username := by
  have kept : ∀ {α : Type} {post : α → Prop} {program : Backend α} {t t' : σ} {value : α},
      Within Command.IsRegistrationCall post program →
        (∀ row ∈ rows t, ValidUsername row.username) →
          run h program t = some (value, t') → ∀ row ∈ rows t', ValidUsername row.username :=
    fun within before run => within.invariant_of_run
      (fun s => ∀ row ∈ rows s, ValidUsername row.username)
      (fun _ _ _ _ call valid answered => table.valid_of_call call answered valid) before run
  obtain ⟨⟨auth, keyed⟩, s₁, tested, rest⟩ := run_bind_eq_some.mp ran
  have before := kept (onSession_isAuthImpl ex).registrationCalls valid tested
  obtain ⟨sid, -, rfl⟩ := (onSession_isAuthImpl ex).holds_of_run tested
  cases auth with
  | true =>
      cases rest
      exact before
  | false =>
      have cut := late ⟨_, s₁, tested⟩
      simp only [Bool.false_eq_true, if_false] at rest
      split at rest
      · cases rest
        exact before
      · rename_i body parsed
        split at rest
        · cases rest
          exact before
        · exact kept (RegisterAuthUseCase.within_addUser app _ (cut body parsed)) before rest

/-- The users table holds valid usernames after every run of registrations that was empty at
first, if those without a session, with a password that passes, cut their usernames late. -/
theorem UsersTable.registered_usernames_valid {app : Application} {rounds : Nat} {start last : σ}
    (empty : rows start = []) {requests : List (Endpoint × Exchange)} {answers : List Answer}
    (registrations : ∀ request ∈ requests, request.1 = .register)
    (late : (service h app rounds).Throughout start (fun s request =>
      Unauthenticated h s request.2 → RegistersCutLate app.libraries request.2.req) requests)
    (ran : (service h app rounds).run start requests = .ok (last, answers)) :
    ∀ row ∈ rows last, ValidUsername row.username := by
  have met : (service h app rounds).Throughout start (fun s request => request.1 = .register ∧
      (Unauthenticated h s request.2 → RegistersCutLate app.libraries request.2.req)) requests := by
    rintro before request after s outputs rfl begun
    exact ⟨registrations request (by simp), late _ _ _ _ _ rfl begun⟩
  refine EventMachine.invariant_of_throughout (fun s => ∀ row ∈ rows s, ValidUsername row.username)
    (by simp [empty]) ?_ met ran
  rintro s ⟨endpoint, ex⟩ s' answer valid ⟨rfl, late⟩ stepped
  obtain ⟨ex', handled, -⟩ := run_of_service_step h app rounds stepped
  exact table.valid_of_register late valid handled

end Registrations

/-! ## The users table of the world -/

theorem World.execute_inserts (newId : List UserRow → Bytes) (text : Bytes) (params : List Bytes)
    (rows : List UserRow) :
    ((usersEngine newId).execute text params rows).2 = rows ∨ ∃ id username password,
      params = [username, password] ∧
        ((usersEngine newId).execute text params rows).2 =
          rows ++ [{ id := id, username := username, password := password }] := by
  simp only [usersEngine]
  split
  · split
    · exact .inl rfl
    · exact .inl rfl
  · rename_i username password
    split
    · split
      · exact .inr ⟨newId rows, username, password, rfl, rfl⟩
      · exact .inl rfl
    · exact .inl rfl
  · exact .inl rfl

theorem World.usersTable (env : Environment) :
    UsersTable (World.handler env) fun w => w.postgres.tables where
  frame command w response w' other answered := by
    by_cases quiet : command.IsQuiet
    · exact (World.of_quiet env quiet answered).2.1
    · cases command with
      | redisCommand =>
          cases answered
          rfl
      | pqPrepare client name text nParams paramTypes =>
          cases answered
          simp only [PgServer.prepareName]
          split <;> rfl
      | pqExecPrepared => exact absurd trivial other
      | _ => exact absurd trivial quiet
  inserts client name nParams values lengths formats w response w' answered := by
    cases answered
    simp only [PgServer.execPrepared]
    split
    · exact .inl rfl
    · split
      · exact World.execute_inserts env.newId _ _ w.postgres.tables
      · exact .inl rfl

/-! ## Registrations of the sample world -/

/-- The escape of the character NUL in a JSON text. -/
def expandNul : Bytes → Bytes
  | 92 :: 117 :: 48 :: 48 :: 48 :: 48 :: rest => 0 :: expandNul rest
  | c :: rest => c :: expandNul rest
  | [] => []

/-- A JSON library that reads this escape. -/
def escapingApplication : Application :=
  { sampleApplication with
    libraries :=
      { sampleLibraries with jsonParse := fun text => sampleLibraries.jsonParse (expandNul text) } }

/-- A registration under the text between the quotes. -/
def registration (username : String) : Endpoint × Exchange :=
  (.register,
    { req :=
        { method := ascii "POST"
          contentType := ascii "application/json"
          body := 123 :: ascii "\"username\":\"" ++ ascii username ++
            ascii "\",\"password\":\"password\"" ++ [125] } })

theorem parseBody_registration :
    RegisterAuthUseCase.parseBody escapingApplication.libraries
        (registration "  someuser1\\u0000rest").2.req =
      .ok { username := ascii "  someuser1" ++ 0 :: ascii "rest", password := ascii "password" } := by
  decide +kernel

/-- A username that is cut after its ninth byte. -/
theorem registered_usernames_valid_sample : ∃ last answers,
    (service (World.handler sampleEnvironment) escapingApplication 1).run (sampleWorld [])
        [registration "  someuser1\\u0000rest"] = .ok (last, answers) ∧
      last.postgres.tables.map UserRow.username = [ascii "someuser1"] ∧
      ∀ row ∈ last.postgres.tables, ValidUsername row.username := by
  have ran : ((service (World.handler sampleEnvironment) escapingApplication 1).run (sampleWorld [])
      [registration "  someuser1\\u0000rest"]).map
        (fun ended => ended.1.postgres.tables.map UserRow.username) = .ok [ascii "someuser1"] := by
    decide +kernel
  obtain ⟨last, answers, answered, stored⟩ := EventMachine.exists_of_view ran
  refine ⟨last, answers, answered, stored, ?_⟩
  refine (World.usersTable sampleEnvironment).registered_usernames_valid (by rfl) ?_ ?_ answered
  · intro request member
    rw [List.mem_singleton.mp member]
    rfl
  · refine EventMachine.Throughout.cons ?_ fun _ _ _ => EventMachine.throughout_nil _ _
    intro _ body parsed _ _
    rw [parseBody_registration] at parsed
    cases parsed
    intro before after parts clean
    have cut : before = ascii "someuser1" := by
      rw [← cStr_append_zero clean after, ← parts]
      decide +kernel
    rw [cut]
    decide +kernel

/-- A username of ten bytes is stored as its first three. -/
theorem not_registered_usernames_valid : ∃ last answers,
    (service (World.handler sampleEnvironment) escapingApplication 1).run (sampleWorld [])
        [registration "abc\\u0000defghi"] = .ok (last, answers) ∧
      ∃ row ∈ last.postgres.tables, row.username = ascii "abc" ∧ ¬ ValidUsername row.username := by
  have ran : ((service (World.handler sampleEnvironment) escapingApplication 1).run (sampleWorld [])
      [registration "abc\\u0000defghi"]).map
        (fun ended => ended.1.postgres.tables.map UserRow.username) = .ok [ascii "abc"] := by
    decide +kernel
  obtain ⟨last, answers, answered, stored⟩ := EventMachine.exists_of_view ran
  obtain ⟨row, member, named⟩ := List.mem_map.mp
    (show ascii "abc" ∈ last.postgres.tables.map UserRow.username by
      rw [show last.postgres.tables.map UserRow.username = [ascii "abc"] from stored]
      exact List.mem_singleton_self _)
  refine ⟨last, answers, answered, row, member, named, fun valid => ?_⟩
  have long := valid.min
  rw [named] at long
  exact absurd long (by decide +kernel)

end CleanArchitecture
