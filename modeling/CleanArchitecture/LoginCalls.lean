import CleanArchitecture.ProgramHistory
import CleanArchitecture.SampleWorld
import CleanArchitecture.SessionFrame

/-!
# The calls of a login

The login use case is a template over the request, the response and the users.  Over
every environment of their calls it sets a session for a verified user and for no other,
unless it reads the password of a flatbuffer that has none.
-/

namespace CleanArchitecture

open Program

namespace LoginTemplate

/-! ## The template -/

/-- The calls of the template, and its end at a read through a null pointer. -/
inductive Call
  | isAuth
  | getUserByUsername (username : Bytes)
  | verifyPassword (user : User) (password : Bytes)
  | setSessionUser (user : User)
  | setStatus (status : Int)
  | nullDereference
  deriving DecidableEq

abbrev Call.Response : Call → Type
  | .isAuth => Bool
  | .getUserByUsername _ => Except Log User
  | .verifyPassword _ _ => Except Log Bool
  | .setSessionUser _ => Option Log
  | .setStatus _ => Unit
  | .nullDereference => Empty

abbrev Login (α : Type) : Type :=
  Program Call Call.Response α

/-- A flatbuffer is read whether or not it passes verification; of one that does not,
the password is logged first. -/
def parseBody (libraries : Libraries) (body contentType : Bytes) : Login (Except Log AuthBody) :=
  if body = [] then
    return .error { msg := ascii "Empty Body" }
  else if contentType = ascii "application/flatbuffer" then
    if libraries.loginRequestVerify body = false ∧ libraries.loginRequestPassword body = none then
      .call .nullDereference fun never => never.elim
    else
      match libraries.loginRequestUsername body, libraries.loginRequestPassword body with
      | some username, some password =>
          return .ok { username := cStr username, password := cStr password }
      | _, _ => return .error { msg := ascii "Invalid body" }
  else
    return parseJsonBody libraries body

/-- The session of a user whose password was verified. -/
def openSession (user : User) : Login Unit := do
  let _ ← perform (Call.setSessionUser user)
  perform (Call.setStatus statusNoContent)

def checkUser (body : AuthBody) : Login Unit := do
  match ← perform (Call.getUserByUsername body.username) with
  | .error _ => perform (Call.setStatus statusUnauthorized)
  | .ok user =>
      match ← perform (Call.verifyPassword user body.password) with
      | .ok true => openSession user
      | _ => perform (Call.setStatus statusUnauthorized)

def execute (libraries : Libraries) (body contentType : Bytes) : Login Unit := do
  if ← perform Call.isAuth then
    perform (Call.setStatus statusForbidden)
  else
    match ← parseBody libraries body contentType with
    | .error _ => perform (Call.setStatus statusUnauthorized)
    | .ok body =>
        if body.username = [] ∨ body.password = [] then
          perform (Call.setStatus statusUnauthorized)
        else
          checkUser body

/-! ## The template behind the server -/

open WrapperRequest WrapperResponse

/-- How the adapters of the server carry out the calls. -/
def collaborate (app : Application) (rounds : Nat) :
    (call : Call) → Exchange → Backend (call.Response × Exchange)
  | .isAuth, ex => isAuthImpl ex
  | .getUserByUsername username, ex => do
      let (found, _) ← app.userDb.getUserByUsernameImpl username
      return (found, ex)
  | .verifyPassword user password, ex => do
      return (← user.verifyPassword app.libraries password, ex)
  | .setSessionUser user, ex => setSessionUserImpl app.libraries rounds user ex
  | .setStatus status, ex => return ((), setStatus status ex)
  | .nullDereference, _ => Backend.nullDereference

variable (app : Application) (rounds : Nat)

theorem interpret_parseBody (req : Request) (ex : Exchange) :
    (parseBody app.libraries req.body req.contentType).interpret (collaborate app rounds) ex =
      LoginAuthUseCase.parseBody app.libraries req >>= fun parsed => pure (parsed, ex) := by
  unfold parseBody LoginAuthUseCase.parseBody LoginAuthUseCase.logUnverified
  by_cases empty : req.body = []
  · rw [if_pos empty, if_pos empty]
    rfl
  · rw [if_neg empty, if_neg empty]
    by_cases flatbuffer : req.contentType = ascii "application/flatbuffer"
    · rw [if_pos flatbuffer, if_pos flatbuffer]
      cases app.libraries.loginRequestVerify req.body with
      | true =>
          cases app.libraries.loginRequestUsername req.body <;>
            cases app.libraries.loginRequestPassword req.body <;> rfl
      | false =>
          cases app.libraries.loginRequestPassword req.body with
          | none =>
              -- both programs end at the null pointer, whatever would follow it
              exact congrArg (Program.call Command.nullDereference)
                (funext fun never => never.elim)
          | some password =>
              cases app.libraries.loginRequestUsername req.body <;> rfl
    · rw [if_neg flatbuffer, if_neg flatbuffer]
      rfl

/-- What becomes of the exchange once the user of a login is known. -/
def finish (found : Option User × Exchange) : Backend Exchange :=
  match found with
  | (none, ex) => return ex
  | (some user, ex) => do
      let (_, ex) ← setSessionUserImpl app.libraries rounds user ex
      return setStatus statusNoContent ex

theorem interpret_checkUser (body : AuthBody) (ex : Exchange) :
    (checkUser body).interpret (collaborate app rounds) ex >>= (fun answer => pure answer.2) =
      LoginAuthUseCase.checkUser app body >>= fun found =>
        match found with
        | none => pure (setStatus statusUnauthorized ex)
        | some user => finish app rounds (some user, ex) := by
  unfold checkUser LoginAuthUseCase.checkUser
  rw [interpret_bind, interpret_perform]
  simp only [collaborate, bind_assoc, pure_bind]
  apply bind_congr
  rintro ⟨found, _⟩
  cases found with
  | error log => rfl
  | ok user =>
      simp only [interpret_bind, interpret_perform, collaborate, bind_assoc, pure_bind]
      apply bind_congr
      intro same
      rcases same with log | same
      · rfl
      · cases same with
        | false => rfl
        | true =>
          simp only [openSession, interpret_bind, interpret_perform, collaborate, bind_assoc,
            pure_bind, finish]

theorem body_of_renews {ex ex' : Exchange} (renews : ex.Renews ex') :
    ex'.req.body = ex.req.body ∧ ex'.req.contentType = ex.req.contentType := by
  obtain ⟨sid, -, rfl⟩ := renews
  exact ⟨rfl, rfl⟩

/-- The login of the server is the template with its adapters. -/
theorem execute_eq_interpret (ex : Exchange) :
    LoginAuthUseCase.execute app rounds ex =
      (execute app.libraries ex.req.body ex.req.contentType).interpret (collaborate app rounds) ex
        >>= fun answer => pure answer.2 := by
  have finished : LoginAuthUseCase.execute app rounds ex =
      LoginAuthUseCase.authenticate app ex >>= finish app rounds := by
    apply bind_congr
    rintro ⟨found, authenticated⟩
    cases found <;> rfl
  rw [finished, LoginAuthUseCase.authenticate, execute, interpret_bind, interpret_perform,
    bind_assoc, bind_assoc]
  apply (WrapperRequest.onSession_isAuthImpl ex).bind_congr
  rintro ⟨auth, keyed⟩ renews
  obtain ⟨body, contentType⟩ := body_of_renews renews
  simp only at body contentType
  cases auth with
  | true => rfl
  | false =>
      simp only [Bool.false_eq_true, if_false]
      rw [← body, ← contentType, interpret_bind, interpret_parseBody]
      simp only [bind_assoc, pure_bind]
      apply bind_congr
      intro parsed
      cases parsed with
      | error log => rfl
      | ok credentials =>
          simp only
          split
          · rfl
          · rw [interpret_checkUser, bind_assoc]
            apply bind_congr
            intro found
            cases found <;> rfl

/-- So it runs as the template over the handler that its adapters make. -/
theorem run_execute {σ : Type} (h : BackendHandler σ) (ex : Exchange) (s : σ) :
    run h (LoginAuthUseCase.execute app rounds ex) s =
      (run (interpreted h (collaborate app rounds))
        (execute app.libraries ex.req.body ex.req.contentType) (ex, s)).map Prod.snd := by
  rw [execute_eq_interpret, run_bind, ← run_interpret, Option.map_map]
  cases run h ((execute app.libraries ex.req.body ex.req.contentType).interpret
    (collaborate app rounds) ex) s <;> rfl

/-! ## The histories of a login -/

/-- The body of a request is parsed to a username and a password, none of them empty. -/
def Parses (libraries : Libraries) (body contentType : Bytes) (credentials : AuthBody) : Prop :=
  parseBody libraries body contentType = pure (.ok credentials) ∧ credentials.username ≠ [] ∧
    credentials.password ≠ []

/-- The body is a flatbuffer that fails verification and has no password. -/
def ReadsNullPassword (libraries : Libraries) (body contentType : Bytes) : Prop :=
  body ≠ [] ∧ contentType = ascii "application/flatbuffer" ∧
    libraries.loginRequestVerify body = false ∧ libraries.loginRequestPassword body = none

theorem parseBody_of_readable {libraries : Libraries} {body contentType : Bytes}
    (readable : ¬ ReadsNullPassword libraries body contentType) :
    ∃ parsed, parseBody libraries body contentType = pure parsed := by
  unfold parseBody
  split
  · exact ⟨_, rfl⟩
  · rename_i nonempty
    split
    · rename_i flatbuffer
      rw [if_neg fun unreadable => readable ⟨nonempty, flatbuffer, unreadable⟩]
      split <;> exact ⟨_, rfl⟩
    · exact ⟨_, rfl⟩

theorem run_parseBody_of_unreadable {libraries : Libraries} {body contentType : Bytes}
    (unreadable : ReadsNullPassword libraries body contentType) {σ : Type}
    (h : CommandHandler Call Call.Response σ) (s : σ) :
    run h (parseBody libraries body contentType) s = none := by
  obtain ⟨nonempty, flatbuffer, unverified⟩ := unreadable
  rw [parseBody, if_neg nonempty, if_pos flatbuffer, if_pos unverified, run]
  cases h .nullDereference s with
  | none => rfl
  | some answer => exact answer.1.elim

/-- The calls of a login, with their responses. -/
inductive Outcome (parses : AuthBody → Prop) : List (CallEvent Call.Response) → Prop
  | authenticated : Outcome parses [⟨.isAuth, true⟩, ⟨.setStatus statusForbidden, ()⟩]
  | unparsed (missing : ∀ credentials, ¬ parses credentials) :
      Outcome parses [⟨.isAuth, false⟩, ⟨.setStatus statusUnauthorized, ()⟩]
  | unknown {credentials : AuthBody} {log : Log} (parsed : parses credentials) :
      Outcome parses [⟨.isAuth, false⟩, ⟨.getUserByUsername credentials.username, .error log⟩,
        ⟨.setStatus statusUnauthorized, ()⟩]
  | unverified {credentials : AuthBody} {user : User} {same : Except Log Bool}
      (parsed : parses credentials) (refused : same ≠ .ok true) :
      Outcome parses [⟨.isAuth, false⟩, ⟨.getUserByUsername credentials.username, .ok user⟩,
        ⟨.verifyPassword user credentials.password, same⟩, ⟨.setStatus statusUnauthorized, ()⟩]
  | verified {credentials : AuthBody} {user : User} {log : Option Log}
      (parsed : parses credentials) :
      Outcome parses [⟨.isAuth, false⟩, ⟨.getUserByUsername credentials.username, .ok user⟩,
        ⟨.verifyPassword user credentials.password, .ok true⟩, ⟨.setSessionUser user, log⟩,
        ⟨.setStatus statusNoContent, ()⟩]

/-- Every call returns. -/
def Answers {σ : Type} (h : CommandHandler Call Call.Response σ) : Prop :=
  ∀ call s, call ≠ .nullDereference → ∃ response s', h call s = some (response, s')

section Histories

variable {σ : Type} {h : CommandHandler Call Call.Response σ} (answers : Answers h)
  (libraries : Libraries) (body contentType : Bytes)

include answers

theorem run_setStatus (status : Int) (s : σ) :
    ∃ last, run h (perform (Call.setStatus status)) s = some ((), last) ∧
      history h (perform (Call.setStatus status)) s = [⟨.setStatus status, ()⟩] := by
  obtain ⟨response, last, answered⟩ := answers (.setStatus status) s (by simp)
  exact ⟨last, (run_perform _ s).trans answered, history_perform_of_answer answered⟩

/-- A status ends the login, with the outcome that it completes. -/
theorem outcome_of_setStatus {parses : AuthBody → Prop} (calls : List (CallEvent Call.Response))
    {status : Int} (s : σ) (outcome : Outcome parses (calls ++ [⟨.setStatus status, ()⟩])) :
    ∃ last, run h (perform (Call.setStatus status)) s = some ((), last) ∧
      Outcome parses (calls ++ history h (perform (Call.setStatus status)) s) := by
  obtain ⟨last, ran, called⟩ := run_setStatus answers status s
  exact ⟨last, ran, called ▸ outcome⟩

theorem run_openSession (user : User) (s : σ) :
    ∃ last log, run h (openSession user) s = some ((), last) ∧
      history h (openSession user) s =
        [⟨.setSessionUser user, log⟩, ⟨.setStatus statusNoContent, ()⟩] := by
  obtain ⟨log, s₁, answered⟩ := answers (.setSessionUser user) s (by simp)
  obtain ⟨last, ran, called⟩ := run_setStatus answers statusNoContent s₁
  have opened := (run_perform _ s).trans answered
  refine ⟨last, log, (run_bind_of_run opened).trans ran, ?_⟩
  rw [openSession, history_bind_of_run opened, history_perform_of_answer answered, called]
  rfl

theorem outcome_checkUser {parses : AuthBody → Prop} {credentials : AuthBody}
    (parsed : parses credentials) (s : σ) :
    ∃ last, run h (checkUser credentials) s = some ((), last) ∧
      Outcome parses (⟨.isAuth, false⟩ :: history h (checkUser credentials) s) := by
  obtain ⟨found, s₁, answered⟩ := answers (.getUserByUsername credentials.username) s (by simp)
  have looked := (run_perform _ s).trans answered
  rw [checkUser, run_bind_of_run looked, history_bind_of_run looked,
    history_perform_of_answer answered]
  cases found with
  | error log =>
      exact outcome_of_setStatus answers [⟨.isAuth, false⟩, ⟨.getUserByUsername _, .error log⟩] s₁
        (.unknown parsed)
  | ok user =>
      obtain ⟨same, s₂, answered₂⟩ :=
        answers (.verifyPassword user credentials.password) s₁ (by simp)
      have compared := (run_perform _ s₁).trans answered₂
      simp only
      rw [run_bind_of_run compared, history_bind_of_run compared,
        history_perform_of_answer answered₂]
      by_cases verified : same = .ok true
      · subst verified
        obtain ⟨last, log, ran, called⟩ := run_openSession answers user s₂
        refine ⟨last, ran, ?_⟩
        simp only [called]
        exact .verified parsed
      · have refused : (match same with
            | .ok true => openSession user
            | _ => perform (Call.setStatus statusUnauthorized)) =
              perform (Call.setStatus statusUnauthorized) := by
          rcases same with log | same
          · rfl
          · cases same with
            | false => rfl
            | true => exact absurd rfl verified
        rw [refused]
        exact outcome_of_setStatus answers [⟨.isAuth, false⟩, ⟨.getUserByUsername _, .ok user⟩,
          ⟨.verifyPassword user _, same⟩] s₂ (.unverified parsed verified)

/-- Unless a login reads a null pointer, it comes to one of the outcomes. -/
theorem outcome_execute {s : σ}
    (readable : ¬ ((∃ s', h .isAuth s = some (false, s')) ∧
      ReadsNullPassword libraries body contentType)) :
    ∃ last, run h (execute libraries body contentType) s = some ((), last) ∧
      Outcome (Parses libraries body contentType)
        (history h (execute libraries body contentType) s) := by
  obtain ⟨auth, s₁, answered⟩ := answers .isAuth s (by simp)
  have asked := (run_perform _ s).trans answered
  rw [execute, run_bind_of_run asked, history_bind_of_run asked,
    history_perform_of_answer answered]
  cases auth with
  | true => exact outcome_of_setStatus answers [⟨.isAuth, true⟩] s₁ .authenticated
  | false =>
      obtain ⟨parsed, pureParse⟩ := parseBody_of_readable
        fun unreadable => readable ⟨⟨s₁, answered⟩, unreadable⟩
      have rejected : (∀ credentials, ¬ Parses libraries body contentType credentials) →
          ∃ last, run h (perform (Call.setStatus statusUnauthorized)) s₁ = some ((), last) ∧
            Outcome (Parses libraries body contentType)
              ([⟨.isAuth, false⟩] ++
                history h (perform (Call.setStatus statusUnauthorized)) s₁) := by
        intro missing
        exact outcome_of_setStatus answers [⟨.isAuth, false⟩] s₁ (.unparsed missing)
      simp only [Bool.false_eq_true, if_false, pureParse, pure_bind]
      cases parsed with
      | error log =>
          apply rejected
          rintro credentials ⟨parsed, -⟩
          rw [pureParse] at parsed
          cases parsed
      | ok found =>
          simp only
          split
          · rename_i empty
            apply rejected
            rintro credentials ⟨parsed, username, password⟩
            rw [pureParse] at parsed
            cases parsed
            exact empty.elim username password
          · rename_i nonempty
            rw [not_or] at nonempty
            have parsed : Parses libraries body contentType found := ⟨pureParse, nonempty⟩
            exact outcome_checkUser answers parsed s₁

end Histories

/-! ## Sessions for verified users -/

/-- The users whose sessions are set. -/
def sessions (calls : List (CallEvent Call.Response)) : List User :=
  calls.filterMap fun event =>
    match event.1 with
    | .setSessionUser user => some user
    | _ => none

/-- The statuses that are set. -/
def statuses (calls : List (CallEvent Call.Response)) : List Int :=
  calls.filterMap fun event =>
    match event.1 with
    | .setStatus status => some status
    | _ => none

/-- The request was not authenticated, and the user was found under the username of its
body and verified with its password. -/
def Verified (parses : AuthBody → Prop) (calls : List (CallEvent Call.Response)) (user : User) :
    Prop :=
  (⟨.isAuth, false⟩ : CallEvent Call.Response) ∈ calls ∧ ∃ credentials, parses credentials ∧
    (⟨.getUserByUsername credentials.username, .ok user⟩ : CallEvent Call.Response) ∈ calls ∧
    (⟨.verifyPassword user credentials.password, .ok true⟩ : CallEvent Call.Response) ∈ calls

/-- One session is set for a verified user, and no session otherwise. -/
structure OpensVerified (parses : AuthBody → Prop) (calls : List (CallEvent Call.Response)) :
    Prop where
  opens : ∀ user, Verified parses calls user →
    sessions calls = [user] ∧ statuses calls = [statusNoContent]
  rejects : (∀ user, ¬ Verified parses calls user) → sessions calls = [] ∧
    ((⟨.isAuth, true⟩ : CallEvent Call.Response) ∈ calls ∧ statuses calls = [statusForbidden] ∨
      (⟨.isAuth, false⟩ : CallEvent Call.Response) ∈ calls ∧ statuses calls = [statusUnauthorized])

theorem Outcome.opensVerified {parses : AuthBody → Prop} {calls : List (CallEvent Call.Response)}
    (outcome : Outcome parses calls) : OpensVerified parses calls := by
  cases outcome with
  | authenticated =>
      refine ⟨?_, fun _ => ⟨rfl, .inl ⟨by simp, rfl⟩⟩⟩
      rintro user ⟨unauthenticated, -⟩
      simp at unauthenticated
  | unparsed missing =>
      refine ⟨?_, fun _ => ⟨rfl, .inr ⟨by simp, rfl⟩⟩⟩
      rintro user ⟨-, credentials, parsed, -⟩
      exact absurd parsed (missing credentials)
  | unknown parsed =>
      refine ⟨?_, fun _ => ⟨rfl, .inr ⟨by simp, rfl⟩⟩⟩
      rintro user ⟨-, credentials, -, -, verified⟩
      simp at verified
  | unverified parsed refused =>
      refine ⟨?_, fun _ => ⟨rfl, .inr ⟨by simp, rfl⟩⟩⟩
      rintro user ⟨-, credentials, -, -, verified⟩
      simp only [List.mem_cons, List.not_mem_nil, or_false, Sigma.mk.injEq, reduceCtorEq,
        false_and, false_or] at verified
      exact absurd (eq_of_heq verified.2).symm refused
  | verified parsed =>
      refine ⟨?_, fun none => ?_⟩
      · rintro user ⟨-, credentials, -, -, verified⟩
        simp only [List.mem_cons, List.not_mem_nil, or_false, Sigma.mk.injEq, reduceCtorEq,
          false_and, false_or, Call.verifyPassword.injEq] at verified
        obtain ⟨⟨rfl, -⟩, -⟩ := verified
        exact ⟨rfl, rfl⟩
      · exact absurd ⟨.head _, _, parsed, .tail _ (.head _), .tail _ (.tail _ (.head _))⟩ (none _)

/-- Collaborators that know one user and find every password right. -/
def sampleCollaborators : CommandHandler Call Call.Response Unit
  | .isAuth, s => some (false, s)
  | .getUserByUsername username, s => some (.ok { username := username }, s)
  | .verifyPassword _ _, s => some (.ok true, s)
  | .setSessionUser _, s => some (none, s)
  | .setStatus _, s => some ((), s)
  | .nullDereference, _ => none

theorem answers_sampleCollaborators : Answers sampleCollaborators := by
  intro call s notNull
  cases call with
  | nullDereference => exact absurd rfl notNull
  | _ => exact ⟨_, _, rfl⟩

def sampleBody : Bytes :=
  SampleWorld.writeObject (ascii "username", ascii "someone") (ascii "password", ascii "secret")

/-- A table with a vtable of five bytes, which has no entry for the password. -/
def passwordless : Bytes :=
  [8, 0, 0, 0, 5, 0, 4, 0, 4, 0, 0, 0]

end LoginTemplate

end CleanArchitecture
