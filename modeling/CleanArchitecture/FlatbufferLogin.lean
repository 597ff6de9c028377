import CleanArchitecture.LoginCalls

/-!
# Flatbuffers that fail verification

The accesses to the fields of a flatbuffer are calls here, so that a history of the body's
parse tells which fields were read.  A body that fails verification has its password read
for the log, and is then treated like any other.
-/

namespace CleanArchitecture

open Program

namespace FlatbufferLogin

/-! ## Accesses to a buffer -/

/-- The accessors of a login request, the log and the end at a null pointer. -/
inductive FieldCall
  | verify
  | username
  | password
  | debug (text : Bytes)
  | nullDereference
  deriving DecidableEq

abbrev FieldCall.Response : FieldCall → Type
  | .verify => Bool
  | .username => Option Bytes
  | .password => Option Bytes
  | .debug _ => Unit
  | .nullDereference => Empty

abbrev Parse (α : Type) : Type :=
  Program FieldCall FieldCall.Response α

/-- `logger->debug(buffer->password()->c_str())` of a buffer that fails verification. -/
def logUnverified : Parse Unit := do
  if ← perform FieldCall.verify then
    return ()
  else
    match ← perform FieldCall.password with
    | none => .call .nullDereference fun never => never.elim
    | some password => perform (FieldCall.debug (cStr password))

def parseBuffer : Parse (Except Log AuthBody) := do
  logUnverified
  let username ← perform FieldCall.username
  let password ← perform FieldCall.password
  match username, password with
  | some username, some password =>
      return .ok { username := cStr username, password := cStr password }
  | _, _ => return .error { msg := ascii "Invalid body" }

def parseBody (libraries : Libraries) (body contentType : Bytes) : Parse (Except Log AuthBody) :=
  if body = [] then return .error { msg := ascii "Empty Body" }
  else if contentType = ascii "application/flatbuffer" then parseBuffer
  else return parseJsonBody libraries body

/-- The accessors of the library at a body. -/
def fields (libraries : Libraries) (body : Bytes) : CommandHandler FieldCall FieldCall.Response Unit
  | .verify, s => some (libraries.loginRequestVerify body, s)
  | .username, s => some (libraries.loginRequestUsername body, s)
  | .password, s => some (libraries.loginRequestPassword body, s)
  | .debug _, s => some ((), s)
  | .nullDereference, _ => none

/-- The same accessors in a program of the server. -/
def readFields (libraries : Libraries) (body : Bytes) :
    (call : FieldCall) → Unit → Backend (call.Response × Unit)
  | .verify, s => return (libraries.loginRequestVerify body, s)
  | .username, s => return (libraries.loginRequestUsername body, s)
  | .password, s => return (libraries.loginRequestPassword body, s)
  | .debug _, s => return ((), s)
  | .nullDereference, _ => Backend.nullDereference

theorem interpret_logUnverified (libraries : Libraries) (body : Bytes) :
    logUnverified.interpret (readFields libraries body) () =
      LoginAuthUseCase.logUnverified libraries body >>= fun logged => pure (logged, ()) := by
  rw [logUnverified, LoginAuthUseCase.logUnverified, interpret_bind, interpret_perform]
  simp only [readFields, pure_bind]
  cases libraries.loginRequestVerify body with
  | true => rfl
  | false =>
      rw [if_neg Bool.false_ne_true, if_neg Bool.false_ne_true, interpret_bind, interpret_perform]
      simp only [readFields, pure_bind, bind_assoc]
      cases libraries.loginRequestPassword body with
      | some password => rfl
      | none =>
          -- both programs end at the null pointer, whatever would follow it
          apply congrArg (Program.call Command.nullDereference)
          funext never
          exact Empty.elim never

/-- The login of the server parses its body by these calls. -/
theorem interpret_parseBody (libraries : Libraries) (req : Request) :
    (parseBody libraries req.body req.contentType).interpret (readFields libraries req.body) () =
      LoginAuthUseCase.parseBody libraries req >>= fun parsed => pure (parsed, ()) := by
  unfold parseBody LoginAuthUseCase.parseBody
  by_cases empty : req.body = []
  · rw [if_pos empty, if_pos empty]
    rfl
  · rw [if_neg empty, if_neg empty]
    by_cases flatbuffer : req.contentType = ascii "application/flatbuffer"
    · rw [if_pos flatbuffer, if_pos flatbuffer, parseBuffer, interpret_bind,
        interpret_logUnverified, bind_assoc, bind_assoc]
      apply bind_congr
      intro logged
      simp only [pure_bind, interpret_bind, interpret_perform, readFields]
      cases libraries.loginRequestUsername req.body <;>
        cases libraries.loginRequestPassword req.body <;> rfl
    · rw [if_neg flatbuffer, if_neg flatbuffer]
      rfl

/-! ## Bodies that fail verification -/

/-- The body is refused, and no field of it is read before that. -/
def RefusesUnread (libraries : Libraries) (body : Bytes) : Prop :=
  let parse := parseBody libraries body (ascii "application/flatbuffer")
  (∃ log, run (fields libraries body) parse () = some (.error log, ())) ∧
    ∀ event ∈ history (fields libraries body) parse (),
      event.1 ≠ .username ∧ event.1 ≠ .password

/-- Over every environment of its calls, a login that is not authenticated sets the status
401 and does nothing else. -/
def RefusesLogin (libraries : Libraries) (body : Bytes) : Prop :=
  ∀ (σ : Type) (h : CommandHandler LoginTemplate.Call LoginTemplate.Call.Response σ) (s s' : σ),
    LoginTemplate.Answers h → h .isAuth s = some (false, s') →
      let login := LoginTemplate.execute libraries body (ascii "application/flatbuffer")
      (∃ last, run h login s = some ((), last)) ∧
        history h login s = [⟨.isAuth, false⟩, ⟨.setStatus statusUnauthorized, ()⟩]

/-- The fields of a body that is refused although they are read. -/
def RefusedFields (libraries : Libraries) (body : Bytes) : Prop :=
  ∃ password, libraries.loginRequestPassword body = some password ∧
    ∀ username, libraries.loginRequestUsername body = some username →
      cStr username = [] ∨ cStr password = []

/-- The password is the first field that is read. -/
theorem history_parseBody {libraries : Libraries} {body : Bytes} (nonempty : body ≠ [])
    (unverified : libraries.loginRequestVerify body = false) :
    (⟨.password, libraries.loginRequestPassword body⟩ : CallEvent FieldCall.Response) ∈
      history (fields libraries body)
        (parseBody libraries body (ascii "application/flatbuffer")) () := by
  have asked : run (fields libraries body) (perform FieldCall.verify) () = some (false, ()) := by
    rw [run_perform, fields, unverified]
  have read : run (fields libraries body) (perform FieldCall.password) () =
      some (libraries.loginRequestPassword body, ()) :=
    run_perform _ ()
  rw [parseBody, if_neg nonempty, if_pos rfl, parseBuffer, logUnverified, bind_assoc]
  apply mem_history_bind_right asked
  rw [if_neg Bool.false_ne_true, bind_assoc]
  apply mem_history_bind_left read
  exact List.mem_cons_self

section Logins

open LoginTemplate

variable {libraries : Libraries} {body : Bytes} (nonempty : body ≠ [])

include nonempty

theorem loginParse_of_password {password : Bytes}
    (found : libraries.loginRequestPassword body = some password) :
    LoginTemplate.parseBody libraries body (ascii "application/flatbuffer") =
      pure (match libraries.loginRequestUsername body with
        | some username => .ok { username := cStr username, password := cStr password }
        | none => .error { msg := ascii "Invalid body" }) := by
  rw [LoginTemplate.parseBody, if_neg nonempty, if_pos rfl, if_neg]
  · rw [found]
    cases libraries.loginRequestUsername body <;> rfl
  · rintro ⟨-, missing⟩
    rw [found] at missing
    cases missing

variable (unverified : libraries.loginRequestVerify body = false)

/-- A body without credentials is refused. -/
theorem refusesLogin_of_fields (refused : RefusedFields libraries body) :
    RefusesLogin libraries body := by
  obtain ⟨password, found, empty⟩ := refused
  have parse := loginParse_of_password nonempty found
  have missing : ∀ credentials,
      ¬ Parses libraries body (ascii "application/flatbuffer") credentials := by
    rintro credentials ⟨parsed, username, password⟩
    rw [parse] at parsed
    cases named : libraries.loginRequestUsername body with
    | none =>
        rw [named] at parsed
        cases parsed
    | some name =>
        rw [named] at parsed
        cases parsed
        exact (empty name named).elim username password
  intro σ h s s' answers unauthenticated
  have readable : ¬ ((∃ s', h .isAuth s = some (false, s')) ∧
      ReadsNullPassword libraries body (ascii "application/flatbuffer")) := by
    rintro ⟨-, -, -, -, absent⟩
    rw [found] at absent
    cases absent
  obtain ⟨last, ran, outcome⟩ := outcome_execute answers libraries body _ readable
  refine ⟨⟨last, ran⟩, ?_⟩
  have asked := (run_perform Call.isAuth s).trans unauthenticated
  have first : ∃ later, history h (execute libraries body (ascii "application/flatbuffer")) s =
      ⟨.isAuth, false⟩ :: later := by
    rw [execute, history_bind_of_run asked, history_perform_of_answer unauthenticated]
    exact ⟨_, rfl⟩
  obtain ⟨later, starts⟩ := first
  generalize history h (execute libraries body (ascii "application/flatbuffer")) s = calls at *
  cases outcome with
  | authenticated => cases starts
  | unparsed _ => rfl
  | unknown parsed => exact absurd parsed (missing _)
  | unverified parsed => exact absurd parsed (missing _)
  | verified parsed => exact absurd parsed (missing _)

include unverified

/-- Other bodies end at a null pointer or are looked up. -/
theorem fields_of_refusesLogin (refuses : RefusesLogin libraries body) :
    RefusedFields libraries body := by
  obtain ⟨⟨last, ran⟩, called⟩ :=
    refuses Unit sampleCollaborators () () answers_sampleCollaborators rfl
  have asked : run sampleCollaborators (perform Call.isAuth) () = some (false, ()) :=
    rfl
  rw [execute, run_bind_of_run asked, if_neg Bool.false_ne_true] at ran
  rw [execute, history_bind_of_run asked, if_neg Bool.false_ne_true] at called
  cases found : libraries.loginRequestPassword body with
  | none =>
      have stuck := run_parseBody_of_unreadable ⟨nonempty, rfl, unverified, found⟩
        sampleCollaborators ()
      rw [run_bind_of_none stuck] at ran
      cases ran
  | some password =>
      refine ⟨password, found, ?_⟩
      intro username named
      by_contra credentials
      have parse := loginParse_of_password nonempty found
      rw [parse, named, pure_bind] at called
      dsimp only at called
      rw [if_neg credentials, checkUser] at called
      have looked : run sampleCollaborators (perform (Call.getUserByUsername (cStr username))) () =
          some (.ok { username := cStr username }, ()) :=
        rfl
      rw [history_bind_of_run looked] at called
      cases called

/-- A body that fails verification is never refused unread, and the login behind it is
refused if and only if the fields that are read have no credentials. -/
theorem unverified_is_read :
    ¬ (RefusesUnread libraries body ∧ RefusesLogin libraries body) ∧
      (RefusesLogin libraries body ↔ RefusedFields libraries body) := by
  constructor
  · rintro ⟨⟨-, unread⟩, -⟩
    exact (unread _ (history_parseBody nonempty unverified)).2 rfl
  · constructor
    · exact fields_of_refusesLogin nonempty unverified
    · exact refusesLogin_of_fields nonempty

end Logins

/-! ## A buffer that was cut -/

/-- `size` bytes of a buffer from an offset on, in little endian. -/
def readScalar (buffer : Bytes) (size offset : Nat) : Nat :=
  ((buffer.drop offset).take size).foldr (fun byte value => byte.toNat + 256 * value) 0

/-- Where the text of a table's string field starts, and its length. -/
def stringField (buffer : Bytes) (slot : Nat) : Option (Nat × Nat) :=
  let table := readScalar buffer 4 0
  let vtable := table - readScalar buffer 4 table
  let entry := if slot < readScalar buffer 2 vtable then readScalar buffer 2 (vtable + slot) else 0
  if entry = 0 then none
  else
    let start := table + entry + readScalar buffer 4 (table + entry)
    some (start + 4, readScalar buffer 4 start)

/-- A string ends inside the buffer, with a NUL. -/
def stringVerify (buffer : Bytes) (slot : Nat) : Bool :=
  match stringField buffer slot with
  | none => true
  | some (start, length) => buffer[start + length]? == some 0

/-- The bytes from the start of a text on; a NUL stands behind the buffer. -/
def stringText (buffer : Bytes) (slot : Nat) : Option Bytes :=
  (stringField buffer slot).map fun (start, _) => (buffer ++ [0]).drop start

/-- Libraries that read login requests from their bytes. -/
def bufferLibraries : Libraries :=
  { sampleLibraries with
    loginRequestVerify := fun body => stringVerify body 4 && stringVerify body 6
    loginRequestUsername := fun body => stringText body 4
    loginRequestPassword := fun body => stringText body 6 }

/-- A login request that ends before the NUL of its password. -/
def cutBuffer : Bytes :=
  [12, 0, 0, 0, 8, 0, 12, 0, 4, 0, 8, 0] ++ [8, 0, 0, 0, 8, 0, 0, 0, 16, 0, 0, 0] ++
    [7, 0, 0, 0] ++ ascii "someone" ++ [0] ++ [6, 0, 0, 0] ++ ascii "secret"

example : bufferLibraries.loginRequestVerify (cutBuffer ++ [0]) = true := by decide

theorem cutBuffer_unverified :
    cutBuffer ≠ [] ∧ bufferLibraries.loginRequestVerify cutBuffer = false := by
  decide

/-- The buffer opens a session. -/
theorem cutBuffer_opens :
    ¬ (RefusesUnread bufferLibraries cutBuffer ∧ RefusesLogin bufferLibraries cutBuffer) ∧
      run (fields bufferLibraries cutBuffer)
          (parseBody bufferLibraries cutBuffer (ascii "application/flatbuffer")) () =
        some (.ok { username := ascii "someone", password := ascii "secret" }, ()) ∧
      LoginTemplate.sessions (history LoginTemplate.sampleCollaborators
        (LoginTemplate.execute bufferLibraries cutBuffer (ascii "application/flatbuffer")) ()) =
        [{ username := ascii "someone" }] := by
  have parsed : run (fields bufferLibraries cutBuffer)
      (parseBody bufferLibraries cutBuffer (ascii "application/flatbuffer")) () =
        some (.ok { username := ascii "someone", password := ascii "secret" }, ()) := by
    rfl
  refine ⟨?_, parsed, by rfl⟩
  rintro ⟨⟨⟨log, refused⟩, -⟩, -⟩
  rw [parsed] at refused
  cases refused

/-- Its login is not refused, because its fields have credentials. -/
theorem cutBuffer_not_refused : ¬ RefusesLogin bufferLibraries cutBuffer := by
  obtain ⟨nonempty, unverified⟩ := cutBuffer_unverified
  have username : bufferLibraries.loginRequestUsername cutBuffer =
      some (ascii "someone" ++ [0, 6, 0, 0, 0] ++ ascii "secret" ++ [0]) := by
    decide
  have password : bufferLibraries.loginRequestPassword cutBuffer =
      some (ascii "secret" ++ [0]) := by
    decide
  intro refused
  obtain ⟨text, found, empty⟩ := (unverified_is_read nonempty unverified).2.mp refused
  rw [password] at found
  cases found
  rcases empty _ username with none | none
  · revert none
    decide
  · revert none
    decide

end FlatbufferLogin

end CleanArchitecture
