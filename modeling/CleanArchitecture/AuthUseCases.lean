import CleanArchitecture.Session
import CleanArchitecture.UserPostgres

/-!
# The use cases behind the four endpoints

Each use case handles one exchange: it reads the request, calls the adapters and
fills the response.
-/

namespace CleanArchitecture

open Backend

/-! ## Responses -/

namespace WrapperResponse

def setStatus (status : Int) (ex : Exchange) : Exchange :=
  { ex with res := { ex.res with status := status } }

@[simp] theorem setStatus_status (status : Int) (ex : Exchange) :
    (setStatus status ex).res.status = status :=
  rfl

def setContentType (type : ContentTypeEnum) (ex : Exchange) : Exchange :=
  { ex with res := { ex.res with contentType := type } }

def setBody (body : Bytes) (ex : Exchange) : Exchange :=
  { ex with res := { ex.res with content := body, contentLength := decimal body.length } }

/-- The body of a list of rows: every row is followed by a comma, and the last
byte becomes the closing bracket. -/
def setBodyRows (rows : List Bytes) (ex : Exchange) : Exchange :=
  setBody
    ((ascii "[" ++ rows.flatMap fun row => ascii "\"" ++ row ++ ascii "\",").dropLast ++ ascii "]")
    ex

end WrapperResponse

/-- What the use cases are built with. -/
structure Application where
  libraries : Libraries
  userDb : UserPostgres
  crypto : MainCrypto

structure AuthBody where
  username : Bytes
  password : Bytes
  deriving DecidableEq

/-- The two string members of a JSON body. -/
def parseJsonBody (libraries : Libraries) (body : Bytes) : Except Log AuthBody :=
  match libraries.jsonParse body with
  | none => .error { msg := ascii "Invalid body" }
  | some json =>
      match json.stringMember (ascii "username"), json.stringMember (ascii "password") with
      | some username, some password => .ok { username := username, password := password }
      | _, _ => .error { msg := ascii "Invalid body" }

open WrapperRequest WrapperResponse

/-! ## Login -/

namespace LoginAuthUseCase

/-- The password of a flatbuffer that fails verification is written to the log. -/
def logUnverified (libraries : Libraries) (body : Bytes) : Backend Unit :=
  if libraries.loginRequestVerify body = true then return ()
  else do
    let _ ← dereference (libraries.loginRequestPassword body)

/-- A flatbuffer is read whether or not it passes verification. -/
def parseBody (libraries : Libraries) (req : Request) : Backend (Except Log AuthBody) := do
  if req.body = [] then
    return .error { msg := ascii "Empty Body" }
  else if req.contentType = ascii "application/flatbuffer" then
    logUnverified libraries req.body
    match libraries.loginRequestUsername req.body, libraries.loginRequestPassword req.body with
    | some username, some password =>
        return .ok { username := cStr username, password := cStr password }
    | _, _ => return .error { msg := ascii "Invalid body" }
  else
    return parseJsonBody libraries req.body

/-- The user whose password a non-empty body names. -/
def checkUser (app : Application) (body : AuthBody) : Backend (Option User) := do
  let (found, _) ← app.userDb.getUserByUsernameImpl body.username
  match found with
  | .error _ => return none
  | .ok user =>
      match ← user.verifyPassword app.libraries body.password with
      | .ok true => return some user
      | _ => return none

/-- Everything before the session is set: the user that logs in, or the status of
a rejected login. -/
def authenticate (app : Application) (ex : Exchange) : Backend (Option User × Exchange) := do
  let (auth, ex) ← isAuthImpl ex
  if auth then
    return (none, setStatus statusForbidden ex)
  else
    match ← parseBody app.libraries ex.req with
    | .error _ => return (none, setStatus statusUnauthorized ex)
    | .ok body =>
        if body.username = [] ∨ body.password = [] then
          return (none, setStatus statusUnauthorized ex)
        else
          match ← checkUser app body with
          | none => return (none, setStatus statusUnauthorized ex)
          | some user => return (some user, ex)

def execute (app : Application) (rounds : Nat) (ex : Exchange) : Backend Exchange := do
  let (found, ex) ← authenticate app ex
  match found with
  | none => return ex
  | some user =>
      let (_, ex) ← setSessionUserImpl app.libraries rounds user ex
      return setStatus statusNoContent ex

end LoginAuthUseCase

/-! ## Logout -/

/-- The user is only read again to be named in the log. -/
def LogoutAuthUseCase.execute (app : Application) (ex : Exchange) : Backend Exchange := do
  let (auth, ex) ← isAuthImpl ex
  if auth then
    let (logout, ex) ← clearSessionUserImpl ex
    if logout then
      return setStatus statusNoContent ex
    else
      let (_, ex) ← getSessionUserImpl app.libraries ex
      return setStatus statusInternalServerError ex
  else
    return setStatus statusUnauthorized ex

/-! ## User -/

def userJson (id username : Bytes) : JsonValue :=
  .object [(ascii "id", .string id), (ascii "username", .string username)]

def UserAuthUseCase.execute (app : Application) (ex : Exchange) : Backend Exchange := do
  let (auth, ex) ← isAuthImpl ex
  if auth then
    let (user, ex) ← getSessionUserImpl app.libraries ex
    match user with
    | none => return setStatus statusInternalServerError ex
    | some user =>
        match app.libraries.jsonDump (userJson user.id user.username) with
        | none => terminate
        | some body =>
            return setStatus statusOk (setContentType .applicationJson (setBody body ex))
  else
    return setStatus statusUnauthorized ex

/-! ## Register -/

namespace RegisterAuthUseCase

def parseBody (libraries : Libraries) (req : Request) : Except Log AuthBody :=
  if req.body = [] then .error { msg := ascii "Empty Body" } else parseJsonBody libraries req.body

/-- The user of a body is made, hashed and stored. -/
def addUser (app : Application) (body : AuthBody) (ex : Exchange) : Backend Exchange := do
  match (makeUser body.username).1 with
  | .error log => return setStatus statusBadRequest (setBodyRows log.errors ex)
  | .ok user =>
      match user.setPassword body.password with
      | (some _, _) => return setStatus statusBadRequest (setBody (ascii "Invalid password") ex)
      | (none, user) =>
          match ← user.hashPassword app.libraries app.crypto with
          | (some _, _) => return setStatus statusBadRequest (setBody (ascii "Could not hash") ex)
          | (none, user) =>
              match ← app.userDb.addUserImpl user with
              | .error error =>
                  if error.dbContraint = ascii "users_username_key" then
                    return setStatus statusBadRequest (setBody (ascii "Username already taken") ex)
                  else
                    return setStatus statusBadRequest (setBody error.msg ex)
              | .ok id => return setStatus statusCreated (setBody id ex)

def execute (app : Application) (ex : Exchange) : Backend Exchange := do
  let (auth, ex) ← isAuthImpl ex
  if auth then
    return setStatus statusForbidden ex
  else
    match parseBody app.libraries ex.req with
    | .error log => return setStatus statusBadRequest (setBody log.msg ex)
    | .ok body =>
        if body.username = [] ∨ body.password = [] then
          return setStatus statusBadRequest (setBody (ascii "Empty username/password") ex)
        else
          addUser app body ex

end RegisterAuthUseCase

/-! ## Endpoints -/

inductive Endpoint
  | user
  | login
  | logout
  | register
  deriving DecidableEq

/-- The callback of an endpoint. -/
def Endpoint.handle (app : Application) (rounds : Nat) (endpoint : Endpoint) (ex : Exchange) :
    Backend Exchange :=
  match endpoint with
  | .user => UserAuthUseCase.execute app ex
  | .login => LoginAuthUseCase.execute app rounds ex
  | .logout => LogoutAuthUseCase.execute app ex
  | .register => RegisterAuthUseCase.execute app ex

end CleanArchitecture
