import CleanArchitecture.HttpMessage
import CleanArchitecture.RedisStore
import CleanArchitecture.UserEntity

/-!
# Sessions of requests

The adapter reads and writes the session of a request in the store.  A request
without a session id is given a random one the first time its key is asked for.
-/

namespace CleanArchitecture

open Backend

def alphabet : Bytes :=
  ascii "abcdefghijklmnopqrstuvwxyzABCDEFGHIJKLMNOPQRSTUVWXYZ0123456789"

def alphabetLen : Nat := alphabet.length

def sessionPrefix : Bytes := ascii "sess:"

def sessionName : Bytes := ascii "SESSION"

/-- The request and the response that an adapter points to. -/
structure Exchange where
  req : Request := {}
  res : Response := {}
  deriving DecidableEq

/-- The id spelt by the random words. -/
def spellId (buffer : Fin sessionIdLength → UInt64) : Bytes :=
  List.ofFn fun i => alphabet.getD ((buffer i).toNat % alphabetLen) 0

namespace WrapperRequest

/-- The session id of a request, drawn if it is empty. -/
def getSessionIdImpl (ex : Exchange) : Backend (Bytes × Exchange) := do
  if ex.req.sessionId ≠ [] then
    return (ex.req.sessionId, ex)
  else
    let buffer ← getrandom
    return (spellId buffer, { ex with req := { ex.req with sessionId := spellId buffer } })

def getSessionKey (ex : Exchange) : Backend (Bytes × Exchange) := do
  let (sid, ex) ← getSessionIdImpl ex
  return (sessionPrefix ++ sid, ex)

/-- Ids are drawn until one has no key in the store; `rounds` bounds the loop. -/
def getNewSessionIdImpl (rounds : Nat) (ex : Exchange) : Backend (Bytes × Exchange) :=
  match rounds with
  | 0 => outOfRounds
  | rounds + 1 => do
      let buffer ← getrandom
      let (key, ex) ← getSessionKey
        { ex with req := { ex.req with sessionId := spellId buffer } }
      if ← IStore.exists key then
        getNewSessionIdImpl rounds ex
      else
        return (ex.req.sessionId, ex)

def isAuthImpl (ex : Exchange) : Backend (Bool × Exchange) := do
  let (key, ex) ← getSessionKey ex
  return (← IStore.exists key, ex)

/-- The cookie of a session: its value and its age. -/
def sessionCookie (sid : Bytes) (maxAge : Int) : Cookie :=
  { name := sessionName
    value := sid
    path := ascii "/"
    sameSite := ascii "strict"
    maxAge := maxAge
    secure := false
    httpOnly := false }

def pushCookie (ex : Exchange) (cookie : Cookie) : Exchange :=
  { ex with res := { ex.res with cookies := ex.res.cookies ++ [cookie] } }

/-- The result of the write is not looked at. -/
def setSessionUserImpl (libraries : Libraries) (rounds : Nat) (user : User) (ex : Exchange) :
    Backend (Option Log × Exchange) := do
  let (sid, ex) ← getNewSessionIdImpl rounds ex
  let (key, ex) ← getSessionKey ex
  let _ ← IStore.setByteArray key (libraries.createUser user.id user.username)
  return (none, pushCookie ex (sessionCookie sid 3600))

/-- The user that the store holds under the request's key. -/
def getSessionUserImpl (libraries : Libraries) (ex : Exchange) :
    Backend (Option User × Exchange) := do
  let (key, ex) ← getSessionKey ex
  match ← IStore.getByteArray key with
  | .ok (some userData) =>
      if libraries.userVerify userData = true then
        let id ← dereference (libraries.userId userData)
        let username ← dereference (libraries.userUsername userData)
        return (some { id := cStr id, username := cStr username }, ex)
      else
        return (none, ex)
  | _ => return (none, ex)

def clearSessionUserImpl (ex : Exchange) : Backend (Bool × Exchange) := do
  let (key, ex) ← getSessionKey ex
  if ← IStore.del key then
    return (true, pushCookie ex (sessionCookie [] 0))
  else
    return (false, ex)

end WrapperRequest

end CleanArchitecture
