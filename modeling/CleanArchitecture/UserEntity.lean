import CleanArchitecture.Backend
import CleanArchitecture.StringUtils

/-!
# Users and their passwords

A user is built from a username that is trimmed in the caller's string before
its length is checked.  Passwords are hashed and verified by argon2.
-/

namespace CleanArchitecture

open Backend

/-! ## Passwords -/

namespace MainCrypto

/-- The encoded hash is read up to the length that was computed for it. -/
def hashImpl (libraries : Libraries) (crypto : MainCrypto) (password : Bytes) :
    Backend (Except Log Bytes) := do
  let (err, encoded) ← argon2idHashEncoded crypto password
  if err ≠ argon2Ok then
    return .error
      { msg := libraries.argon2ErrorMessage err
        file := ascii "interfaces/crypto/main.cpp"
        function := ascii "hash_impl" }
  else
    return .ok (encoded.take crypto.encodedLen)

def verifyImpl (libraries : Libraries) (password hashed : Bytes) : Backend (Except Log Bool) := do
  let err ← argon2idVerify (cStr hashed) password
  if err = argon2Ok then
    return .ok true
  else if err = argon2VerifyMismatch then
    return .ok false
  else
    return .error
      { msg := libraries.argon2ErrorMessage err
        file := ascii "interfaces/crypto/main.cpp"
        function := ascii "hash_impl" }

end MainCrypto

/-! ## The entity -/

structure User where
  id : Bytes := []
  username : Bytes := []
  password : Bytes := []
  hashed : Bytes := []
  deriving DecidableEq

def errorMsg : Bytes := ascii "User Validation Error"

def passwordMin : Nat := 8
def passwordMax : Nat := 60

namespace User

/-- The log of a rejected password. -/
def passwordLog (error : String) : Log :=
  { msg := errorMsg
    file := ascii "entities/user/build.hpp"
    errors := [ascii error] }

/-- The length is compared as a `uint`. -/
def setPassword (user : User) (password : Bytes) : Option Log × User :=
  if toUint32 password.length < passwordMin then (some (passwordLog "password: min"), user)
  else if toUint32 password.length > passwordMax then (some (passwordLog "password: max"), user)
  else (none, { user with password := password })

theorem setPassword_accepted {user set : User} {password : Bytes}
    (accepted : user.setPassword password = (none, set)) :
    set = { user with password := password } := by
  unfold setPassword at accepted
  split_ifs at accepted
  · cases accepted
  · cases accepted
  · cases accepted
    rfl

def hashPassword (libraries : Libraries) (crypto : MainCrypto) (user : User) :
    Backend (Option Log × User) := do
  match ← crypto.hashImpl libraries user.password with
  | .error log => return (some log, user)
  | .ok hash => return (none, { user with hashed := hash })

def verifyPassword (libraries : Libraries) (user : User) (password : Bytes) :
    Backend (Except Log Bool) :=
  MainCrypto.verifyImpl libraries password user.hashed

end User

/-! ## The factory -/

def usernameMin : Nat := 8
def usernameMax : Nat := 60

/-- The error of a username and the username as the caller has it afterwards. -/
def validateUsername (username : Bytes) : Option Bytes × Bytes :=
  let trimmed := trim username
  if trimmed.length < usernameMin then (some (ascii "username: min"), trimmed)
  else if trimmed.length > usernameMax then (some (ascii "username: max"), trimmed)
  else (none, trimmed)

/-- The overloads of `make_user` differ in the function that their log names and
in the members they set beside the username. -/
def makeUserWith (function : String) (user : User) (username : Bytes) : Except Log User × Bytes :=
  match validateUsername username with
  | (some err, trimmed) =>
      (.error
        { msg := errorMsg
          file := ascii "src/entities/factory.cpp"
          function := ascii function
          errors := [err] }, trimmed)
  | (none, trimmed) => (.ok { user with username := trimmed }, trimmed)

/-- `make_user(id, username, hashed)`. -/
def makeUserHashed (id username hashed : Bytes) : Except Log User × Bytes :=
  makeUserWith
    "entity::make_user(std::string& id, std::string& username, std::string& hashed)"
    { id := id, hashed := hashed } username

/-- `make_user(id, username)`. -/
def makeUserId (id username : Bytes) : Except Log User × Bytes :=
  makeUserWith "entity::make_user(std::string& id, std::string& username)" { id := id } username

/-- `make_user(username)`. -/
def makeUser (username : Bytes) : Except Log User × Bytes :=
  makeUserWith "entity::make_user(std::string& id)" {} username

/-- Whether a username is valid does not depend on the other members. -/
theorem makeUserWith_ok {function : String} {user made : User} {username trimmed : Bytes} :
    makeUserWith function user username = (.ok made, trimmed) ↔
      (usernameMin ≤ (trim username).length ∧ (trim username).length ≤ usernameMax) ∧
        made = { user with username := trim username } ∧ trimmed = trim username := by
  unfold makeUserWith validateUsername
  simp only
  split_ifs with short long
  · simp
    omega
  · simp
    omega
  · simp only [Prod.mk.injEq, Except.ok.injEq, eq_comm]
    constructor
    · rintro ⟨rfl, rfl⟩
      exact ⟨⟨by omega, by omega⟩, rfl, rfl⟩
    · rintro ⟨-, rfl, rfl⟩
      exact ⟨rfl, rfl⟩

end CleanArchitecture
