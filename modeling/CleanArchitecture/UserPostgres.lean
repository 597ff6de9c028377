import CleanArchitecture.Postgres
import CleanArchitecture.UserEntity

/-! # The users table behind its two statements -/

namespace CleanArchitecture

open Backend

structure UserPostgres where
  getUserStatement : PostgresStatement
  addUserStatement : PostgresStatement

namespace UserPostgres

def getUserTypes : List Int := [0]
def addUserTypes : List Int := [0, 0]

def getUserQuery : Bytes :=
  ascii "SELECT id, username, password\nFROM   users\nWHERE  username=$1\nLIMIT  1;"

def addUserQuery : Bytes :=
  ascii "INSERT INTO users (username, password)\nVALUES ($1, $2)\nRETURNING id;"

theorem cStr_getUserQuery : cStr getUserQuery = getUserQuery := by
  decide +kernel

theorem cStr_addUserQuery : cStr addUserQuery = addUserQuery := by
  decide +kernel

theorem addUserQuery_ne : addUserQuery ≠ getUserQuery := by
  decide +kernel

/-- The constructor; a log of `prepare` would be dereferenced as a statement. -/
def construct (pg : Postgres) : Except Log UserPostgres := do
  let getUser ← pg.prepare getUserQuery getUserTypes.length (getUserTypes.map toUint32)
  let addUser ← pg.prepare addUserQuery addUserTypes.length (addUserTypes.map toUint32)
  return { getUserStatement := getUser, addUserStatement := addUser }

/-- The statements of a users table that was built on a `Postgres` object. -/
structure Built (userDb : UserPostgres) (name : Bytes) : Prop where
  getUserName : userDb.getUserStatement.name = name
  addUserName : userDb.addUserStatement.name = name
  getUserText : cStr userDb.getUserStatement.query = getUserQuery
  addUserText : cStr userDb.addUserStatement.query = addUserQuery

/-- Both statements are called the same. -/
theorem built_of_construct {pg : Postgres} {userDb : UserPostgres}
    (constructed : construct pg = .ok userDb) : Built userDb pg.getName := by
  cases constructed
  exact ⟨rfl, rfl, cStr_getUserQuery, cStr_addUserQuery⟩

variable (userDb : UserPostgres)

/-- The query sees the username as the caller wrote it; the user is made after it,
which trims the caller's string. -/
def getUserByUsernameImpl (username : Bytes) : Backend (Except Log User × Bytes) := do
  match ← Postgres.query userDb.getUserStatement [username] getUserTypes with
  | .error log => return (.error { log with db := ascii "users" }, username)
  | .ok result =>
      if pqNtuples result = 0 then
        pqClear result
        return (.error
          { msg := ascii "User not found"
            file := ascii "db/user/pg.cpp"
            function := ascii "get_user_by_username_impl"
            db := ascii "users" }, username)
      else
        let id ← dereference (pqGetvalue result 0 0)
        let hashed ← dereference (pqGetvalue result 0 2)
        pqClear result
        return makeUserHashed (cStr id) username (cStr hashed)

/-- The id of the row that was added. -/
def addUserImpl (user : User) : Backend (Except Log Bytes) := do
  match ← Postgres.query userDb.addUserStatement [user.username, user.hashed] addUserTypes with
  | .error log => return .error { log with db := ascii "users" }
  | .ok result =>
      let id ← dereference (pqGetvalue result 0 0)
      pqClear result
      return .ok (cStr id)

end UserPostgres

end CleanArchitecture
