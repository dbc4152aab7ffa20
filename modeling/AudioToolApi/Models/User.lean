/-
`user_model` (models/user.cpp).
-/
import AudioToolApi.Models.Session

namespace AudioToolApi

structure User where
  id : Int
  emailAddress : Bytes
  currentSession : Session
  deriving DecidableEq, Repr

def User.new (env : Env) : User where
  id := env.uninit.userId
  emailAddress := []
  currentSession := .new env

/-- `operator nlohmann::json`. -/
def User.toJson (u : User) : Json :=
  jsonify [(text "email_address", .string u.emailAddress), (text "id", .int u.id)]

def User.createSession (env : Env) (u : User) : Act User := do
  let s ← Session.create env u.id
  return { u with currentSession := s }

def noUser : Bytes := text "No user found for ID provided"

def User.fillById (u : User) (id : Int) : Act User := do
  let rows ← select fun w => w.db.users.filter (·.id = id)
  let row ← firstRow noUser rows
  return { u with id, emailAddress := row.email }

def User.fillByEmail (u : User) (emailAddress : Bytes) : Act User := do
  let rows ← select fun w => w.db.users.filter (·.email = emailAddress)
  let row ← firstRow noUser rows
  return { u with id := row.id, emailAddress }

def User.fillByToken (u : User) (token : Bytes) : Act User := do
  let rows ← select (liveSessions token)
  let row ← firstRow (text "No user by that token") rows
  let u ← { u with id := row.userId }.fillById row.userId
  return { u with currentSession := { created := row.created, expires := row.expires, userId := row.userId, token } }

/-- `strcmp(a, b) == 0`, on the bytes from the two addresses on. -/
def strcmpEq (a b : Bytes) : Bool := cStr a == cStr b

/-- `authenticate`, once the hashes compare equal. -/
def User.logIn (env : Env) (u : User) (userId : Int) : Act (Bool × User) := do
  let u ← u.fillById userId
  let u ← u.createSession env
  return (true, u)

def User.authenticate (env : Env) (u : User) (email pass : Bytes) : Act (Bool × User) := do
  let rows ← select fun w => w.db.users.filter (·.email = email)
  -- no `row_count()` before `row()`
  let row ← firstRow noRowLeft rows
  match env.pbkdf2 pass row.nacl with
  | none => throw (.runtime (text "Could not generate hash on authentication"))
  | some testHash =>
    if strcmpEq (row.hash.val ++ env.afterHash) (testHash.val ++ env.afterTestHash) then u.logIn env row.id
    else return (false, u)

/-- The row that `user_model::create` inserts. -/
def insertUser (email : Bytes) (hash nacl : Block) (w : World) : World :=
  { w with
    lastInsertId := w.db.nextUser
    db := { w.db with
      nextUser := w.db.nextUser + 1
      users := w.db.users ++ [{ id := w.db.nextUser, email, hash, nacl }] } }

/-- That the check fails is logged, and nothing more. -/
def User.create (env : Env) (u : User) (email password : Bytes) : Act User := do
  let salt ← randBytes env
  match env.pbkdf2 password salt with
  | none => throw (.runtime (text "Could not generate hash on user creation"))
  | some hash =>
    execute (insertUser email hash salt)
    let (_, u) ← u.authenticate env email password
    return u

def User.refreshSession (u : User) : Act Unit := u.currentSession.refresh

end AudioToolApi
