/-
`session` (models/session.cpp).
-/
import AudioToolApi.Utilities.Environment

namespace AudioToolApi

structure Session where
  token : Bytes
  expires : Int
  created : Int
  userId : Int
  deriving DecidableEq, Repr

def sessionLength : Int := 60 * 60

/-- A `session` that nothing was written to. -/
def Session.new (env : Env) : Session where
  token := []
  expires := env.uninit.sessionExpires
  created := env.uninit.sessionCreated
  userId := env.uninit.sessionUserId

/-- `RAND_bytes`. -/
def randBytes (env : Env) : Act Block := modifyGet fun w => (env.random w.draws, { w with draws := w.draws + 1 })

def createToken (env : Env) : Act Bytes := return base64Encode (← randBytes env)

/-- The row that `session::create` inserts. -/
def insertSession (userId : Int) (token : Bytes) (w : World) : World :=
  { w with
    lastInsertId := w.db.nextSession
    db := { w.db with
      nextSession := w.db.nextSession + 1
      sessions := w.db.sessions ++
        [{ id := w.db.nextSession, userId, token, created := w.now, expires := w.now + sessionLength }] } }

def Session.create (env : Env) (userId : Int) : Act Session := do
  let newToken ← createToken env
  execute (insertSession userId newToken)
  let rows ← select fun w => w.db.sessions.filter (·.token = newToken)
  let row ← firstRow (text "Session did not insert properly into the database") rows
  return { userId, token := newToken, created := row.created, expires := row.expires }

/-- `UPDATE sessions SET expires = ... WHERE token=? AND user_id=?`. -/
def refreshSessions (token : Bytes) (userId : Int) (w : World) : World :=
  { w with db := { w.db with
    sessions := w.db.sessions.map fun r =>
      if r.token = token ∧ r.userId = userId then { r with expires := w.now + sessionLength } else r } }

def Session.refresh (s : Session) : Act Unit := execute (refreshSessions s.token s.userId)

/-- The rows that `token=? AND expires > UNIX_TIMESTAMP()` selects. -/
def liveSessions (token : Bytes) (w : World) : List SessionRow :=
  w.db.sessions.filter fun r => r.token = token ∧ w.now < r.expires

/-- The statement is bound to the member `token`, not to the parameter. -/
def Session.lookup (s : Session) (token : Bytes) : Act Session := do
  let rows ← select (liveSessions s.token)
  let row ← firstRow (text "No sessions found for this token") rows
  return { s with created := row.created, expires := row.expires, userId := row.userId, token }

end AudioToolApi
