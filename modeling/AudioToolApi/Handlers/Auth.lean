/-
`auth_handler` (handlers/auth.cpp).
-/
import AudioToolApi.Handlers.Base
import AudioToolApi.Utilities.Requests

namespace AudioToolApi

/-- The form that `get_token` posts. `curl_easy_unescape` gives a C string. -/
def tokenForm (env : Env) (code : Bytes) : Bytes :=
  text "code=" ++ urlEncode (cStr (env.unescape code)) ++
  text "&client_id=" ++ urlEncode env.googleAuthClientId ++
  text "&client_secret=" ++ urlEncode env.googleAuthSecret ++
  text "&redirect_uri=https://audiotool.v3x.pw/api/auth" ++ text "&grant_type=authorization_code"

def getToken (env : Env) (code : Bytes) : Act Bytes := do
  let j ← orThrow (env.parse (env.tokenReply (tokenForm env code)))
  match j.find (text "access_token") with
  | some token => orThrow token.toString
  | none => throw (.runtime (text "Did not receive access token during Google OAuth flow"))

/-- The values of `j.items()`. -/
def Json.items : Json → List Json
  | .null => []
  | .array items => items
  | .object members => members.map Prod.snd
  | j => [j]

/-- `return nullptr`, as a `string`. -/
def nullString : Bytes := text "basic_string::_M_construct null not valid"

def getEmail (env : Env) (token : Bytes) : Act Bytes := do
  let people ← orThrow (env.parse (env.peopleReply token))
  match people.find (text "emailAddresses") with
  | some addresses =>
    -- entries without a `value` are passed over
    match addresses.items.findSome? fun el => el.find (text "value") with
    | some value => orThrow value.toString
    | none => throw (.std nullString)
  | none =>
    if let some error := people.find (text "error") then
      let _ ← orThrow error.dump
    throw (.std nullString)

/-- The token, with `/`, `+` and `=` escaped. -/
def escapeToken (token : Bytes) : Bytes :=
  token.flatMap fun c =>
    if c = 47 then text "%2F" else if c = 43 then text "%2B" else if c = 61 then text "%3D" else [c]

/-- The `try` block of `auth_handler::get`. -/
def oauthLogin (env : Env) (code : Bytes) : Handle Unit := do
  let token ← inWorld (getToken env code)
  let emailAddress ← inWorld (getEmail env token)
  let user ← inWorld ((← member (·.user)).fillByEmail emailAddress)
  modify fun h => { h with user }
  let user ← inWorld (user.createSession env)
  modify fun h => { h with user }
  emplaceHeader (text "Location")
    (text "https://audiotool.v3x.pw/login/success/" ++ escapeToken user.currentSession.token)

def badAuth : Handle Unit := emplaceHeader (text "Location") (text "https://audiotool.v3x.pw/login/error/badAuth")

def authGet (env : Env) (r : HttpRequest) : Handle Unit := do
  setStatus 302
  if r.hasParam (text "error") then badAuth
  else
    match r.urlParams.lookup (text "code") with
    | some code => catchRuntime (oauthLogin env code) fun _ => badAuth
    | none => badAuth

/-- The `session-token` header and the user, once a session is there. -/
def answerSession : Handle Unit := do
  let user ← member (·.user)
  emplaceHeader (text "session-token") user.currentSession.token
  setContent (.json user.toJson)

def authPost (env : Env) (r : HttpRequest) : Handle Unit := do
  let j ← parseJson env r
  let email ← jsonString j (text "email")
  let pass ← jsonString j (text "password")
  let (didAuthenticate, user) ← inWorld ((← member (·.user)).authenticate env email pass)
  modify fun h => { h with user }
  if didAuthenticate then
    let user ← inWorld (user.createSession env)
    modify fun h => { h with user }
    answerSession
  else throw (.http 403 (text "Authentication Failed"))

def authPut (env : Env) (r : HttpRequest) : Handle Unit := do
  let j ← parseJson env r
  let email ← jsonString j (text "email")
  let pass ← jsonString j (text "password")
  let user ← inWorld ((← member (·.user)).create env email pass)
  modify fun h => { h with user }
  let user ← inWorld (user.createSession env)
  modify fun h => { h with user }
  answerSession

def authHandler (env : Env) : Handler :=
  { baseHandler with
    requiresAuthentication := false, get := authGet env, post := authPost env, put := authPut env }

end AudioToolApi
