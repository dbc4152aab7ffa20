/-
`http_worker::process` (http/http_worker.cpp): routing, the authentication
gate, the handler, and the response that is written.
-/
import AudioToolApi.Handlers.Auth
import AudioToolApi.Handlers.Files
import AudioToolApi.Handlers.Project

namespace AudioToolApi

/-! ## Routes -/

/-- `test_handler`. -/
def testHandler (env : Env) : Handler :=
  { baseHandler with
    requiresAuthentication := false
    get := fun _ => setContent (.json (jsonify [(text "response", .string (base64Encode env.urandom))])) }

/-- `user_handler`. -/
def userHandler (env : Env) : Handler :=
  { baseModelHandler env (.user (.new env)) with
    get := fun _ => do setResponseData (.user (← member (·.user))) }

/-- `application_routes`. -/
def applicationRoutes (env : Env) : List (Bytes × Handler) :=
  [(text "/", baseHandler), (text "/test", testHandler env), (text "/auth", authHandler env),
    (text "/user", userHandler env), (text "/file", fileHandler env), (text "/file_data", fileDataHandler env),
    (text "/files", fileListHandler env), (text "/project", projectHandler env),
    (text "/projects", projectListHandler env)]

/-- The path, without `path_prefix` if it starts with that. -/
def strippedPath (env : Env) (path : Bytes) : Bytes :=
  if env.pathPrefix.length > 0 ∧ find env.pathPrefix path = some 0 then path.drop env.pathPrefix.length else path

def findRoute (env : Env) (routes : List (Bytes × Handler)) (path : Bytes) : Option Handler :=
  routes.lookup (strippedPath env path)

/-! ## The response -/

/-- `http::response<http::string_body>`, as it is written. -/
structure Response where
  status : Nat
  contentType : Bytes
  headers : Params
  body : Bytes
  deriving DecidableEq, Repr

/-- The members of the handler, and what `write()` was called with. -/
structure Serving where
  handling : Handling
  written : List Response := []

abbrev Serve := EStateM Exn Serving

def inHandler {α : Type} (x : Handle α) : Serve α := fun s =>
  match x s.handling with
  | .ok a handling => .ok a { s with handling }
  | .error e handling => .error e { s with handling }

def write (r : Response) : Serve Unit := modify fun s => { s with written := s.written ++ [r] }

/-- The statuses whose responses have no body. -/
def bodiless (status : Nat) : Bool := 100 ≤ status && status < 200 || status = 204 || status = 304

/-- `prepare_payload`. -/
def preparePayload (status : Nat) (body : Bytes) : Serve Unit :=
  if bodiless status ∧ body.length > 0 then throw (.std (text "invalid response body")) else pure ()

/-- `response->result(unsigned)`. -/
def checkStatus (status : Int) : Serve Unit :=
  if 0 ≤ status ∧ status ≤ 999 then pure () else throw (.std (text "invalid status-code"))

/-- `build_response(HTTPResponse &)`. -/
def buildResponse (r : HTTPResponse) : Serve Unit := do
  checkStatus r.status
  let body ← orThrow r.getContent
  preparePayload r.status.toNat body
  write { status := r.status.toNat, contentType := r.contentType, headers := r.headers, body }

/-- The body of an error. -/
def errorJson (status : Nat) (message : Bytes) : Json :=
  jsonify [(text "message", .string message), (text "status", .int status)]

/-- `build_response(http::status, string)`. -/
def buildError (status : Nat) (message : Bytes) : Serve Unit := do
  let body ← orThrow (errorJson status message).dump
  preparePayload status body
  write { status, contentType := text "application/json", headers := [], body }

/-! ## `process` -/

def unauthorized (message : Bytes) : Serve Bool := do
  buildError 401 message
  return false

/-- `fill_by_token`, or what the exception says. -/
def lookUp (token : Bytes) : Serve (Except Bytes User) := do
  let user := (← get).handling.user
  catchRuntime (do return .ok (← inHandler (inWorld (user.fillByToken token)))) fun what => return .error what

/-- A failed refresh is only logged. -/
def letIn (user : User) : Serve Bool := do
  modify fun s => { s with handling := { s.handling with user } }
  catchRuntime (inHandler (inWorld user.refreshSession)) fun _ => pure ()
  return true

/-- The authentication gate; `false` once it has answered. -/
def gate (req : Request) : Serve Bool := do
  match req.find (text "session-token") with
  | none => unauthorized (text "Unauthorized")
  | some token =>
    match ← lookUp token with
    | .error what => unauthorized (text "Unauthorized: " ++ what)
    | .ok user => letIn user

/-- The method of the verb; `none` where `process` has none. -/
def Handler.method (handler : Handler) : Verb → Option (HttpRequest → Handle Unit)
  | .head => some handler.head
  | .options => some handler.options
  | .get => some handler.get
  | .post => some handler.post
  | .put => some handler.put
  | .delete_ => some handler.delete_
  | .other => none

/-- The calls of the handler, in the `try` block; `false` where there is no
method to call. -/
def Handler.run (handler : Handler) (r : HttpRequest) : Handle Bool := do
  handler.setup r
  match handler.method r.verb with
  | some method =>
    method r
    handler.finish r
    return true
  | none => return false

/-- The `try` block; `false` once it has answered. -/
def runHandler (handler : Handler) (req : Request) (r : HttpRequest) : Serve Bool := do
  let known ← inHandler (handler.run r)
  if !known then buildError 400 (text "Invalid request-method '" ++ req.methodString ++ text "'\r\n")
  return known

/-- Its `catch` clauses. -/
def answerException (env : Env) : Exn → Serve Bool
  | .http code what => do
    buildError (env.intToStatus code) what
    return false
  | .runtime what | .std what => do
    buildError 500 (text "There was an error processing your request – Please wait and try again: " ++ what)
    return false
  | .other => do
    buildError 500 (text "Unhandled exception caught by the server – Please wait and try again")
    return false
  | .gone => throw .gone

/-- The `try` block, its `catch` clauses, and the response. -/
def handle (env : Env) (handler : Handler) (req : Request) (r : HttpRequest) : Serve Unit := do
  let returned ← tryCatch (runHandler handler req r) (answerException env)
  if returned then buildResponse (← get).handling.response

/-- What follows once the handler is found. -/
def serve (env : Env) (handler : Handler) (req : Request) (r : HttpRequest) : Serve Unit := do
  let passed ← if handler.requiresAuthentication then gate req else pure true
  if passed then handle env handler req r

/-- `http_worker::process`. -/
def process (env : Env) (routes : List (Bytes × Handler)) (req : Request) (world : World) :
    EStateM.Result Exn Serving Unit :=
  match httpRequest req with
  | none => .error .gone { handling := baseHandler.construct env world }
  | some r =>
    match findRoute env routes r.path with
    | none => buildError 404 (text "Route not found") { handling := baseHandler.construct env world }
    | some handler => serve env handler req r { handling := handler.construct env world }

end AudioToolApi
