/-
`base_handler` and `base_model_handler` (handlers/base_handler.h), with the
response they fill in (http/http_response.cpp). A handler is the record of
its virtual methods; a method acts on the handler's members, on
`request_data.json` and on the world.
-/
import AudioToolApi.Http.Request
import AudioToolApi.Models.User
import AudioToolApi.Models.File
import AudioToolApi.Models.Project

namespace AudioToolApi

/-! ## The response -/

/-- `json_content` or `body_content`, as `use_json_body` says. -/
inductive Content
  | json (j : Json)
  | body (s : Bytes)

structure HTTPResponse where
  headers : Params
  status : Int
  contentType : Bytes
  content : Content := .body []

def HTTPResponse.getContent (r : HTTPResponse) : Except Bytes Bytes :=
  match r.content with
  | .json j => j.dump
  | .body s => .ok s

/-! ## Handlers -/

/-- `response_data`, of whichever model. -/
inductive ResponseData
  | none
  | user (u : User)
  | file (f : File)
  | files (fs : List File)
  | project (p : Project)
  | projects (ps : List Project)

def ResponseData.toJson : ResponseData → Json
  | .none => .null
  | .user u => u.toJson
  | .file f => f.toJson
  | .files fs => .array (fs.map File.toJson)
  | .project p => p.toJson
  | .projects ps => .array (ps.map Project.toJson)

structure Handling where
  world : World
  response : HTTPResponse
  user : User
  responseData : ResponseData
  /-- `request_data.json`. -/
  json : Json := .null

abbrev Handle := EStateM Exn Handling

/-- A member of the handler. -/
def member {α : Type} (p : Handling → α) : Handle α := fun h => .ok (p h) h

/-- A call that reaches no further than the world. -/
def inWorld {α : Type} (x : Act α) : Handle α := fun h =>
  match x h.world with
  | .ok a world => .ok a { h with world }
  | .error e world => .error e { h with world }

structure Handler where
  requiresAuthentication : Bool := true
  /-- `response_data`, as constructed. -/
  responseData : ResponseData := .none
  setup : HttpRequest → Handle Unit
  head : HttpRequest → Handle Unit
  options : HttpRequest → Handle Unit
  get : HttpRequest → Handle Unit
  post : HttpRequest → Handle Unit
  put : HttpRequest → Handle Unit
  delete_ : HttpRequest → Handle Unit
  finish : HttpRequest → Handle Unit

def setContent (c : Content) : Handle Unit :=
  modify fun h => { h with response := { h.response with content := c } }

def setStatus (status : Int) : Handle Unit :=
  modify fun h => { h with response := { h.response with status } }

def emplaceHeader (name value : Bytes) : Handle Unit :=
  modify fun h => { h with response := { h.response with headers := h.response.headers.emplace name value } }

def setResponseData (d : ResponseData) : Handle Unit := modify fun h => { h with responseData := d }

/-- What `base_handler` does for every verb. -/
def notFound : Handle Unit := do
  setContent (.body (text "404 Route not found"))
  setStatus 404

def baseHandler : Handler where
  setup _ := pure ()
  head _ := notFound
  options _ := notFound
  get _ := notFound
  post _ := notFound
  put _ := notFound
  delete_ _ := notFound
  finish _ := pure ()

/-- The constructor of `base_handler`. -/
def Handler.construct (env : Env) (handler : Handler) (world : World) : Handling where
  world := { world with lastInsertId := 0 }
  response := {
    headers := [(text "Access-Control-Allow-Origin", text "*")]
    status := 200
    contentType := text "application/json" }
  user := .new env
  responseData := handler.responseData

/-- `http_request::parse_json`. -/
def parseJson (env : Env) (r : HttpRequest) : Handle Json := do
  if r.body.length > 0 ∧ (find (text "json") r.contentType).isSome then
    let j ← orThrow (env.parse r.body)
    modify fun h => { h with json := j }
  member (·.json)

/-- `base_model_handler::finish`. -/
def finishModel : Handle Unit := do
  let responseData ← member (·.responseData)
  let status ← member (·.response.status)
  setContent (.json (jsonify [(text "output", responseData.toJson), (text "status", .int status)]))

/-- `base_model_handler<model_type>`, with its `response_data`. -/
def baseModelHandler (env : Env) (responseData : ResponseData) : Handler :=
  { baseHandler with responseData, setup := fun r => discard (parseJson env r), finish := fun _ => finishModel }

/-- The string or number at `key`, as `request_data.json[key]` converts. -/
def jsonString (j : Json) (key : Bytes) : Handle Bytes := do orThrow (← orThrow (j.at key)).toString

def jsonInt (j : Json) (key : Bytes) : Handle Int := do orThrow (← orThrow (j.at key)).toInt

/-- `throw http_exception(400, ...)`, unless the check holds. -/
def require (check : Bool) (what : Bytes) : Handle Unit := if check then pure () else throw (.http 400 what)

end AudioToolApi
