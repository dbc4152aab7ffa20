/-
`file_handler`, `file_data_handler` and `file_list_handler`
(handlers/files.cpp).
-/
import AudioToolApi.Handlers.Base

namespace AudioToolApi

/-- `AP` on a file: `process`, `get_output_content` and
`get_output_samplerate`. -/
def processAudio (env : Env) (content : Bytes) : Handle (Bytes × Int) :=
  match env.audio content with
  | .output content sampleRate => pure (content, sampleRate)
  | .threw => throw .other
  | .gone => throw .gone

def fileGet (env : Env) : Handle Unit := do
  let json ← member (·.json)
  require (json.find (text "guid")).isSome (text "Must provide GUID of file")
  let guid ← jsonString json (text "guid")
  let f ← inWorld ((File.new env).fillByGuid guid false)
  setResponseData (.file f)

def filePost (env : Env) (r : HttpRequest) : Handle Unit := do
  require (r.hasParam (text "name")) (text "Must include name in URL parameters")
  match r.files with
  | [] => throw (.http 400 (text "Must send at least one file to use this endpoint"))
  | file :: _ =>
    let (data, sampleRate) ← processAudio env file
    let name := (r.urlParams.lookup (text "name")).getD []
    let userId ← member (·.user.id)
    let f := { File.new env with size := data.length, name, userId, sampleRate, data }
    -- a failed `create` is only logged
    let f ← catchRuntime (inWorld (f.create env)) fun _ => pure f
    setResponseData (.file f)

def fileHandler (env : Env) : Handler :=
  { baseModelHandler env (.file (.new env)) with get := fun _ => fileGet env, post := filePost env }

def fileDataGet (env : Env) (r : HttpRequest) : Handle Unit := do
  require (r.hasParam (text "guid")) (text "Must include guid in URL parameters")
  let f ← inWorld ((File.new env).fillByGuid ((r.urlParams.lookup (text "guid")).getD []) true)
  setContent (.body f.data)
  modify fun h => { h with response := { h.response with contentType := text "application/octet" } }

def fileDataHandler (env : Env) : Handler := { baseHandler with get := fileDataGet env }

def fileListGet : Handle Unit := do
  let fs ← inWorld (getFilesForUser (← member (·.user.id)))
  setResponseData (.files fs)

def fileListHandler (env : Env) : Handler := { baseModelHandler env (.files []) with get := fun _ => fileListGet }

end AudioToolApi
