/-
`project_handler` and `project_list_handler` (handlers/project.cpp).
-/
import AudioToolApi.Handlers.Base

namespace AudioToolApi

def projectGet (env : Env) (r : HttpRequest) : Handle Unit := do
  require (r.hasParam (text "guid")) (text "Must provide GUID of project")
  let p ← inWorld ((Project.new env).fillByGuid ((r.urlParams.lookup (text "guid")).getD []))
  setResponseData (.project p)

def projectPost (env : Env) : Handle Unit := do
  let json ← member (·.json)
  require (json.find (text "guid")).isSome (text "Must provide GUID of project")
  require (json.find (text "name")).isSome (text "Must provide name of project")
  let guid ← jsonString json (text "guid")
  let project ← inWorld ((Project.new env).fillByGuid guid)
  let name ← jsonString json (text "name")
  let projectData ← jsonString json (text "project_data")
  let project := { project with name, projectData }
  inWorld project.update
  setResponseData (.project project)

/-- The `project_data` of the JSON, or `{}`. -/
def putProjectData (json : Json) : Handle Bytes :=
  if (json.find (text "project_data")).isSome then jsonString json (text "project_data") else pure (text "\x7b\x7d")

def projectPut (env : Env) : Handle Unit := do
  let json ← member (·.json)
  require (json.find (text "name")).isSome (text "Must provide name of project")
  require (json.find (text "creator_id")).isSome (text "Must provide creator_id of project")
  let creatorId ← jsonInt json (text "creator_id")
  let projectData ← putProjectData json
  let name ← jsonString json (text "name")
  let project ← inWorld ({ Project.new env with name, projectData, creatorId }.create env)
  setResponseData (.project project)

def projectHandler (env : Env) : Handler :=
  { baseModelHandler env (.project (.new env)) with
    get := projectGet env, post := fun _ => projectPost env, put := fun _ => projectPut env }

def projectListGet : Handle Unit := do
  let ps ← inWorld (getProjectsForUser (← member (·.user.id)) false)
  setResponseData (.projects ps)

def projectListHandler (env : Env) : Handler :=
  { baseModelHandler env (.projects []) with get := fun _ => projectListGet }

end AudioToolApi
