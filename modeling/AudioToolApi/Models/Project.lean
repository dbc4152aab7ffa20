/-
`project_model` (models/project.cpp).
-/
import AudioToolApi.Utilities.Environment

namespace AudioToolApi

structure Project where
  id : Int
  creatorId : Int
  isDeleted : Bool
  guid : Bytes
  name : Bytes
  projectData : Bytes
  deriving DecidableEq, Repr

def Project.new (env : Env) : Project where
  id := env.uninit.projectId
  creatorId := env.uninit.projectCreatorId
  isDeleted := env.uninit.projectIsDeleted
  guid := []
  name := []
  projectData := []

/-- `operator nlohmann::json`. -/
def Project.toJson (p : Project) : Json :=
  jsonify [(text "guid", .string p.guid), (text "creator_id", .int p.creatorId), (text "is_deleted", .bool p.isDeleted),
    (text "name", .string p.name), (text "project_data", .string p.projectData)]

def Project.fillByGuid (p : Project) (guid : Bytes) : Act Project := do
  let rows ← select fun w => w.db.projects.filter (·.guid = guid)
  let row ← firstRow (text "No project by this guid") rows
  return { p with
    id := row.id, guid, name := row.name, projectData := row.projectData, creatorId := row.creatorId
    isDeleted := row.isDeleted }

/-- `UPDATE projects SET ... WHERE guid=?`. -/
def updateProjects (p : Project) (w : World) : World :=
  { w with db := { w.db with
    projects := w.db.projects.map fun r =>
      if r.guid = p.guid then { r with name := p.name, projectData := p.projectData, isDeleted := p.isDeleted }
      else r } }

def Project.update (p : Project) : Act Unit := execute (updateProjects p)

/-- The row that `project_model::create` inserts. -/
def Project.newRow (p : Project) (guid : Bytes) (w : World) : ProjectRow where
  id := w.db.nextProject
  guid := guid
  creatorId := p.creatorId
  name := p.name
  projectData := p.projectData

def insertProject (p : Project) (guid : Bytes) (w : World) : World :=
  { w with
    uuids := w.uuids + 1
    lastInsertId := w.db.nextProject
    db := { w.db with nextProject := w.db.nextProject + 1, projects := w.db.projects ++ [p.newRow guid w] } }

def Project.create (env : Env) (p : Project) : Act Project := do
  execute fun w => insertProject p (env.uuid w.uuids) w
  let rows ← select fun w => w.db.projects.filter (·.id = w.lastInsertId)
  let row ← firstRow (text "Project failed to create") rows
  return { p with guid := row.guid }

def getProjectsForUser (userId : Int) (withData : Bool) : Act (List Project) := do
  let rows ← select fun w => w.db.projects.filter (·.creatorId = userId)
  return rows.map fun row =>
    { id := row.id, guid := row.guid, name := row.name, projectData := if withData then row.projectData else []
      creatorId := row.creatorId, isDeleted := row.isDeleted }

end AudioToolApi
