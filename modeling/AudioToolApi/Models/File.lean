/-
`file_model` (models/file.cpp).
-/
import AudioToolApi.Utilities.Environment

namespace AudioToolApi

structure File where
  id : Int
  data : Bytes
  size : Nat
  guid : Bytes
  name : Bytes
  sampleRate : Int
  userId : Int
  deriving DecidableEq, Repr

def File.new (env : Env) : File where
  id := env.uninit.fileId
  data := []
  size := env.uninit.fileSize
  guid := []
  name := []
  sampleRate := env.uninit.fileSampleRate
  userId := env.uninit.fileUserId

/-- `operator nlohmann::json`: the data is not sent. -/
def File.toJson (f : File) : Json :=
  jsonify [(text "id", .int f.id), (text "size", .int f.size), (text "guid", .string f.guid),
    (text "name", .string f.name), (text "sample_rate", .int f.sampleRate), (text "user_id", .int f.userId)]

/-- The row that `file_model::create` inserts. -/
def File.newRow (f : File) (guid : Bytes) (w : World) : FileRow where
  id := w.db.nextFile
  guid := guid
  name := f.name
  data := f.data
  size := f.size
  created := w.now
  userId := f.userId
  sampleRate := f.sampleRate

def insertFile (f : File) (guid : Bytes) (w : World) : World :=
  { w with
    uuids := w.uuids + 1
    lastInsertId := w.db.nextFile
    db := { w.db with nextFile := w.db.nextFile + 1, files := w.db.files ++ [f.newRow guid w] } }

def File.create (env : Env) (f : File) : Act File := do
  execute fun w => insertFile f (env.uuid w.uuids) w
  let rows ← select fun w => w.db.files.filter (·.id = w.lastInsertId)
  let row ← firstRow (text "Failed to confirm file insert") rows
  return { f with id := row.id, guid := row.guid }

/-- The fields that `fill_by_guid` and `fill_by_id` set: `name` is selected,
and left as it was. -/
def File.fill (f : File) (row : FileRow) (withData : Bool) : File :=
  { f with
    id := row.id, guid := row.guid, size := row.size, userId := row.userId, sampleRate := row.sampleRate
    data := if withData then row.data else f.data }

def noFile : Bytes := text "No file by this guid"

def File.fillByGuid (f : File) (guid : Bytes) (withData : Bool) : Act File := do
  let rows ← select fun w => w.db.files.filter (·.guid = guid)
  let row ← firstRow noFile rows
  return { f.fill row withData with guid }

def File.fillById (f : File) (id : Int) (withData : Bool) : Act File := do
  let rows ← select fun w => w.db.files.filter (·.id = id)
  let row ← firstRow noFile rows
  return { f.fill row withData with id }

def getFilesForUser (userId : Int) : Act (List File) := do
  let rows ← select fun w => w.db.files.filter fun r => r.userId = userId ∧ r.isDeleted = false
  return rows.map fun row =>
    { id := row.id, data := [], size := row.size, guid := row.guid, name := row.name, userId := row.userId
      sampleRate := row.sampleRate }

end AudioToolApi
