/-
The configuration (utilities/config.h and config.cpp): `config_holder` takes
its fields from the entries of a JSON object, in the order of their keys. The
program stops where the file is no such object, or leaves out what the
connection to the database needs.

Keys are compared as C strings, so up to the first NUL.
-/
import AudioToolApi.Utilities.JsonParser

namespace AudioToolApi

/-- `config_holder`. -/
structure ConfigHolder where
  serverHost : Bytes
  serverPort : Int
  pathPrefix : Bytes
  statsdHost : Bytes
  statsdPort : Int
  dbConnectionString : Bytes
  dbDatabase : Bytes
  dbUser : Bytes
  dbPassword : Bytes
  googleAuthSecret : Bytes
  googleAuthClientId : Bytes
  serverType : Bytes
  numWorkers : Int
  numThreads : Int
  dbHost : Bytes
  dbPort : Int
  deriving DecidableEq, Repr

/-- The memory of the fields that nothing initializes. -/
structure ConfigMemory where
  serverPort : Int
  statsdPort : Int
  numWorkers : Int
  numThreads : Int

/-- The members, before the body of the constructor. -/
def ConfigHolder.initial (memory : ConfigMemory) : ConfigHolder where
  serverHost := []
  serverPort := memory.serverPort
  pathPrefix := []
  statsdHost := []
  statsdPort := memory.statsdPort
  dbConnectionString := []
  dbDatabase := []
  dbUser := []
  dbPassword := []
  googleAuthSecret := []
  googleAuthClientId := []
  serverType := []
  numWorkers := memory.numWorkers
  numThreads := memory.numThreads
  dbHost := []
  dbPort := 0

/-- How the constructor stops the program. -/
inductive ConfigStop
  /-- The `what()` of an exception, which nothing catches. -/
  | uncaught (what : Bytes)
  /-- `LOG(FATAL)`. -/
  | fatal (message : Bytes)
  deriving DecidableEq, Repr

/-- The body of the loop, for the element `el` of `j.items()`. -/
def ConfigHolder.assign (j : Json) (c : ConfigHolder) (el : Bytes × Json) : Except Bytes ConfigHolder :=
  let key := cStr el.1
  if key = text "server_host" then do return { c with serverHost := ← (← j.at el.1).toString }
  else if key = text "server_port" then do return { c with serverPort := ← el.2.toInt }
  else if key = text "path_prefix" then do return { c with pathPrefix := ← el.2.toString }
  else if key = text "statsd_host" then do return { c with statsdHost := ← el.2.toString }
  else if key = text "statsd_port" then do return { c with statsdPort := ← el.2.toInt }
  else if key = text "db_host" then do return { c with dbHost := ← (← j.at el.1).toString }
  else if key = text "db_port" then do return { c with dbPort := ← el.2.toInt }
  else if key = text "db_user" then do return { c with dbUser := ← el.2.toString }
  else if key = text "db_password" then do return { c with dbPassword := ← el.2.toString }
  else if key = text "db_database" then do return { c with dbDatabase := ← el.2.toString }
  else if key = text "google_auth_client_id" then do return { c with googleAuthClientId := ← el.2.toString }
  else if key = text "google_auth_secret" then do return { c with googleAuthSecret := ← el.2.toString }
  else if key = text "server_type" then do return { c with serverType := ← el.2.toString }
  else if key = text "num_workers" then do return { c with numWorkers := ← (← j.at el.1).toInt }
  else if key = text "num_threads" then do return { c with numThreads := ← (← j.at el.1).toInt }
  else return c

/-- `config_holder(filename)`, with the content of the file; one that cannot
be opened reads as empty. -/
def configHolder (strtod : Bytes → Option Double) (memory : ConfigMemory) (file : Bytes) :
    Except ConfigStop ConfigHolder :=
  match Json.parse strtod file with
  | .error what => .error (.uncaught what)
  | .ok (.object members) =>
    match members.foldlM (ConfigHolder.assign (.object members)) (.initial memory) with
    | .error what => .error (.uncaught what)
    | .ok c =>
      if c.dbHost = [] ∨ c.dbPort = 0 ∨ c.dbDatabase = [] then
        .error (.fatal (text "Config did not include database connection parameters"))
      else
        .ok { c with dbConnectionString := text "tcp://" ++ c.dbHost ++ text ":" ++ dumpInteger c.dbPort }
  | .ok _ => .error (.fatal (text "Incorrect JSON format, root should be object"))

end AudioToolApi
