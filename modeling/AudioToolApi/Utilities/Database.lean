/-
The database as the models use it (utilities/database.h, database.cpp): a
`db::Query` is one statement, which runs as a whole or not at all. The
driver may refuse it, or lose its answer after it ran; either way it throws
an `SQLException`, which is a `runtime_error`. Or the statement never ends:
`open` waits for the mutex `m`, which a connection that failed has left
locked.

Of MySQL it is assumed that rows keep the order in which they were inserted,
that its collation compares text columns byte by byte, and that the ids it
gives out, which the models read with `getInt`, fit in an `int`.
-/
import AudioToolApi.Utilities.Json
import AudioToolApi.Utilities.Base64

namespace AudioToolApi

/-! ## Tables -/

/-- 128 bytes: `hash`, `nacl`, and what `RAND_bytes` draws. -/
abbrev Block := { b : Bytes // b.length = 128 }

structure UserRow where
  id : Int
  email : Bytes
  hash : Block
  nacl : Block
  deriving DecidableEq, Repr

structure SessionRow where
  id : Int
  userId : Int
  token : Bytes
  created : Int
  expires : Int
  deriving DecidableEq, Repr

structure FileRow where
  id : Int
  guid : Bytes
  name : Bytes
  data : Bytes
  size : Nat
  created : Int
  userId : Int
  sampleRate : Int
  isDeleted : Bool := false
  deriving DecidableEq, Repr

structure ProjectRow where
  id : Int
  guid : Bytes
  creatorId : Int
  name : Bytes
  projectData : Bytes
  isDeleted : Bool := false
  deriving DecidableEq, Repr

/-- The tables, and the next value of each `AUTO_INCREMENT` column. -/
structure Tables where
  users : List UserRow := []
  sessions : List SessionRow := []
  files : List FileRow := []
  projects : List ProjectRow := []
  nextUser : Int := 1
  nextSession : Int := 1
  nextFile : Int := 1
  nextProject : Int := 1
  deriving DecidableEq, Repr

/-! ## Exceptions -/

/-- What a call can end in other than by returning. `what` is a C string. -/
inductive Exn
  | http (code : Int) (what : Bytes)
  | runtime (what : Bytes)
  /-- A `std::exception` that is no `runtime_error`. -/
  | std (what : Bytes)
  /-- Not a `std::exception`. -/
  | other
  /-- `std::terminate`, or a loop that never ends. -/
  | gone
  deriving DecidableEq, Repr

/-- What the driver does with a statement, if not what it is asked. -/
inductive Fault
  | refused (what : Bytes)
  | lost (what : Bytes)
  | hung
  deriving DecidableEq, Repr

/-! ## The world -/

structure World where
  db : Tables := {}
  /-- `UNIX_TIMESTAMP()`. -/
  now : Int := 0
  /-- `LAST_INSERT_ID()` of the connection. -/
  lastInsertId : Int := 0
  /-- What becomes of the next statements. -/
  faults : List (Option Fault) := []
  /-- How often `RAND_bytes` and `UUID()` were called. -/
  draws : Nat := 0
  uuids : Nat := 0
  deriving DecidableEq, Repr

/-- What becomes of the next statement. -/
def World.fault (w : World) : Option Fault := w.faults.head?.join

/-- The statements after it. -/
def World.next (w : World) : World := { w with faults := w.faults.tail }

abbrev Act := EStateM Exn World

/-- A statement: prepared, bound, executed and fetched from. -/
def statement {α : Type} (act : World → α × World) : Act α := fun w =>
  match w.fault with
  | some (.refused what) => .error (.runtime what) w.next
  | some (.lost what) => .error (.runtime what) (act w.next).2
  | some .hung => .error .gone w.next
  | none => .ok (act w.next).1 (act w.next).2

/-- A `SELECT`. -/
def select {α : Type} (rows : World → List α) : Act (List α) := statement fun w => (rows w, w)

/-- An `INSERT` or `UPDATE`. -/
def execute (act : World → World) : Act Unit := statement fun w => ((), act w)

/-- `row_count() < 1` throws, and `row()` is the first row. -/
def firstRow {α : Type} (what : Bytes) : List α → Act α
  | [] => throw (.runtime what)
  | r :: _ => pure r

/-- What `Query::row` throws when there is no row left. -/
def noRowLeft : Bytes := text "Query::row call exceeded row count"

/-- `catch (runtime_error e)`. -/
def catchRuntime {σ α : Type} (x : EStateM Exn σ α) (handler : Bytes → EStateM Exn σ α) : EStateM Exn σ α := fun s =>
  match x s with
  | .error (.http _ what) s => handler what s
  | .error (.runtime what) s => handler what s
  | r => r

/-- What a library call returns or throws as a `std::exception`. -/
def orThrow {σ α : Type} : Except Bytes α → EStateM Exn σ α
  | .ok a => pure a
  | .error what => throw (.std what)

end AudioToolApi
