/-
`db::Connection` and the module mutex `m` that its `open` takes
(utilities/database.cpp, utilities/database.h).

`open` calls the driver twice between `m.lock()` and `m.unlock()`, and a
throw from either call skips the unlock. So the module stays usable exactly
as long as no call that opens a connection meets a failing driver:
`usable_iff_driver_answers`.
-/
import Mathlib.Logic.Function.Basic
import AudioToolApi.Lib.Runs

namespace AudioToolApi.Database

/-- How a call can fail to return: it throws, it waits for `m` for ever, or
it goes through a null `sql`. -/
inductive Halt | threw | blocked | crashed
  deriving DecidableEq, Repr

/-- What the driver answers during one call: `true` where the step succeeds,
`false` where it throws. -/
structure Driver where
  connect : Bool := true
  setSchema : Bool := true
  prepareStatement : Bool := true
  setParams : Bool := true
  deriving DecidableEq, Repr

/-- The two fields of `db::Connection` its methods change; `sql` names the
driver's connection it points to. -/
structure Connection where
  isOpen : Bool := false
  sql : Option Nat := none
  deriving DecidableEq, Repr

/-- The module: the mutex `m` (held or not), every `Connection` object, the
driver's connections made and not yet deleted, and how many it has made. -/
structure Module (ι : Type*) where
  m : Bool := false
  conns : ι → Connection := fun _ => {}
  live : List Nat := []
  made : Nat := 0

variable {ι : Type} [DecidableEq ι]

abbrev Act (ι α : Type) := EStateM Halt (Module ι) α

def Module.set (s : Module ι) (i : ι) (c : Connection) : Module ι :=
  { s with conns := Function.update s.conns i c }

def lock : Act ι Unit := do
  if (← get).m then throw .blocked else modify fun s => { s with m := true }

def unlock : Act ι Unit := modify fun s => { s with m := false }

/-- `sql = driver->connect(...)`: a throw leaves `sql` as it was. -/
def driverConnect (d : Driver) (i : ι) : Act ι Unit := do
  if d.connect then
    modify fun s => { s.set i { s.conns i with sql := some s.made } with
      live := s.made :: s.live, made := s.made + 1 }
  else throw .threw

/-- `sql->setSchema(database)`. -/
def setSchema (d : Driver) (i : ι) : Act ι Unit := do
  if ((← get).conns i).sql.isNone then throw .crashed
  if d.setSchema then pure () else throw .threw

def connectionOpen (d : Driver) (i : ι) : Act ι Unit := do
  lock
  driverConnect d i
  setSchema d i
  unlock
  modify fun s => s.set i { s.conns i with isOpen := true }

/-- Also what `~Connection` runs. -/
def connectionClose (i : ι) : Act ι Unit := do
  if ((← get).conns i).isOpen then
    modify fun s => { s.set i { isOpen := false, sql := none } with
      live := s.live.filter fun h => (s.conns i).sql ≠ some h }

/-- `if(!_is_open) open();` -/
def openIfClosed (d : Driver) (i : ι) : Act ι Unit := do
  if !((← get).conns i).isOpen then connectionOpen d i

/-- The `Query` constructor: `conn->sql->prepareStatement(query)`. -/
def prepareStatement (d : Driver) (i : ι) : Act ι Unit := do
  if ((← get).conns i).sql.isNone then throw .crashed
  if d.prepareStatement then pure () else throw .threw

def connectionRawQuery (d : Driver) (i : ι) : Act ι Unit := do
  openIfClosed d i
  prepareStatement d i

/-- `raw_query`, and then the parameters. -/
def connectionQuery (d : Driver) (i : ι) : Act ι Unit := do
  openIfClosed d i
  prepareStatement d i
  if d.setParams then pure () else throw .threw

inductive Method | «open» | close | query | rawQuery
  deriving DecidableEq, Repr

/-- One call of a method on connection `i`, and how the driver behaves
during it. -/
structure Call (ι : Type) where
  conn : ι
  method : Method
  driver : Driver := {}

def Call.act (c : Call ι) : Act ι Unit :=
  match c.method with
  | .open => connectionOpen c.driver c.conn
  | .close => connectionClose c.conn
  | .query => connectionQuery c.driver c.conn
  | .rawQuery => connectionRawQuery c.driver c.conn

/-- The module after a call that returned or threw; `none` where it did
neither. -/
def after : EStateM.Result Halt (Module ι) Unit → Option (Module ι)
  | .ok _ s | .error .threw s => some s
  | .error .blocked _ | .error .crashed _ => none

def call (s : Module ι) (c : Call ι) : Option (Module ι) := after (c.act.run s)

/-- `m` is free, and each connection says it is open exactly when its `sql`
points to a connection that is alive. -/
def Usable (s : Module ι) : Prop :=
  s.m = false ∧ ∀ i, (s.conns i).isOpen = true ↔ ∃ h ∈ s.live, (s.conns i).sql = some h

/-- The call opens a connection. -/
def Call.opens (s : Module ι) (c : Call ι) : Prop :=
  match c.method with
  | .open => True
  | .close => False
  | .query | .rawQuery => (s.conns c.conn).isOpen = false

/-- If the call opens a connection, `connect` and `setSchema` succeed. -/
def DriverAnswers (s : Module ι) (c : Call ι) : Prop :=
  c.opens s → c.driver.connect = true ∧ c.driver.setSchema = true

end AudioToolApi.Database
