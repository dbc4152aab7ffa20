/-
Runs of the server as far as sessions go: the clock ticks, sessions are
created, and requests to the authenticated routes are processed. The history
of a run says which sessions were created and which requests were let in;
`InWindow` is the sliding window, read off a history. Requests come one at a
time, and over one `Env`.
-/
import AudioToolApi.Http.GateFacts
import AudioToolApi.Http.RouteFootprint
import AudioToolApi.Models.SessionFacts
import Mathlib.Data.List.Chain
import Mathlib.Data.List.Nodup

namespace AudioToolApi

open Effects

/-! ## Runs -/

inductive Event
  | tick (seconds : Nat)
  | create (userId : Int)
  /-- What the driver does with the statements of the handler is open. -/
  | request (req : Request) (faults : List (Option Fault))

/-- The driver takes the three statements of the gate. -/
def World.gateSound (w : World) (faults : List (Option Fault)) : World :=
  { w with faults := none :: none :: none :: faults }

def Event.step (env : Env) (w : World) : Event → World
  | .tick seconds => { w with now := w.now + seconds }
  | .create userId => left (Session.create env userId w.settled)
  | .request req faults => (left (process env (applicationRoutes env) req (w.gateSound faults))).handling.world

/-! ## Histories -/

inductive Entry
  | created (token : Bytes) (userId time : Int)
  | accepted (token : Bytes) (time : Int)
  deriving DecidableEq, Repr

def Event.entries (env : Env) (w : World) : Event → List Entry
  | .tick _ => []
  | .create userId =>
    match Session.create env userId w.settled with
    | .ok s _ => [.created s.token userId w.now]
    | .error _ _ => []
  | .request req faults =>
    match req.find (text "session-token"), passesAs env req (w.gateSound faults) with
    | some token, some _ => [.accepted token w.now]
    | _, _ => []

/-- A run, with the history so far. -/
def run (env : Env) (w : World) (history : List Entry) : List Event → World × List Entry
  | [] => (w, history)
  | e :: es => run env (e.step env w) (history ++ e.entries env w) es

/-- The times at which requests with this token were let in. -/
def usesOf (token : Bytes) (history : List Entry) : List Int :=
  history.filterMap fun
    | .accepted t time => if t = token then some time else none
    | .created .. => none

/-- A session of the user was created with this token, and from then on, over
the requests that were let in with it, to now, no gap reached the length of
a session. -/
def InWindow (history : List Entry) (token : Bytes) (userId now : Int) : Prop :=
  ∃ t0 ≤ now, .created token userId t0 ∈ history ∧
    (t0 :: usesOf token history ++ [now]).IsChain fun s t => t - s < sessionLength

/-! ## What a run is assumed to be -/

/-- Sessions are created for users that there are, and requests are to
authenticated routes. -/
def Event.Allowed (env : Env) (users : List UserRow) : Event → Prop
  | .tick _ => True
  | .create userId => ∃ row ∈ users, row.id = userId
  | .request req _ => ∃ r handler, Authenticated env req r handler

/-- The tokens of the first `n` draws are distinct. -/
def DistinctTokens (env : Env) (n : Nat) : Prop :=
  ∀ j k, j < n → k < n → base64Encode (env.random j) = base64Encode (env.random k) → j = k

end AudioToolApi
