/-
The life of an `http_worker` (http/http_worker.h, http_worker.cpp): when
`close_socket` runs. The handlers call it once for each connection; the
destructor calls it for every worker that was ever started, whether it has
finished or not.
-/
import AudioToolApi.Http.Worker
import AudioToolApi.Lib.Runs

namespace AudioToolApi.Lifecycle

open Runs

variable {κ : Type}

/-- The operation whose handler is still to run. -/
inductive Pending
  | none | read | write
  deriving DecidableEq, Repr

/-- An `http_worker`, with the connections that it was started with and those
that `close_socket` closed, latest first, and how often `close_socket` was
entered without one. -/
structure HttpWorker (κ : Type) where
  conn : Option κ := none
  hasFinished : Bool := true
  hasStarted : Bool := false
  pending : Pending := .none
  destroyed : Bool := false
  started : List κ := []
  closed : List κ := []
  nullClosed : Nat := 0

/-- A worker that is started before it has finished throws. -/
def HttpWorker.start (w : HttpWorker κ) (c : κ) : HttpWorker κ :=
  if w.hasFinished then
    { w with conn := some c, hasFinished := false, hasStarted := true, pending := .read, started := c :: w.started }
  else w

def HttpWorker.closeSocket (w : HttpWorker κ) : HttpWorker κ :=
  match w.conn with
  | some c => { w with conn := none, hasFinished := true, pending := .none, closed := c :: w.closed }
  | none => { w with hasFinished := true, pending := .none, nullClosed := w.nullClosed + 1 }

/-- `read_handler`: `process` ends in a write. -/
def HttpWorker.readHandler (w : HttpWorker κ) (ok : Bool) : HttpWorker κ :=
  if ok then { w with pending := .write } else w.closeSocket

/-- `write_handler`: an error is only logged. -/
def HttpWorker.writeHandler (w : HttpWorker κ) (_ok : Bool) : HttpWorker κ := w.closeSocket

/-- `~http_worker`. -/
def HttpWorker.destroy (w : HttpWorker κ) : HttpWorker κ :=
  let w := if w.hasStarted then w.closeSocket else w
  { w with destroyed := true }

inductive Event (κ : Type)
  | construct
  | copy (i : Nat)
  | start (i : Nat) (c : κ)
  | readDone (i : Nat) (ok : Bool)
  | writeDone (i : Nat) (ok : Bool)
  | destroy (i : Nat)

/-- What happens to worker `i`, if it is there and ready for it. -/
def onWorker (ws : List (HttpWorker κ)) (i : Nat) (ready : HttpWorker κ → Bool) (f : HttpWorker κ → HttpWorker κ) :
    Option (List (HttpWorker κ)) :=
  match ws[i]? with
  | some w => if !w.destroyed && ready w then some (ws.set i (f w)) else none
  | none => none

def step (ws : List (HttpWorker κ)) : Event κ → Option (List (HttpWorker κ))
  | .construct => some (ws ++ [{}])
  -- the copy constructor takes the `io_context` only
  | .copy i => (onWorker ws i (·.hasFinished) id).map (· ++ [{}])
  | .start i c => onWorker ws i (fun _ => true) (·.start c)
  | .readDone i ok => onWorker ws i (fun w => w.pending = .read) (·.readHandler ok)
  | .writeDone i ok => onWorker ws i (fun w => w.pending = .write) (·.writeHandler ok)
  | .destroy i => onWorker ws i (fun _ => true) (·.destroy)

/-- `close_socket` was entered with a connection only, and once for each that
the worker was started with, but for the one it holds. -/
structure HttpWorker.ClosedOnce (w : HttpWorker κ) : Prop where
  conn : w.nullClosed = 0
  once : w.started = w.conn.toList ++ w.closed

def ClosedOnce (ws : List (HttpWorker κ)) : Prop := ∀ w ∈ ws, w.ClosedOnce

/-- A worker that is destroyed was never started, or is in the middle of a
connection. -/
def NotAfterUse (ws : List (HttpWorker κ)) : Event κ → Prop
  | .destroy i => ∀ w, ws[i]? = some w → ¬ (w.hasStarted = true ∧ w.hasFinished = true)
  | _ => True

/-! ## The invariant -/

structure HttpWorker.Inv (w : HttpWorker κ) : Prop where
  closed : w.ClosedOnce
  finished : w.hasFinished = true ↔ w.conn = none
  pending : w.pending ≠ .none → w.conn ≠ none
  unstarted : w.hasStarted = false → w.conn = none

theorem inv_new : ({} : HttpWorker κ).Inv :=
  ⟨⟨rfl, rfl⟩, by simp, by simp, by simp⟩

theorem inv_start {w : HttpWorker κ} (hw : w.Inv) (c : κ) : (w.start c).Inv := by
  unfold HttpWorker.start
  split
  · rename_i hf
    have hconn := hw.finished.mp hf
    refine ⟨⟨hw.closed.conn, ?_⟩, by simp, by simp, by simp⟩
    simp [hw.closed.once, hconn]
  · exact hw

/-- In the middle of a connection. -/
theorem inv_closeSocket {w : HttpWorker κ} (hw : w.Inv) (hc : w.conn ≠ none) : w.closeSocket.Inv := by
  obtain ⟨c, hc⟩ := Option.ne_none_iff_exists'.mp hc
  have hclose : w.closeSocket =
      { w with conn := none, hasFinished := true, pending := .none, closed := c :: w.closed } := by
    simp [HttpWorker.closeSocket, hc]
  rw [hclose]
  refine ⟨⟨hw.closed.conn, ?_⟩, by simp, by simp, by simp⟩
  simp [hw.closed.once, hc]

theorem inv_destroy {w : HttpWorker κ} (hw : w.Inv) (h : ¬ (w.hasStarted = true ∧ w.hasFinished = true)) :
    w.destroy.Inv := by
  have destroyed {v : HttpWorker κ} (hv : v.Inv) : ({ v with destroyed := true } : HttpWorker κ).Inv :=
    ⟨⟨hv.closed.conn, hv.closed.once⟩, hv.finished, hv.pending, hv.unstarted⟩
  unfold HttpWorker.destroy
  split
  · rename_i hs
    exact destroyed (inv_closeSocket hw fun hc => h ⟨hs, hw.finished.mpr hc⟩)
  · exact destroyed hw

/-- A worker that has finished has no connection to close. -/
theorem destroy_null {w : HttpWorker κ} (hw : w.Inv) (hs : w.hasStarted = true) (hf : w.hasFinished = true) :
    ¬ w.destroy.ClosedOnce := by
  have hconn := hw.finished.mp hf
  intro h
  have hnull := h.conn
  simp [HttpWorker.destroy, hs, HttpWorker.closeSocket, hconn] at hnull

/-! ## The worker that reads -/

/-- The flags are those of the worker that reads its requests. -/
structure HttpWorker.Models {σ : Type} (w : HttpWorker Connection) (v : Worker σ) : Prop where
  conn : w.conn = v.conn
  hasFinished : w.hasFinished = v.hasFinished
  hasStarted : w.hasStarted = v.hasStarted

/-- A connection that a worker serves is started, read, answered if it could
be read, and closed. -/
theorem models_serve {σ : Type} {B : BeastParser σ} {w : HttpWorker Connection} {v v' : Worker σ} {c : Connection}
    {r : Option Request} (h : w.Models v) (hserve : v.serve B c = some (v', r)) :
    (if r.isSome then ((w.start c).readHandler true).writeHandler true else (w.start c).readHandler false).Models v' := by
  rw [Worker.serve, Option.map_eq_some_iff] at hserve
  obtain ⟨u, hu, hserve⟩ := hserve
  simp only [Worker.start, Option.ite_none_right_eq_some, Option.some.injEq] at hu
  obtain ⟨hf, rfl⟩ := hu
  have hf' : w.hasFinished = true := h.hasFinished.trans hf
  have hstart : w.start c = { w with
      conn := some c, hasFinished := false, hasStarted := true, pending := .read, started := c :: w.started } := by
    rw [HttpWorker.start, if_pos hf']
  simp only [Worker.read, Worker.readHandler] at hserve
  cases hok : (asyncRead B c v.parser_ v.buffer_).ok with
  | true =>
    simp only [hok, if_true, Prod.mk.injEq] at hserve
    obtain ⟨rfl, rfl⟩ := hserve
    rw [hstart]
    exact ⟨rfl, rfl, rfl⟩
  | false =>
    simp only [hok, Bool.false_eq_true, if_false, Prod.mk.injEq] at hserve
    obtain ⟨rfl, rfl⟩ := hserve
    rw [hstart]
    exact ⟨rfl, rfl, rfl⟩

/-! ## Runs -/

theorem onWorker_some {ws ws' : List (HttpWorker κ)} {i : Nat} {ready : HttpWorker κ → Bool}
    {f : HttpWorker κ → HttpWorker κ} (h : onWorker ws i ready f = some ws') :
    ∃ w, ws[i]? = some w ∧ ready w = true ∧ ws' = ws.set i (f w) := by
  unfold onWorker at h
  split at h
  · rename_i w hw
    simp only [Bool.and_eq_true, Option.ite_none_right_eq_some, Option.some.injEq] at h
    exact ⟨w, hw, h.1.2, h.2.symm⟩
  · cases h

theorem forall_set {P : HttpWorker κ → Prop} {ws : List (HttpWorker κ)} {i : Nat} {w : HttpWorker κ}
    (h : ∀ v ∈ ws, P v) (hw : P w) : ∀ v ∈ ws.set i w, P v := by
  intro v hv
  rcases List.mem_or_eq_of_mem_set hv with hv | rfl
  · exact h v hv
  · exact hw

theorem step_inv {ws ws' : List (HttpWorker κ)} {e : Event κ} (hws : ∀ w ∈ ws, w.Inv) (he : NotAfterUse ws e)
    (h : step ws e = some ws') : ∀ w ∈ ws', w.Inv := by
  have new {vs : List (HttpWorker κ)} (hvs : ∀ w ∈ vs, w.Inv) : ∀ w ∈ vs ++ [({} : HttpWorker κ)], w.Inv := by
    intro w hw
    rcases List.mem_append.mp hw with hw | hw
    · exact hvs w hw
    · rw [List.mem_singleton.mp hw]
      exact inv_new
  cases e with
  | construct =>
    cases h
    exact new hws
  | copy i =>
    obtain ⟨vs, hvs, rfl⟩ := Option.map_eq_some_iff.mp h
    obtain ⟨w, hw, -, rfl⟩ := onWorker_some hvs
    exact new (forall_set hws (hws w (List.mem_of_getElem? hw)))
  | start i c =>
    obtain ⟨w, hw, -, rfl⟩ := onWorker_some h
    exact forall_set hws (inv_start (hws w (List.mem_of_getElem? hw)) c)
  | readDone i ok =>
    obtain ⟨w, hw, hready, rfl⟩ := onWorker_some h
    have hinv := hws w (List.mem_of_getElem? hw)
    have hpending : w.pending = .read := of_decide_eq_true hready
    have hconn := hinv.pending (by simp [hpending])
    refine forall_set hws ?_
    cases ok with
    | true => exact ⟨⟨hinv.closed.conn, hinv.closed.once⟩, hinv.finished, fun _ => hconn, hinv.unstarted⟩
    | false => exact inv_closeSocket hinv hconn
  | writeDone i ok =>
    obtain ⟨w, hw, hready, rfl⟩ := onWorker_some h
    have hinv := hws w (List.mem_of_getElem? hw)
    have hpending : w.pending = .write := of_decide_eq_true hready
    exact forall_set hws (inv_closeSocket hinv (hinv.pending (by simp [hpending])))
  | destroy i =>
    obtain ⟨w, hw, -, rfl⟩ := onWorker_some h
    exact forall_set hws (inv_destroy (hws w (List.mem_of_getElem? hw)) (he w hw))

/-- A worker that is destroyed after use closes nothing. -/
theorem step_break {ws ws' : List (HttpWorker κ)} {e : Event κ} (hws : ∀ w ∈ ws, w.Inv) (he : ¬ NotAfterUse ws e)
    (h : step ws e = some ws') : ¬ ClosedOnce ws' := by
  cases e with
  | destroy i =>
    obtain ⟨w, hw, -, rfl⟩ := onWorker_some h
    have hused : w.hasStarted = true ∧ w.hasFinished = true := by
      by_contra hno
      refine he fun v hv => ?_
      rw [hw, Option.some.injEq] at hv
      exact hv ▸ hno
    intro hclosed
    obtain ⟨hlt, -⟩ := List.getElem?_eq_some_iff.mp hw
    exact destroy_null (hws w (List.mem_of_getElem? hw)) hused.1 hused.2 (hclosed _ (List.mem_set hlt _))
  | _ => exact absurd trivial he

/-- **When each connection is closed once, and nothing else is.** -/
theorem closedOnce_iff (es : List (Event κ)) : Always step ClosedOnce [] es ↔ Steps step NotAfterUse [] es :=
  always_iff_steps (I := fun ws => ∀ w ∈ ws, w.Inv) (fun _ h w hw => (h w hw).closed)
    (fun _ _ _ hws he h => step_inv hws he h) (fun _ _ _ hws he h => step_break hws he h) (by simp)

/-- A worker is destroyed after its connection was closed. -/
theorem destroyed_after_use : ¬ ∀ es : List (Event Nat), Always step ClosedOnce [] es := by
  intro h
  have hlast := always_iff_prefix.mp (h [.construct, .start 0 7, .readDone 0 true, .writeDone 0 true, .destroy 0]) _ _
    List.prefix_rfl (.cons rfl (.cons rfl (.cons rfl (.cons rfl (.cons rfl .nil)))))
  have hnull := (hlast _ (.head _)).conn
  cases hnull

end AudioToolApi.Lifecycle
