/-
The work threads (http/http_work_thread.h): the acceptor enqueues on any of
them, each polls its own queue and then steals, and a worker holds one
connection until it closes it.

A step is what no other thread can interrupt: taking a connection off a
queue together with what the thread does with it, the scan that chooses
whom to steal from, a worker closing its connection. A thread's own workers
finish on the same thread, so not while it is inside `dequeue`. The scan
reads queues that others are using: `size_approx` is whatever the step says.
-/
import Mathlib.Algebra.Order.Ring.Rat
import Mathlib.Data.Fintype.BigOperators
import Mathlib.Data.List.FinRange

namespace AudioToolApi.Work

variable {n : Nat} {κ : Type}

/-- Where a thread is in `dequeue`. -/
inductive Phase (n : Nat)
  | unstarted | idle | dequeuing | scanning
  | stealing (tt : Fin n)
  deriving DecidableEq, Repr

/-- `http_work_thread`. A worker is the connection it holds, if it has not
finished. -/
structure WorkThread (n : Nat) (κ : Type) where
  queue : List κ := []
  workers : List (Option κ) := []
  /-- What `*conn` points at. -/
  conn : Option κ := none
  isRunning : Bool := false
  numWorkers : Nat := 4
  phase : Phase n := .unstarted
  deriving DecidableEq, Repr

/-- All threads, with what was ever enqueued and what `close_socket` closed. -/
structure Server (n : Nat) (κ : Type) where
  threads : Fin n → WorkThread n κ := fun _ => {}
  enqueued : List κ := []
  closed : List κ := []

/-! ## Load factors -/

/-- A `double`, as far as a load factor goes. -/
inductive Load | nan | finite (q : ℚ) | inf
  deriving DecidableEq, Repr

/-- `a > b`. -/
def Load.gt : Load → Load → Bool
  | .finite a, .finite b => b < a
  | .inf, .finite _ => true
  | _, _ => false

def WorkThread.loadFactor (size : Nat) (t : WorkThread n κ) : Load :=
  let load := size + t.workers.countP Option.isSome
  if t.numWorkers = 0 then if load = 0 then .nan else .inf
  else .finite (load / t.numWorkers)

/-- The loop that looks for the thread to steal from. -/
def mostLoaded (sizes : Fin n → Nat) (threads : Fin n → WorkThread n κ) : Option (Fin n) :=
  ((List.finRange n).foldl (fun (tt, maxLoad) t =>
    let current := (threads t).loadFactor (sizes t)
    if current.gt maxLoad then (some t, current) else (tt, maxLoad)) (none, Load.finite (-1))).1

/-! ## Steps -/

inductive Action (n : Nat) (κ : Type)
  /-- `thread_runner`, with `config()->num_workers`. -/
  | start (t : Fin n) (numWorkers : Nat)
  | join (t : Fin n)
  | enqueue (t : Fin n) (c : κ)
  /-- `accept_loop` calls `dequeue`. -/
  | poll (t : Fin n)
  /-- `try_dequeue` on the thread's own queue takes the `k`-th element, or
  reports empty. -/
  | tryOwn (t : Fin n) (k : Option Nat)
  | scan (t : Fin n) (sizes : Fin n → Nat)
  | steal (t : Fin n) (k : Option Nat)
  /-- `close_socket` of worker `w`. -/
  | finish (t : Fin n) (w : Nat)

/-- The end of `dequeue`, with a connection in `*conn`: it is started on the
first worker that has finished, if there is one and the thread is running. -/
def WorkThread.place (t : WorkThread n κ) (c : κ) : WorkThread n κ :=
  let t := { t with conn := some c, phase := .idle }
  match t.workers.findIdx? Option.isNone with
  | some w => if t.isRunning then { t with workers := t.workers.set w (some c) } else t
  | none => t

variable [DecidableEq κ]

def Server.update (s : Server n κ) (i : Fin n) (f : WorkThread n κ → WorkThread n κ) : Server n κ :=
  { s with threads := Function.update s.threads i (f (s.threads i)) }

/-- Thread `i` takes the `k`-th connection off the queue of thread `u`. -/
def Server.take (s : Server n κ) (i u : Fin n) (k : Nat) : Option (Server n κ) :=
  ((s.threads u).queue[k]?).map fun c =>
    (s.update u fun t => { t with queue := t.queue.eraseIdx k }).update i fun t => t.place c

def step (s : Server n κ) : Action n κ → Option (Server n κ)
  | .start i numWorkers =>
    if (s.threads i).phase = .unstarted then
      some (s.update i fun t =>
        { t with
          isRunning := true, numWorkers, phase := .idle
          workers := t.workers ++ List.replicate numWorkers none })
    else none
  | .join i => some (s.update i fun t => { t with isRunning := false })
  | .enqueue i c =>
    if c ∈ s.enqueued then none
    else some { s.update i (fun t => { t with queue := t.queue ++ [c] }) with enqueued := c :: s.enqueued }
  | .poll i =>
    if (s.threads i).phase = .idle ∧ (s.threads i).isRunning then
      some (s.update i fun t => { t with phase := .dequeuing })
    else none
  | .tryOwn i k =>
    if (s.threads i).phase = .dequeuing then
      match k with
      | some k => s.take i i k
      | none => some (s.update i fun t => { t with phase := .scanning })
    else none
  | .scan i sizes =>
    if (s.threads i).phase = .scanning then
      some (s.update i fun t => { t with
        phase := match mostLoaded sizes s.threads with
          | some tt => .stealing tt
          | none => .idle })
    else none
  | .steal i k =>
    match (s.threads i).phase with
    | .stealing tt =>
      match k with
      | some k => s.take i tt k
      | none => some (s.update i fun t => { t with phase := .idle })
    | _ => none
  | .finish i w =>
    if (s.threads i).phase = .idle then
      match (s.threads i).workers[w]? with
      | some (some c) =>
        some { s.update i (fun t => { t with workers := t.workers.set w none }) with closed := c :: s.closed }
      | _ => none
    else none

/-! ## Places -/

/-- How often `c` is in the thread's queue or held by one of its workers. -/
def WorkThread.holds (t : WorkThread n κ) (c : κ) : Nat := t.queue.count c + t.workers.count (some c)

/-- In how many places `c` is. -/
def Server.places (s : Server n κ) (c : κ) : Nat := (∑ i, (s.threads i).holds c) + s.closed.count c

/-- Each connection that was enqueued is in exactly one place. -/
def Server.NoneLost (s : Server n κ) : Prop := ∀ c ∈ s.enqueued, s.places c = 1

/-- The thread can start a connection. -/
def WorkThread.Room (t : WorkThread n κ) : Prop := t.isRunning = true ∧ none ∈ t.workers

/-- A thread that takes a connection is running and has a free worker. -/
def HasRoom (s : Server n κ) : Action n κ → Prop
  | .tryOwn i (some _) | .steal i (some _) => (s.threads i).Room
  | _ => True

end AudioToolApi.Work
