/-
`dequeue` in smaller steps (http/http_work_thread.h): `try_dequeue` fills
`*conn`, and after that the thread looks for a worker that has finished and
starts it on what `*conn` points at. The other threads go on in between.

A connection is started once: each is in a queue, or in the hand of the one
thread that has just dequeued it, or has been started.
-/
import AudioToolApi.Http.WorkThreadFacts

namespace AudioToolApi.Work

open Runs

variable {n : Nat} {κ : Type}

/-- The server, the threads whose `try_dequeue` has just returned `true`, and
what became of the calls of `start`. -/
structure Dispatch (n : Nat) (κ : Type) where
  server : Server n κ := {}
  looking : Fin n → Bool := fun _ => false
  started : List κ := []
  threw : Bool := false

inductive Move (n : Nat) (κ : Type)
  /-- A step in which no `try_dequeue` returns `true`. -/
  | other (a : Action n κ)
  /-- `try_dequeue(*conn)` takes the `k`-th element. -/
  | tryDequeue (i : Fin n) (k : Nat)
  /-- The rest of `dequeue`. -/
  | dispatch (i : Fin n)

/-- The thread that takes the step: the acceptor enqueues, and another thread
joins. -/
def Action.thread : Action n κ → Option (Fin n)
  | .start i _ | .poll i | .tryOwn i _ | .scan i _ | .steal i _ | .finish i _ => some i
  | .join _ | .enqueue _ _ => none

/-- Whose queue the thread tries. -/
def WorkThread.source (t : WorkThread n κ) (i : Fin n) : Option (Fin n) :=
  match t.phase with
  | .dequeuing => some i
  | .stealing tt => some tt
  | _ => none

/-- `http_worker::start`; `none` is its throw. -/
def startWorker (worker : Option κ) (c : κ) : Option (Option κ) :=
  if worker.isNone then some (some c) else none

variable [DecidableEq κ]

/-- Thread `i` takes the `k`-th connection off the queue of thread `u`. -/
def Server.fill (s : Server n κ) (i u : Fin n) (k : Nat) : Option (Server n κ) :=
  ((s.threads u).queue[k]?).map fun c =>
    (s.update u fun t => { t with queue := t.queue.eraseIdx k }).update i fun t => { t with conn := some c }

/-- `dequeue` returns. -/
def Dispatch.leave (s : Dispatch n κ) (i : Fin n) : Dispatch n κ :=
  { s with
    server := s.server.update i fun t => { t with phase := .idle }
    looking := Function.update s.looking i false }

/-- The loop over the workers, and `worker_it->start(*conn)`. -/
def Dispatch.dispatch (s : Dispatch n κ) (i : Fin n) (c : κ) : Dispatch n κ :=
  let t := s.server.threads i
  let s := s.leave i
  match t.workers.findIdx? Option.isNone with
  | some w =>
    if t.isRunning then
      match t.workers[w]?.bind (startWorker · c) with
      | some worker =>
        { s with
          server := s.server.update i fun t => { t with workers := t.workers.set w worker }
          started := c :: s.started }
      | none => { s with threw := true }
    else s
  | none => s

def Dispatch.step (s : Dispatch n κ) : Move n κ → Option (Dispatch n κ)
  | .other a =>
    if a.dequeues ∨ a.thread.any s.looking then none
    else (Work.step s.server a).map fun server => { s with server }
  | .tryDequeue i k =>
    if s.looking i then none
    else ((s.server.threads i).source i).bind fun u =>
      (s.server.fill i u k).map fun server => { s with server, looking := Function.update s.looking i true }
  | .dispatch i => if s.looking i then (s.server.threads i).conn.map (s.dispatch i) else none

/-! ## Counting -/

/-- How many threads have `c` in their queue, or in a worker. -/
def Server.queued (s : Server n κ) (c : κ) : Nat := ∑ i, (s.threads i).queue.count c
def Server.working (s : Server n κ) (c : κ) : Nat := ∑ i, (s.threads i).workers.count (some c)

/-- How many threads look for a worker for `c`. -/
def Dispatch.inHand (s : Dispatch n κ) (c : κ) : Nat :=
  ∑ i, if s.looking i ∧ (s.server.threads i).conn = some c then 1 else 0

omit [DecidableEq κ] in
theorem sum_change {f g : Fin n → Nat} (i : Fin n) (h : ∀ j, j ≠ i → f j = g j) :
    (∑ j, f j) + g i = (∑ j, g j) + f i := by
  rw [← Finset.add_sum_erase _ f (Finset.mem_univ i), ← Finset.add_sum_erase _ g (Finset.mem_univ i)]
  have hrest : ∑ j ∈ Finset.univ.erase i, f j = ∑ j ∈ Finset.univ.erase i, g j :=
    Finset.sum_congr rfl fun j hj => h j (Finset.ne_of_mem_erase hj)
  rw [hrest]
  omega

theorem queued_update (s : Server n κ) (i : Fin n) (f : WorkThread n κ → WorkThread n κ) (c : κ) :
    (s.update i f).queued c + (s.threads i).queue.count c = s.queued c + (f (s.threads i)).queue.count c :=
  sum_update (fun t => t.queue.count c) s.threads i (f (s.threads i))

theorem working_update (s : Server n κ) (i : Fin n) (f : WorkThread n κ → WorkThread n κ) (c : κ) :
    (s.update i f).working c + (s.threads i).workers.count (some c) =
      s.working c + (f (s.threads i)).workers.count (some c) :=
  sum_update (fun t => t.workers.count (some c)) s.threads i (f (s.threads i))

theorem queued_frame (s : Server n κ) (i : Fin n) {f : WorkThread n κ → WorkThread n κ}
    (hf : (f (s.threads i)).queue = (s.threads i).queue) (c : κ) : (s.update i f).queued c = s.queued c := by
  have h := queued_update s i f c
  rw [hf] at h
  exact Nat.add_right_cancel h

theorem working_frame (s : Server n κ) (i : Fin n) {f : WorkThread n κ → WorkThread n κ} {c : κ}
    (hf : (f (s.threads i)).workers.count (some c) = (s.threads i).workers.count (some c)) :
    (s.update i f).working c = s.working c := by
  have h := working_update s i f c
  rw [hf] at h
  exact Nat.add_right_cancel h

omit [DecidableEq κ] in
theorem conn_frame (s : Server n κ) (i : Fin n) {f : WorkThread n κ → WorkThread n κ}
    (hf : (f (s.threads i)).conn = (s.threads i).conn) (j : Fin n) :
    ((s.update i f).threads j).conn = (s.threads j).conn := by
  simp only [Server.update, Function.update_apply]
  split
  · rename_i hj
    rw [hj, hf]
  · rfl

/-! ## What the steps do -/

/-- Between two states of the server the slots are the same, and at most one
connection has come in. -/
structure Outside (s s' : Server n κ) : Prop where
  conn : ∀ j, (s'.threads j).conn = (s.threads j).conn
  working : ∀ c, s'.working c + s'.closed.count c = s.working c + s.closed.count c
  queued : (s'.enqueued = s.enqueued ∧ ∀ c, s'.queued c = s.queued c) ∨
    ∃ a, a ∉ s.enqueued ∧ s'.enqueued = a :: s.enqueued ∧ ∀ c, s'.queued c = s.queued c + if a = c then 1 else 0

theorem step_outside {s s' : Server n κ} {a : Action n κ} (ha : a.dequeues = false) (h : step s a = some s') :
    Outside s s' := by
  cases stepped h with
  | @quiet _ _ i f hqueue hconn m hworkers =>
    refine ⟨conn_frame s i hconn, fun c => ?_, .inl ⟨rfl, queued_frame s i hqueue⟩⟩
    exact congrArg (· + s.closed.count c) (working_frame s i (by rw [hworkers, count_finished]))
  | @enqueue i a hnew =>
    refine ⟨@conn_frame n κ s i (fun t => { t with queue := t.queue ++ [a] }) rfl, fun c => ?_,
      .inr ⟨a, hnew, rfl, fun c => ?_⟩⟩
    · exact congrArg (· + s.closed.count c) (@working_frame n κ _ s i (fun t => { t with queue := t.queue ++ [a] }) c rfl)
    · have hq := queued_update s i (fun t => { t with queue := t.queue ++ [a] }) c
      simp only [List.count_append, List.count_singleton, beq_iff_eq, Server.queued] at hq ⊢
      omega
  | take i u k h _ => rcases h with rfl | rfl <;> cases ha
  | @finish i w a hw =>
    refine ⟨@conn_frame n κ s i (fun t => { t with workers := t.workers.set w none }) rfl, fun c => ?_,
      .inl ⟨rfl, @queued_frame n κ _ s i (fun t => { t with workers := t.workers.set w none }) rfl⟩⟩
    have h1 := working_update s i (fun t => { t with workers := t.workers.set w none }) c
    have h2 := count_set hw none c
    simp only [Server.working, List.count_cons, beq_iff_eq, Option.some.injEq, reduceCtorEq, if_false] at h1 h2 ⊢
    omega

theorem fill_effect {s s' : Server n κ} {i u : Fin n} {k : Nat} (h : s.fill i u k = some s') :
    ∃ a, (∀ c, s'.queued c + (if a = c then 1 else 0) = s.queued c) ∧ (∀ c, s'.working c = s.working c) ∧
      s'.enqueued = s.enqueued ∧ s'.closed = s.closed ∧ (s'.threads i).conn = some a ∧
      ∀ j, j ≠ i → (s'.threads j).conn = (s.threads j).conn := by
  obtain ⟨a, ha, rfl⟩ := Option.map_eq_some_iff.mp h
  generalize hr : s.update u (fun t => { t with queue := t.queue.eraseIdx k }) = r
  have hconn : ∀ j, (r.threads j).conn = (s.threads j).conn := by
    rw [← hr]
    exact conn_frame s u rfl
  have hworking : ∀ c, r.working c = s.working c := by
    intro c
    rw [← hr]
    exact working_frame s u rfl
  have hqueued : ∀ c, r.queued c + (if a = c then 1 else 0) = s.queued c := by
    intro c
    have h1 := queued_update s u (fun t => { t with queue := t.queue.eraseIdx k }) c
    have h2 := count_eraseIdx ha c
    simp only [hr] at h1
    omega
  refine ⟨a, fun c => ?_, fun c => ?_, by rw [← hr]; rfl, by rw [← hr]; rfl, ?_, fun j hj => ?_⟩
  · rw [queued_frame r i rfl, hqueued]
  · rw [working_frame r i rfl, hworking]
  · simp [Server.update]
  · simp only [Server.update, Function.update_of_ne hj, hconn]

omit [DecidableEq κ] in
/-- `start` is called, if at all, on a worker that has finished. -/
theorem dispatch_cases (s : Dispatch n κ) (i : Fin n) (c : κ) :
    s.dispatch i c = s.leave i ∨
      ∃ w, (s.server.threads i).workers[w]? = some none ∧
        s.dispatch i c = { s.leave i with
          server := (s.leave i).server.update i fun t => { t with workers := t.workers.set w (some c) }
          started := c :: s.started } := by
  unfold Dispatch.dispatch
  cases hw : (s.server.threads i).workers.findIdx? Option.isNone with
  | none => exact .inl (by simp only [hw])
  | some w =>
    have hget := free_worker hw
    by_cases hrun : (s.server.threads i).isRunning = true
    · refine .inr ⟨w, hget, ?_⟩
      simp only [hw, hrun, if_true, hget, Option.bind_some, startWorker, Option.isNone_none]
      rfl
    · refine .inl ?_
      simp only [hw, hrun, if_false, Bool.false_eq_true]

/-! ## Undisturbed -/

omit [DecidableEq κ] in
theorem update_update (s : Server n κ) (i : Fin n) (f g : WorkThread n κ → WorkThread n κ) :
    (s.update i f).update i g = s.update i (g ∘ f) := by
  simp [Server.update]

omit [DecidableEq κ] in
theorem dispatch_place (s : Dispatch n κ) (i : Fin n) {c : κ} (hc : (s.server.threads i).conn = some c) :
    (s.dispatch i c).server = s.server.update i fun t => t.place c := by
  unfold Dispatch.dispatch
  cases hw : (s.server.threads i).workers.findIdx? Option.isNone with
  | none => simp only [hw, Dispatch.leave, Server.update, WorkThread.place, hc]
  | some w =>
    by_cases hrun : (s.server.threads i).isRunning = true
    · simp only [hw, hrun, if_true, free_worker hw, Option.bind_some, startWorker, Option.isNone_none, Dispatch.leave,
        update_update]
      simp only [Server.update, WorkThread.place, hc, hw, hrun, if_true, Function.comp]
    · simp only [hw, hrun, Bool.false_eq_true, if_false, Dispatch.leave]
      simp only [Server.update, WorkThread.place, hc, hw, hrun, if_false, Bool.false_eq_true]

/-- A `dequeue` that no other thread comes in between is the one step that
`Work.step` takes. -/
theorem undisturbed_dequeue {s s' s'' : Dispatch n κ} {i : Fin n} {k : Nat} (h : s.step (.tryDequeue i k) = some s')
    (h' : s'.step (.dispatch i) = some s'') :
    ∃ u, (s.server.threads i).source i = some u ∧ s.server.take i u k = some s''.server := by
  simp only [Dispatch.step, Option.ite_none_left_eq_some, Option.bind_eq_some_iff, Option.map_eq_some_iff] at h
  obtain ⟨hi, u, hu, server, hserver, rfl⟩ := h
  simp only [Dispatch.step, Option.ite_none_right_eq_some, Option.map_eq_some_iff] at h'
  obtain ⟨-, c, hc, rfl⟩ := h'
  refine ⟨u, hu, ?_⟩
  rw [dispatch_place _ _ hc]
  obtain ⟨a, ha, rfl⟩ := Option.map_eq_some_iff.mp hserver
  rw [Server.take, ha, Option.map_some, update_update]
  simp only [Server.update, Function.update_self, Option.some.injEq] at hc
  subst hc
  rfl

/-! ## The invariant -/

/-- No call of `start` has thrown, a thread that looks for a worker has a
connection for it, and each connection is waiting, in a hand, or started:
in a worker, or closed. -/
structure Dispatch.Inv (s : Dispatch n κ) : Prop where
  threw : s.threw = false
  slot : ∀ i, s.looking i = true → (s.server.threads i).conn.isSome
  once : ∀ c, s.server.queued c + s.inHand c + s.started.count c ≤ if c ∈ s.server.enqueued then 1 else 0
  working : ∀ c, s.server.working c + s.server.closed.count c = s.started.count c

theorem inv_init : ({} : Dispatch n κ).Inv where
  threw := rfl
  slot i hi := by simp at hi
  once c := by simp [Server.queued, Dispatch.inHand]
  working c := by simp [Server.working]

theorem inv_other {s : Dispatch n κ} {server : Server n κ} (hs : s.Inv) (h : Outside s.server server) :
    ({ s with server } : Dispatch n κ).Inv where
  threw := hs.threw
  slot i hi := by
    rw [h.conn]
    exact hs.slot i hi
  once c := by
    have hhand : ({ s with server } : Dispatch n κ).inHand c = s.inHand c := by
      simp only [Dispatch.inHand, h.conn]
    have honce := hs.once c
    rcases h.queued with ⟨henq, hq⟩ | ⟨a, ha, henq, hq⟩
    · simp only [hhand, henq, hq]
      exact honce
    · simp only [hhand, henq, hq, List.mem_cons]
      by_cases hc : a = c
      · subst hc
        simp only [ha, if_false, if_true, true_or] at honce ⊢
        omega
      · simp only [hc, Ne.symm hc, if_false, false_or]
        exact honce
  working c := (h.working c).trans (hs.working c)

theorem inHand_take {s : Dispatch n κ} {server : Server n κ} {i : Fin n} {a : κ} (hi : s.looking i = false)
    (hslot : (server.threads i).conn = some a)
    (hconn : ∀ j, j ≠ i → (server.threads j).conn = (s.server.threads j).conn) (c : κ) :
    ({ s with server, looking := Function.update s.looking i true } : Dispatch n κ).inHand c =
      s.inHand c + if a = c then 1 else 0 := by
  have h := @sum_change n
    (fun j => if Function.update s.looking i true j ∧ (server.threads j).conn = some c then 1 else 0)
    (fun j => if s.looking j ∧ (s.server.threads j).conn = some c then 1 else 0) i
    (fun j hj => by simp only [Function.update_of_ne hj, hconn j hj])
  simp only [Function.update_self, hi, hslot, Option.some.injEq, Bool.false_eq_true, false_and, true_and,
    if_false] at h
  exact h

theorem inHand_drop {s t : Dispatch n κ} {i : Fin n} {a : κ} (hi : s.looking i = true)
    (hslot : (s.server.threads i).conn = some a) (hlooking : t.looking = Function.update s.looking i false)
    (hconn : ∀ j, (t.server.threads j).conn = (s.server.threads j).conn) (c : κ) :
    t.inHand c + (if a = c then 1 else 0) = s.inHand c := by
  have h := @sum_change n (fun j => if t.looking j ∧ (t.server.threads j).conn = some c then 1 else 0)
    (fun j => if s.looking j ∧ (s.server.threads j).conn = some c then 1 else 0) i
    (fun j hj => by simp only [hlooking, Function.update_of_ne hj, hconn j])
  simp only [hlooking, Function.update_self, hi, hconn, hslot, Option.some.injEq, Bool.false_eq_true, false_and,
    true_and, if_false, Nat.add_zero] at h
  simp only [Dispatch.inHand, hlooking, hconn]
  omega

theorem inv_tryDequeue {s : Dispatch n κ} {server : Server n κ} {i u : Fin n} {k : Nat} (hs : s.Inv)
    (hi : s.looking i = false) (h : s.server.fill i u k = some server) :
    ({ s with server, looking := Function.update s.looking i true } : Dispatch n κ).Inv := by
  obtain ⟨a, hq, hw, henq, hclosed, hslot, hconn⟩ := fill_effect h
  refine ⟨hs.threw, fun j hj => ?_, fun c => ?_, fun c => ?_⟩
  · by_cases hji : j = i
    · subst hji
      rw [hslot]
      rfl
    · rw [hconn j hji]
      simp only [Function.update_of_ne hji] at hj
      exact hs.slot j hj
  · have honce := hs.once c
    have hhand := inHand_take hi hslot hconn c
    have hqc := hq c
    simp only [henq]
    omega
  · simp only [hw, hclosed]
    exact hs.working c

theorem leave_outside (s : Dispatch n κ) (i : Fin n) : Outside s.server (s.leave i).server where
  conn := @conn_frame n κ s.server i (fun t => { t with phase := .idle }) rfl
  working c := congrArg (· + s.server.closed.count c)
    (@working_frame n κ _ s.server i (fun t => { t with phase := .idle }) c rfl)
  queued := .inl ⟨rfl, @queued_frame n κ _ s.server i (fun t => { t with phase := .idle }) rfl⟩

/-- A thread that returns from `dequeue` has the connection it had in its hand
to its own. -/
theorem inv_leave {s : Dispatch n κ} {i : Fin n} {a : κ} (hs : s.Inv) (hi : s.looking i = true)
    (hslot : (s.server.threads i).conn = some a) :
    (s.leave i).Inv ∧ ∀ c, (s.leave i).server.queued c + (s.leave i).inHand c + (a :: s.started).count c ≤
      if c ∈ s.server.enqueued then 1 else 0 := by
  have hout := leave_outside s i
  have hqueued : ∀ c, (s.leave i).server.queued c = s.server.queued c := fun c =>
    @queued_frame n κ _ s.server i (fun t => { t with phase := .idle }) rfl c
  have hhand := inHand_drop hi hslot (t := s.leave i) rfl hout.conn
  have hroom : ∀ c, (s.leave i).server.queued c + (s.leave i).inHand c + (a :: s.started).count c ≤
      if c ∈ s.server.enqueued then 1 else 0 := by
    intro c
    have honce := hs.once c
    have hmore := hhand c
    simp only [hqueued, List.count_cons, beq_iff_eq]
    omega
  refine ⟨⟨hs.threw, fun j hj => ?_, fun c => ?_, (inv_other hs hout).working⟩, hroom⟩
  · by_cases hji : j = i
    · subst hji
      simp [Dispatch.leave] at hj
    · simp only [Dispatch.leave, Function.update_of_ne hji] at hj
      exact (inv_other hs hout).slot j hj
  · have hone := hroom c
    rw [List.count_cons] at hone
    change (s.leave i).server.queued c + (s.leave i).inHand c + s.started.count c ≤
      if c ∈ s.server.enqueued then 1 else 0
    omega

theorem inv_dispatch {s : Dispatch n κ} {i : Fin n} {a : κ} (hs : s.Inv) (hi : s.looking i = true)
    (hslot : (s.server.threads i).conn = some a) : (s.dispatch i a).Inv := by
  obtain ⟨hleave, hroom⟩ := inv_leave hs hi hslot
  rcases dispatch_cases s i a with h | ⟨w, hw, h⟩
  · rw [h]
    exact hleave
  · rw [h]
    have hw' : ((s.leave i).server.threads i).workers[w]? = some none := by
      simp [Dispatch.leave, Server.update, hw]
    generalize hserver : ((s.leave i).server.update i fun t => { t with workers := t.workers.set w (some a) }) = server
    have hconn : ∀ j, (server.threads j).conn = ((s.leave i).server.threads j).conn := by
      rw [← hserver]
      exact conn_frame _ i rfl
    have hqueued : ∀ c, server.queued c = (s.leave i).server.queued c := by
      rw [← hserver]
      exact queued_frame _ i rfl
    have hworking : ∀ c, server.working c = (s.leave i).server.working c + if a = c then 1 else 0 := by
      intro c
      have h1 := working_update (s.leave i).server i (fun t => { t with workers := t.workers.set w (some a) }) c
      have h2 := count_set hw' (some a) c
      simp only [hserver, reduceCtorEq, if_false, Option.some.injEq] at h1 h2
      omega
    have hrest : server.enqueued = (s.leave i).server.enqueued ∧ server.closed = (s.leave i).server.closed := by
      rw [← hserver]
      exact ⟨rfl, rfl⟩
    refine ⟨hleave.threw, fun j hj => ?_, fun c => ?_, fun c => ?_⟩
    · rw [hconn]
      exact hleave.slot j hj
    · have hone := hroom c
      simp only [Dispatch.inHand, hconn, hqueued, hrest.1] at hone ⊢
      exact hone
    · have hc := hleave.working c
      simp only [hworking, hrest.2, List.count_cons, beq_iff_eq]
      change _ + _ = s.started.count c at hc
      omega

/-- **Every step keeps the invariant.** -/
theorem inv_step {s s' : Dispatch n κ} {m : Move n κ} (hs : s.Inv) (h : s.step m = some s') : s'.Inv := by
  cases m with
  | other a =>
    simp only [Dispatch.step, Option.ite_none_left_eq_some, Option.map_eq_some_iff, not_or] at h
    obtain ⟨⟨ha, -⟩, server, hserver, rfl⟩ := h
    exact inv_other hs (step_outside (by simpa using ha) hserver)
  | tryDequeue i k =>
    simp only [Dispatch.step, Option.ite_none_left_eq_some, Option.bind_eq_some_iff, Option.map_eq_some_iff] at h
    obtain ⟨hi, u, -, server, hserver, rfl⟩ := h
    exact inv_tryDequeue hs (by simpa using hi) hserver
  | dispatch i =>
    simp only [Dispatch.step, Option.ite_none_right_eq_some, Option.map_eq_some_iff] at h
    obtain ⟨hi, c, hc, rfl⟩ := h
    exact inv_dispatch hs hi hc

/-! ## Each connection once -/

/-- No call of `start` has thrown, none was for a connection that an earlier
call was for, nor will be the next one of any thread, and no two workers
that have not finished hold the same connection. -/
structure Dispatch.ServedOnce (s : Dispatch n κ) : Prop where
  threw : s.threw = false
  started : s.started.Nodup
  next : ∀ i c, s.looking i = true → (s.server.threads i).conn = some c → c ∉ s.started
  working : ∀ c, s.server.working c ≤ 1

theorem Dispatch.Inv.servedOnce {s : Dispatch n κ} (hs : s.Inv) : s.ServedOnce := by
  have hone (c : κ) : s.server.queued c + s.inHand c + s.started.count c ≤ 1 := by
    have h := hs.once c
    split at h <;> omega
  refine ⟨hs.threw, List.nodup_iff_count_le_one.mpr fun c => ?_, fun i c hi hc hmem => ?_, fun c => ?_⟩
  · have h := hone c
    omega
  · have hhand : 1 ≤ s.inHand c := by
      rw [Dispatch.inHand, ← Finset.add_sum_erase _ _ (Finset.mem_univ i), if_pos ⟨hi, hc⟩]
      omega
    have hstarted := List.count_pos_iff.mpr hmem
    have h := hone c
    omega
  · have h := hone c
    have hw := hs.working c
    omega

/-- **A worker never serves two connections, and no connection is served
twice**, however the threads' steps interleave. -/
theorem served_once (moves : List (Move n κ)) : Always Dispatch.step Dispatch.ServedOnce {} moves :=
  (Always.of_step (fun _ _ _ hs h => inv_step hs h) inv_init).mono fun _ hs => hs.servedOnce

end AudioToolApi.Work
