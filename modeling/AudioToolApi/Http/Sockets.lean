/-
The accept throttle (`raw_accept` in http/http_server.cpp). It counts
`http_connection` objects, and an object goes with the last `shared_ptr` to
it: in a queue, in a `*conn`, in a worker. But the socket is closed by
`close_socket` only, so the count says nothing about the sockets of
connections that were dropped from a `*conn` without having been started.
-/
import AudioToolApi.Http.WorkThreadFacts
import Mathlib.Data.List.Perm.Subperm

namespace AudioToolApi.Work

open Runs

variable {n : Nat} {κ : Type}

/-- Where `raw_accept` is: in front of the check of `open_connections`, in
`::accept`, with a raw socket, or with a connection for a queue. -/
inductive Acceptor (κ : Type)
  | waiting | accepting
  | accepted (sock : κ)
  | enqueuing (conn : κ)
  | returned
  deriving DecidableEq, Repr

/-- The server, with the sockets that were ever accepted, and the
`http_connection`s that are not destroyed. -/
structure Sockets (n : Nat) (κ : Type) where
  server : Server n κ := {}
  acceptor : Acceptor κ := .waiting
  accepted : List κ := []
  connections : List κ := []

/-- Constructors count up, destructors down. -/
def Sockets.openConnections (s : Sockets n κ) : Nat := s.connections.length

inductive AcceptAction (n : Nat) (κ : Type)
  | check
  | accept (sock : κ)
  /-- `again` is `EMFILE` or `ENFILE`. -/
  | acceptFails (again : Bool)
  /-- There is no thread. -/
  | overloaded
  | construct
  | enqueue (t : Fin n)
  | other (a : Action n κ)

def Action.enqueues : Action n κ → Bool
  | .enqueue _ _ => true
  | _ => false

variable [DecidableEq κ]

/-- A `shared_ptr` to the connection is left. -/
def Server.refers (s : Server n κ) (c : κ) : Prop :=
  ∃ i, c ∈ (s.threads i).queue ∨ (s.threads i).conn = some c ∨ some c ∈ (s.threads i).workers

instance (s : Server n κ) (c : κ) : Decidable (s.refers c) := inferInstanceAs (Decidable (∃ _, _))

def Sockets.refers (s : Sockets n κ) (c : κ) : Prop := s.acceptor = .enqueuing c ∨ s.server.refers c

instance (s : Sockets n κ) (c : κ) : Decidable (s.refers c) := inferInstanceAs (Decidable (_ ∨ _))

/-- The destructors that run. -/
def Sockets.release (s : Sockets n κ) : Sockets n κ := { s with connections := s.connections.filter (s.refers ·) }

def Sockets.step (s : Sockets n κ) : AcceptAction n κ → Option (Sockets n κ)
  | .check =>
    if s.acceptor = .waiting then
      some { s with acceptor := if s.openConnections > 800 then .waiting else .accepting }
    else none
  | .accept sock =>
    if s.acceptor = .accepting ∧ sock ∉ s.accepted then
      some { s with acceptor := .accepted sock, accepted := sock :: s.accepted }
    else none
  | .acceptFails again =>
    if s.acceptor = .accepting then some { s with acceptor := if again then .waiting else .returned } else none
  | .overloaded =>
    match s.acceptor with
    | .accepted _ => if n = 0 then some { s with acceptor := .returned } else none
    | _ => none
  | .construct =>
    match s.acceptor with
    | .accepted sock => some { s with acceptor := .enqueuing sock, connections := sock :: s.connections }
    | _ => none
  | .enqueue t =>
    match s.acceptor with
    | .enqueuing conn =>
      (Work.step s.server (.enqueue t conn)).map fun server => { s with server, acceptor := .waiting }.release
    | _ => none
  | .other a =>
    if a.enqueues then none else (Work.step s.server a).map fun server => { s with server }.release

/-- The sockets that are still open. -/
def Sockets.unclosed (s : Sockets n κ) : List κ := s.accepted.filter (· ∉ s.server.closed)

def Sockets.Throttled (s : Sockets n κ) : Prop := s.unclosed.length ≤ 801

/-- A worker was started for the connection. -/
def Server.Served (s : Server n κ) (c : κ) : Prop := (∃ i, some c ∈ (s.threads i).workers) ∨ c ∈ s.closed

instance (s : Server n κ) (c : κ) : Decidable (s.Served c) := inferInstanceAs (Decidable ((∃ _, _) ∨ _))

/-- A thread that dequeues has had a worker started for what its `*conn`
points at. -/
def Spent (s : Server n κ) : Action n κ → Prop
  | .tryOwn i (some _) | .steal i (some _) => ∀ c, (s.threads i).conn = some c → s.Served c
  | _ => True

def SlotSpent (s : Sockets n κ) : AcceptAction n κ → Prop
  | .other a => Spent s.server a
  | _ => True

/-- Whether what `*conn` points at is spent. -/
instance Server.decidableSlot (s : Server n κ) : ∀ slot : Option κ, Decidable (∀ c, slot = some c → s.Served c)
  | none => .isTrue fun _ h => by cases h
  | some c => decidable_of_iff (s.Served c) ⟨fun h d hd => Option.some.inj hd ▸ h, fun h => h c rfl⟩

instance (s : Server n κ) : ∀ a, Decidable (Spent s a)
  | .tryOwn i (some _) | .steal i (some _) => s.decidableSlot (s.threads i).conn
  | .tryOwn _ none | .steal _ none | .start _ _ | .join _ | .enqueue _ _ | .poll _ | .scan _ _ | .finish _ _ =>
    .isTrue trivial

instance (s : Sockets n κ) : ∀ a, Decidable (SlotSpent s a)
  | .other a => inferInstanceAs (Decidable (Spent s.server a))
  | .check | .accept _ | .acceptFails _ | .overloaded | .construct | .enqueue _ => .isTrue trivial

/-! ## References -/

/-- What was referred to still is, or is closed. -/
def KeepsRefs (s s' : Server n κ) : Prop := ∀ c, s.refers c ∨ c ∈ s.closed → s'.refers c ∨ c ∈ s'.closed

omit [DecidableEq κ] in
theorem KeepsRefs.update {s : Server n κ} {i : Fin n} {f : WorkThread n κ → WorkThread n κ}
    (h : ∀ c, (c ∈ (s.threads i).queue → c ∈ (f (s.threads i)).queue) ∧
      ((s.threads i).conn = some c → (f (s.threads i)).conn = some c) ∧
      (some c ∈ (s.threads i).workers → some c ∈ (f (s.threads i)).workers)) : KeepsRefs s (s.update i f) := by
  intro c hc
  rcases hc with ⟨j, hj⟩ | hclosed
  · refine .inl ⟨j, ?_⟩
    by_cases hji : j = i
    · subst hji
      simp only [Server.update, Function.update_self]
      obtain ⟨hqueue, hconn, hworkers⟩ := h c
      exact hj.imp hqueue (Or.imp hconn hworkers)
    · simpa only [Server.update, Function.update_of_ne hji] using hj
  · exact .inr hclosed

omit [DecidableEq κ] in
theorem place_queue (t : WorkThread n κ) (a : κ) : (t.place a).queue = t.queue ∧ (t.place a).conn = some a := by
  unfold WorkThread.place
  cases hw : t.workers.findIdx? Option.isNone with
  | none => simp only [hw, true_and]
  | some w =>
    simp only [hw]
    split <;> simp

omit [DecidableEq κ] in
/-- A worker that has not finished goes on. -/
theorem place_workers (t : WorkThread n κ) (a : κ) {c : κ} (hc : some c ∈ t.workers) :
    some c ∈ (t.place a).workers := by
  unfold WorkThread.place
  cases hw : t.workers.findIdx? Option.isNone with
  | none => simpa only [hw] using hc
  | some w =>
    simp only [hw]
    split
    · obtain ⟨j, hj, hget⟩ := List.mem_iff_getElem.mp hc
      have hne : w ≠ j := by
        intro e
        have hfree := free_worker hw
        rw [e, List.getElem?_eq_getElem hj, hget] at hfree
        cases hfree
      exact List.mem_iff_getElem.mpr ⟨j, by simpa using hj, by simp [hne, hget]⟩
    · exact hc

omit [DecidableEq κ] in
/-- The queue that a connection is taken from has the others left. -/
theorem dequeue_threads {s : Server n κ} {u : Fin n} {k : Nat} {a : κ} (ha : (s.threads u).queue[k]? = some a)
    (j : Fin n) :
    let r := s.update u fun t => { t with queue := t.queue.eraseIdx k }
    (r.threads j).conn = (s.threads j).conn ∧ (r.threads j).workers = (s.threads j).workers ∧
      ∀ c ∈ (s.threads j).queue, c = a ∨ c ∈ (r.threads j).queue := by
  intro r
  by_cases hj : j = u
  · subst hj
    simp only [r, Server.update, Function.update_self, true_and]
    intro c hc
    obtain ⟨hk, rfl⟩ := List.getElem?_eq_some_iff.mp ha
    exact List.mem_cons.mp ((List.getElem_cons_eraseIdx_perm hk).mem_iff.mpr hc)
  · simp only [r, Server.update, Function.update_of_ne hj, true_and]
    exact fun c hc => .inr hc

omit [DecidableEq κ] in
theorem take_keeps {s s' : Server n κ} {i u : Fin n} {k : Nat} (h : s.take i u k = some s')
    (hspent : ∀ c, (s.threads i).conn = some c → s.Served c) : KeepsRefs s s' := by
  obtain ⟨a, ha, rfl⟩ := Option.map_eq_some_iff.mp h
  have hthread := dequeue_threads ha
  have hclosed : (s.update u fun t => { t with queue := t.queue.eraseIdx k }).closed = s.closed := rfl
  generalize s.update u (fun t => { t with queue := t.queue.eraseIdx k }) = r at hthread hclosed
  have hworkers : ∀ j c, some c ∈ (s.threads j).workers →
      some c ∈ ((r.update i fun t => t.place a).threads j).workers := by
    intro j c hc
    rw [← (hthread j).2.1] at hc
    simp only [Server.update, Function.update_apply]
    split
    · rename_i hj
      subst hj
      exact place_workers _ a hc
    · exact hc
  have hserved : ∀ c, s.Served c → (r.update i fun t => t.place a).refers c ∨ c ∈ r.closed := by
    intro c hc
    rcases hc with ⟨j, hj⟩ | hc
    · exact .inl ⟨j, .inr (.inr (hworkers j c hj))⟩
    · exact .inr (hclosed ▸ hc)
  intro c hc
  rcases hc with ⟨j, hqueue | hconn | hworker⟩ | hc
  · rcases (hthread j).2.2 c hqueue with rfl | hqueue
    · refine .inl ⟨i, .inr (.inl ?_)⟩
      simp only [Server.update, Function.update_self]
      exact (place_queue _ _).2
    · refine .inl ⟨j, .inl ?_⟩
      simp only [Server.update, Function.update_apply]
      split
      · rename_i hj
        subst hj
        rw [(place_queue _ _).1]
        exact hqueue
      · exact hqueue
  · by_cases hj : j = i
    · subst hj
      exact hserved c (hspent c hconn)
    · refine .inl ⟨j, .inr (.inl ?_)⟩
      simp only [Server.update, Function.update_of_ne hj, (hthread j).1]
      exact hconn
  · exact .inl ⟨j, .inr (.inr (hworkers j c hworker))⟩
  · exact .inr (hclosed ▸ hc)

/-- `close_socket` drops the worker's reference, and closes the socket. -/
theorem finish_keeps {s : Server n κ} {i : Fin n} {w : Nat} {c : κ} (h : (s.threads i).workers[w]? = some (some c)) :
    KeepsRefs s { s.update i (fun t => { t with workers := t.workers.set w none }) with closed := c :: s.closed } := by
  intro c' hc'
  by_cases he : c' = c
  · exact .inr (he ▸ .head _)
  · rcases hc' with ⟨j, hj⟩ | hclosed
    · refine .inl ⟨j, ?_⟩
      by_cases hji : j = i
      · subst hji
        simp only [Server.update, Function.update_self]
        refine hj.imp id (Or.imp id fun hworker => ?_)
        obtain ⟨v, hv, hget⟩ := List.mem_iff_getElem.mp hworker
        have hne : w ≠ v := by
          intro e
          subst e
          rw [List.getElem?_eq_getElem hv, hget] at h
          simp only [Option.some.injEq] at h
          exact he h
        exact List.mem_iff_getElem.mpr ⟨v, by simpa using hv, by simp [hne, hget]⟩
      · simpa only [Server.update, Function.update_of_ne hji] using hj
    · exact .inr (.tail _ hclosed)

theorem step_keeps {s s' : Server n κ} {a : Action n κ} (h : step s a = some s') (hspent : Spent s a) :
    KeepsRefs s s' := by
  cases stepped h with
  | quiet _ hqueue hconn m hworkers =>
    refine .update fun c => ⟨?_, ?_, ?_⟩
    · rw [hqueue]
      exact id
    · rw [hconn]
      exact id
    · rw [hworkers]
      exact List.mem_append_left _
  | @enqueue i a _ =>
    exact KeepsRefs.update (f := fun t => { t with queue := t.queue ++ [a] }) fun c =>
      ⟨List.mem_append_left _, id, id⟩
  | take i u k ha htake =>
    rcases ha with rfl | rfl
    · exact take_keeps htake hspent
    · exact take_keeps htake hspent
  | finish hw => exact finish_keeps hw

/-- A closed socket stays closed. -/
theorem step_closed {s s' : Server n κ} {a : Action n κ} (h : step s a = some s') {c : κ} (hc : c ∈ s.closed) :
    c ∈ s'.closed := by
  cases stepped h with
  | quiet => exact hc
  | enqueue => exact hc
  | take i u k _ htake =>
    obtain ⟨a, -, rfl⟩ := Option.map_eq_some_iff.mp htake
    exact hc
  | finish => exact .tail _ hc

/-! ## The invariant -/

/-- As long as sockets are accepted, each that was and is not closed has a
connection, or is about to get one; and in `::accept` there are at most
800 of them. -/
structure Sockets.Inv (s : Sockets n κ) : Prop where
  throttled : s.Throttled
  room : s.acceptor = .accepting → s.openConnections ≤ 800
  nodup : s.accepted.Nodup
  owned : s.acceptor ≠ .returned → ∀ c ∈ s.accepted,
    c ∈ s.server.closed ∨ c ∈ s.connections ∨ s.acceptor = .accepted c
  alive : ∀ c ∈ s.connections, s.refers c

theorem sockets_init : ({} : Sockets n κ).Inv where
  throttled := by simp [Sockets.Throttled, Sockets.unclosed]
  room h := by cases h
  nodup := List.nodup_nil
  owned _ c hc := by cases hc
  alive c hc := by cases hc

/-- A step of the server, with the destructors that follow it. -/
theorem inv_release {s : Sockets n κ} {server : Server n κ} {acceptor : Acceptor κ} (hs : s.Inv)
    (hclosed : ∀ c ∈ s.server.closed, c ∈ server.closed)
    (hrefs : ∀ c, s.refers c → ({ s with server, acceptor } : Sockets n κ).refers c ∨ c ∈ server.closed)
    (hacceptor : acceptor = s.acceptor ∨ acceptor = .waiting ∧ ∃ c, s.acceptor = .enqueuing c) :
    ({ s with server, acceptor } : Sockets n κ).release.Inv where
  throttled := by
    refine Nat.le_trans ?_ hs.throttled
    simp only [Sockets.release, Sockets.unclosed, ← List.countP_eq_length_filter]
    refine List.countP_mono_left fun c _ hc => ?_
    have hopen := of_decide_eq_true hc
    exact decide_eq_true fun h => hopen (hclosed c h)
  room h := by
    have hwas : s.acceptor = .accepting := by
      rcases hacceptor with ha | ⟨ha, -⟩
      · rw [← ha]
        exact h
      · rw [Sockets.release, ha] at h
        cases h
    exact Nat.le_trans (List.length_filter_le _ _) (hs.room hwas)
  nodup := hs.nodup
  owned h c hc := by
    have hwas : s.acceptor ≠ .returned := by
      rcases hacceptor with ha | ⟨-, c, ha⟩
      · rw [← ha]
        exact h
      · simp [ha]
    rcases hs.owned hwas c hc with hc | hc | hc
    · exact .inl (hclosed c hc)
    · rcases hrefs c (hs.alive c hc) with hr | hr
      · exact .inr (.inl (List.mem_filter.mpr ⟨hc, decide_eq_true hr⟩))
      · exact .inl hr
    · rcases hacceptor with ha | ⟨-, c', ha⟩
      · exact .inr (.inr (ha.trans hc))
      · rw [ha] at hc
        cases hc
  alive c hc := of_decide_eq_true (List.mem_filter.mp hc).2

theorem inv_accept {s : Sockets n κ} {sock : κ} (hs : s.Inv) (ha : s.acceptor = .accepting) (hnew : sock ∉ s.accepted) :
    ({ s with acceptor := .accepted sock, accepted := sock :: s.accepted } : Sockets n κ).Inv where
  throttled := by
    -- every socket that is open has a connection, and there are at most 800
    have hsub : s.unclosed ⊆ s.connections := by
      intro c hc
      simp only [Sockets.unclosed, List.mem_filter, decide_eq_true_eq] at hc
      rcases hs.owned (by simp [ha]) c hc.1 with h | h | h
      · exact absurd h hc.2
      · exact h
      · rw [ha] at h
        cases h
    have hle : s.unclosed.length ≤ s.openConnections := ((hs.nodup.filter _).subperm hsub).length_le
    have hroom := hs.room ha
    simp only [Sockets.Throttled, Sockets.unclosed, List.filter_cons] at hle ⊢
    split
    · rw [List.length_cons]
      omega
    · omega
  room h := by cases h
  nodup := List.nodup_cons.mpr ⟨hnew, hs.nodup⟩
  owned _ c hc := by
    rcases List.mem_cons.mp hc with rfl | hc
    · exact .inr (.inr rfl)
    · rcases hs.owned (by simp [ha]) c hc with h | h | h
      · exact .inl h
      · exact .inr (.inl h)
      · rw [ha] at h
        cases h
  alive c hc := by
    rcases hs.alive c hc with h | h
    · rw [ha] at h
      cases h
    · exact .inr h

/-- `raw_accept` goes on without a connection. -/
theorem inv_moved {s : Sockets n κ} {acceptor : Acceptor κ} (hs : s.Inv) (ha : ∀ c, s.acceptor ≠ .enqueuing c)
    (hroom : acceptor = .accepting → s.openConnections ≤ 800)
    (howned : acceptor ≠ .returned → s.acceptor ≠ .returned ∧ ∀ c, s.acceptor ≠ .accepted c) :
    ({ s with acceptor } : Sockets n κ).Inv where
  throttled := hs.throttled
  room := hroom
  nodup := hs.nodup
  owned h c hc := by
    obtain ⟨hwas, hnone⟩ := howned h
    rcases hs.owned hwas c hc with h | h | h
    · exact .inl h
    · exact .inr (.inl h)
    · exact absurd h (hnone c)
  alive c hc := .inr ((hs.alive c hc).resolve_left (ha c))

theorem inv_construct {s : Sockets n κ} {sock : κ} (hs : s.Inv) (ha : s.acceptor = .accepted sock) :
    ({ s with acceptor := .enqueuing sock, connections := sock :: s.connections } : Sockets n κ).Inv where
  throttled := hs.throttled
  room h := by cases h
  nodup := hs.nodup
  owned _ c hc := by
    rcases hs.owned (by simp [ha]) c hc with h | h | h
    · exact .inl h
    · exact .inr (.inl (.tail _ h))
    · rw [ha, Acceptor.accepted.injEq] at h
      exact .inr (.inl (h ▸ .head _))
  alive c hc := by
    rcases List.mem_cons.mp hc with rfl | hc
    · exact .inl rfl
    · exact .inr ((hs.alive c hc).resolve_left (by simp [ha]))

theorem enqueue_refers {s server : Server n κ} {t : Fin n} {c : κ} (h : step s (.enqueue t c) = some server) :
    server.refers c := by
  simp only [step, Option.ite_none_left_eq_some, Option.some.injEq] at h
  obtain ⟨-, rfl⟩ := h
  exact ⟨t, .inl (by simp [Server.update])⟩

/-- **Every step keeps the invariant**, if it overwrites no connection that
was not started. -/
theorem sockets_step {s s' : Sockets n κ} {a : AcceptAction n κ} (hs : s.Inv) (hspent : SlotSpent s a)
    (h : s.step a = some s') : s'.Inv := by
  cases a with
  | check =>
    simp only [Sockets.step, Option.ite_none_right_eq_some, Option.some.injEq] at h
    obtain ⟨ha, rfl⟩ := h
    refine inv_moved hs (by simp [ha]) (fun hroom => ?_) (by simp [ha])
    by_contra hmany
    rw [if_pos (Nat.lt_of_not_le hmany)] at hroom
    cases hroom
  | accept sock =>
    simp only [Sockets.step, Option.ite_none_right_eq_some, Option.some.injEq] at h
    obtain ⟨⟨ha, hnew⟩, rfl⟩ := h
    exact inv_accept hs ha hnew
  | acceptFails again =>
    simp only [Sockets.step, Option.ite_none_right_eq_some, Option.some.injEq] at h
    obtain ⟨ha, rfl⟩ := h
    refine inv_moved hs (by simp [ha]) (fun _ => hs.room ha) (by simp [ha])
  | overloaded =>
    simp only [Sockets.step] at h
    split at h
    · rename_i sock ha
      simp only [Option.ite_none_right_eq_some, Option.some.injEq] at h
      obtain ⟨-, rfl⟩ := h
      exact inv_moved hs (by simp [ha]) (by simp) (by simp)
    · cases h
  | construct =>
    simp only [Sockets.step] at h
    split at h
    · rename_i sock ha
      simp only [Option.some.injEq] at h
      subst h
      exact inv_construct hs ha
    · cases h
  | enqueue t =>
    simp only [Sockets.step] at h
    split at h
    · rename_i conn ha
      obtain ⟨server, hserver, rfl⟩ := Option.map_eq_some_iff.mp h
      refine inv_release hs (fun c => step_closed hserver) (fun c hc => ?_) (.inr ⟨rfl, conn, ha⟩)
      rcases hc with hc | hc
      · rw [ha, Acceptor.enqueuing.injEq] at hc
        exact .inl (.inr (hc ▸ enqueue_refers hserver))
      · exact (step_keeps hserver trivial c (.inl hc)).imp .inr id
    · cases h
  | other a =>
    simp only [Sockets.step, Option.ite_none_left_eq_some, Option.map_eq_some_iff] at h
    obtain ⟨-, server, hserver, rfl⟩ := h
    refine inv_release hs (fun c => step_closed hserver) (fun c hc => ?_) (.inl rfl)
    rcases hc with hc | hc
    · exact .inl (.inl hc)
    · exact (step_keeps hserver hspent c (.inl hc)).imp .inr id

/-- **The throttle bounds the sockets that are open**, in every run in which
a thread that dequeues has had a worker started for what it dequeued
before. -/
theorem throttled_of_spent (as : List (AcceptAction n κ)) (h : Steps Sockets.step SlotSpent {} as) :
    Always Sockets.step Sockets.Throttled ({} : Sockets n κ) as :=
  (Steps.always (fun _ _ _ hs hspent h => sockets_step hs hspent h) sockets_init h).mono fun _ hs => hs.throttled

/-- The second connection takes the place of the first in `*conn`, which a
worker has by then. -/
theorem throttled_two :
    Always Sockets.step Sockets.Throttled ({} : Sockets 1 Nat)
      [.other (.start 0 2), .check, .accept 7, .construct, .enqueue 0, .other (.poll 0), .other (.tryOwn 0 (some 0)),
        .check, .accept 8, .construct, .enqueue 0, .other (.poll 0), .other (.tryOwn 0 (some 0))] :=
  throttled_of_spent _ (by decide)

/-! ## A busy worker -/

/-- The only thread has one worker, which keeps connection 0. -/
def busyThread (queue : List Nat) (conn : Nat) (phase : Phase 1) : WorkThread 1 Nat where
  queue := queue
  workers := [some 0]
  conn := some conn
  isRunning := true
  numWorkers := 1
  phase := phase

def busyServer (t : WorkThread 1 Nat) (enqueued : List Nat) : Server 1 Nat where
  threads := fun _ => t
  enqueued := enqueued

def upTo : Nat → List Nat
  | 0 => [0]
  | k + 1 => (k + 1) :: upTo k

/-- Connections 0 to `k` have come, and all but the last have been dropped. -/
def busy (k : Nat) : Sockets 1 Nat where
  server := busyServer (busyThread [] k .idle) (upTo k)
  accepted := upTo k
  connections := if k = 0 then [0] else [k, 0]

def round (k : Nat) : List (AcceptAction 1 Nat) :=
  [.check, .accept k, .construct, .enqueue 0, .other (.poll 0), .other (.tryOwn 0 (some 0))]

def busyRun : Nat → List (AcceptAction 1 Nat)
  | 0 => .other (.start 0 1) :: round 0
  | k + 1 => busyRun k ++ round (k + 1)

theorem le_of_mem_upTo {k c : Nat} (h : c ∈ upTo k) : c ≤ k := by
  induction k with
  | zero => simpa [upTo] using h
  | succ k ih =>
    rcases List.mem_cons.mp h with rfl | h
    · exact Nat.le_refl _
    · exact Nat.le_succ_of_le (ih h)

theorem length_upTo (k : Nat) : (upTo k).length = k + 1 := by
  induction k with
  | zero => rfl
  | succ k ih => rw [upTo, List.length_cons, ih]

theorem busyServer_update (t : WorkThread 1 Nat) (enqueued : List Nat) (f : WorkThread 1 Nat → WorkThread 1 Nat) :
    (busyServer t enqueued).update 0 f = busyServer (f t) enqueued := by
  have hthreads : Function.update (fun _ : Fin 1 => t) 0 (f t) = fun _ => f t := by
    funext i
    rw [Subsingleton.elim i 0, Function.update_self]
  simp only [Server.update, busyServer, hthreads]

theorem busyServer_refers {t : WorkThread 1 Nat} {enqueued : List Nat} {c : Nat} :
    (busyServer t enqueued).refers c ↔ c ∈ t.queue ∨ t.conn = some c ∨ some c ∈ t.workers := by
  simp [Server.refers, busyServer]

/-- After a step of the busy server. -/
theorem busy_release (t : WorkThread 1 Nat) (enqueued accepted connections : List Nat) :
    ({ server := busyServer t enqueued, accepted, connections } : Sockets 1 Nat).release =
      { server := busyServer t enqueued, accepted
        connections := connections.filter fun c => c ∈ t.queue ∨ t.conn = some c ∨ some c ∈ t.workers } := by
  simp [Sockets.release, Sockets.refers, busyServer_refers]

theorem busy_enqueue {k : Nat} {enqueued : List Nat} (hnew : k + 1 ∉ enqueued) :
    Work.step (busyServer (busyThread [] k .idle) enqueued) (.enqueue 0 (k + 1)) =
      some (busyServer (busyThread [k + 1] k .idle) ((k + 1) :: enqueued)) := by
  have hnew' : k + 1 ∉ (busyServer (busyThread [] k .idle) enqueued).enqueued := hnew
  rw [Work.step, if_neg hnew', busyServer_update]
  rfl

theorem busy_poll (k : Nat) (enqueued : List Nat) :
    Work.step (busyServer (busyThread [k + 1] k .idle) enqueued) (.poll 0) =
      some (busyServer (busyThread [k + 1] k .dequeuing) enqueued) := by
  have hidle : ((busyServer (busyThread [k + 1] k .idle) enqueued).threads 0).phase = .idle := rfl
  rw [Work.step, if_pos ⟨hidle, rfl⟩, busyServer_update]
  rfl

/-- No worker has finished. -/
theorem busy_dequeue (k : Nat) (enqueued : List Nat) :
    Work.step (busyServer (busyThread [k + 1] k .dequeuing) enqueued) (.tryOwn 0 (some 0)) =
      some (busyServer (busyThread [] (k + 1) .idle) enqueued) := by
  have hphase : ((busyServer (busyThread [k + 1] k .dequeuing) enqueued).threads 0).phase = .dequeuing := rfl
  have hqueue : ((busyServer (busyThread [k + 1] k .dequeuing) enqueued).threads 0).queue[0]? = some (k + 1) := rfl
  simp only [Work.step, if_pos hphase, Server.take, hqueue, Option.map_some, busyServer_update]
  rfl

/-- Another connection: the one before it is dropped, unless the worker has
it. -/
theorem busy_round (k : Nat) : Run Sockets.step (busy k) (round (k + 1)) (busy (k + 1)) := by
  have hnew : k + 1 ∉ upTo k := fun h => absurd (le_of_mem_upTo h) (by omega)
  have hfew : ¬ (busy k).connections.length > 800 := by
    simp only [busy]
    split <;> simp
  have hall : ∀ c ∈ (k + 1) :: (busy k).connections, c = k + 1 ∨ k = c ∨ c = 0 := by
    intro c hc
    simp only [busy] at hc
    split at hc <;> simp at hc <;> omega
  have hlast : ((k + 1) :: (busy k).connections).filter (fun c => k + 1 = c ∨ c = 0) = (busy (k + 1)).connections := by
    simp only [busy]
    by_cases hk : k = 0 <;> simp [hk]
  have hkept (phase : Phase 1) : ((k + 1) :: (busy k).connections).filter (fun c =>
      c ∈ (busyThread [k + 1] k phase).queue ∨ (busyThread [k + 1] k phase).conn = some c ∨
        some c ∈ (busyThread [k + 1] k phase).workers) = (k + 1) :: (busy k).connections := by
    refine List.filter_eq_self.mpr fun c hc => ?_
    simpa [busyThread] using hall c hc
  generalize hconnections : (busy k).connections = connections at hfew hlast hkept
  have hbusy : busy k = { server := busyServer (busyThread [] k .idle) (upTo k), accepted := upTo k, connections } := by
    rw [← hconnections]
    rfl
  rw [hbusy]
  refine .cons (t := { server := busyServer (busyThread [] k .idle) (upTo k)
                       acceptor := .accepting, accepted := upTo k, connections }) ?_ <|
    .cons (t := { server := busyServer (busyThread [] k .idle) (upTo k)
                  acceptor := .accepted (k + 1), accepted := upTo (k + 1), connections }) ?_ <|
    .cons rfl <|
    .cons (t := { server := busyServer (busyThread [k + 1] k .idle) (upTo (k + 1))
                  accepted := upTo (k + 1), connections := (k + 1) :: connections }) ?_ <|
    .cons (t := { server := busyServer (busyThread [k + 1] k .dequeuing) (upTo (k + 1))
                  accepted := upTo (k + 1), connections := (k + 1) :: connections }) ?_ <|
    .cons ?_ .nil
  · simp only [Sockets.step, if_true, Sockets.openConnections, hfew, if_false]
  · simp only [Sockets.step, hnew, not_false_eq_true, and_self, if_true, upTo]
  · simp only [Sockets.step, busy_enqueue hnew, Option.map_some, busy_release, hkept .idle]
    rfl
  · simp only [Sockets.step, Action.enqueues, Bool.false_eq_true, if_false, busy_poll, Option.map_some, busy_release,
      hkept .dequeuing]
  · simp only [Sockets.step, Action.enqueues, Bool.false_eq_true, if_false, busy_dequeue, Option.map_some, busy_release]
    have hdropped : ((k + 1) :: connections).filter (fun c =>
        c ∈ (busyThread [] (k + 1) .idle).queue ∨ (busyThread [] (k + 1) .idle).conn = some c ∨
          some c ∈ (busyThread [] (k + 1) .idle).workers) = (busy (k + 1)).connections := by
      simpa [busyThread] using hlast
    rw [hdropped]
    rfl

/-- The thread before its first connection. -/
def newThread (queue : List Nat) (phase : Phase 1) : WorkThread 1 Nat where
  queue := queue
  workers := [none]
  isRunning := true
  numWorkers := 1
  phase := phase

theorem first_run : Run Sockets.step {} (busyRun 0) (busy 0) := by
  have hinit : ({} : Server 1 Nat) = busyServer {} [] := rfl
  have hstart : Work.step ({} : Server 1 Nat) (.start 0 1) = some (busyServer (newThread [] .idle) []) := by
    rw [Work.step, if_pos rfl, hinit, busyServer_update]
    rfl
  have henqueue : Work.step (busyServer (newThread [] .idle) []) (.enqueue 0 0) =
      some (busyServer (newThread [0] .idle) [0]) := by
    rw [Work.step, if_neg (by simp [busyServer]), busyServer_update]
    rfl
  have hpoll : Work.step (busyServer (newThread [0] .idle) [0]) (.poll 0) =
      some (busyServer (newThread [0] .dequeuing) [0]) := by
    have hidle : ((busyServer (newThread [0] .idle) [0]).threads 0).phase = .idle := rfl
    rw [Work.step, if_pos ⟨hidle, rfl⟩, busyServer_update]
    rfl
  have hdequeue : Work.step (busyServer (newThread [0] .dequeuing) [0]) (.tryOwn 0 (some 0)) =
      some (busyServer (busyThread [] 0 .idle) [0]) := by
    have hphase : ((busyServer (newThread [0] .dequeuing) [0]).threads 0).phase = .dequeuing := rfl
    have hqueue : ((busyServer (newThread [0] .dequeuing) [0]).threads 0).queue[0]? = some 0 := rfl
    simp only [Work.step, if_pos hphase, Server.take, hqueue, Option.map_some, busyServer_update]
    rfl
  refine .cons (t := { server := busyServer (newThread [] .idle) [] }) ?_ <|
    .cons rfl <| .cons rfl <|
    .cons (t := { server := busyServer (newThread [] .idle) [], acceptor := .enqueuing 0, accepted := [0]
                  connections := [0] }) rfl <|
    .cons (t := { server := busyServer (newThread [0] .idle) [0], accepted := [0], connections := [0] }) ?_ <|
    .cons (t := { server := busyServer (newThread [0] .dequeuing) [0], accepted := [0], connections := [0] }) ?_ <|
    .cons ?_ .nil
  · rw [Sockets.step, hstart]
    rfl
  · simp only [Sockets.step, henqueue]
    rfl
  · rw [Sockets.step, hpoll]
    rfl
  · rw [Sockets.step, hdequeue]
    rfl

theorem busyRun_run (k : Nat) : Run Sockets.step {} (busyRun k) (busy k) := by
  induction k with
  | zero => exact first_run
  | succ k ih => exact ih.append (busy_round k)

theorem length_unclosed (k : Nat) : (busy k).unclosed.length = k + 1 := by
  have hopen : (busy k).unclosed = upTo k := by simp [Sockets.unclosed, busy, busyServer]
  rw [hopen, length_upTo]

/-- While the worker keeps the first connection, the sockets of the others
stay open, and are not counted. -/
theorem sockets_unbounded : ¬ ∀ as : List (AcceptAction 1 Nat), Always Sockets.step Sockets.Throttled {} as := by
  intro h
  have hbusy (k : Nat) : k + 1 ≤ 801 := by
    rw [← length_unclosed]
    exact always_iff_prefix.mp (h (busyRun k)) _ _ List.prefix_rfl (busyRun_run k)
  exact absurd (hbusy 801) (by simp)

end AudioToolApi.Work
