/-
Where connections are. Every step but one moves a connection from one place
to another, or leaves it: `dequeue` takes a connection off a queue before it
looks for a worker, and `*conn`, where the connection is then, is
overwritten by the next one.
-/
import AudioToolApi.Http.WorkThread
import AudioToolApi.Lib.Runs

namespace AudioToolApi.Work

open Runs

variable {n : Nat} {κ : Type} [DecidableEq κ]

/-! ## Steps -/

/-- A `try_dequeue` returns `true`. -/
def Action.dequeues : Action n κ → Bool
  | .tryOwn _ (some _) | .steal _ (some _) => true
  | _ => false

/-- What a step can be: it changes phases and flags, and adds workers that
have finished; or a connection comes in, is taken off a queue, or is
closed. -/
inductive Stepped (s : Server n κ) : Action n κ → Server n κ → Prop
  | quiet {a} (ha : a.dequeues = false) {i} {f : WorkThread n κ → WorkThread n κ}
      (hqueue : (f (s.threads i)).queue = (s.threads i).queue) (hconn : (f (s.threads i)).conn = (s.threads i).conn)
      (m : Nat) (hworkers : (f (s.threads i)).workers = (s.threads i).workers ++ List.replicate m none) :
      Stepped s a (s.update i f)
  | enqueue {i c} (hc : c ∉ s.enqueued) :
      Stepped s (.enqueue i c) { s.update i (fun t => { t with queue := t.queue ++ [c] }) with enqueued := c :: s.enqueued }
  | take {a s'} (i u : Fin n) (k : Nat) (ha : a = .tryOwn i (some k) ∨ a = .steal i (some k))
      (h : s.take i u k = some s') : Stepped s a s'
  | finish {i w c} (hw : (s.threads i).workers[w]? = some (some c)) :
      Stepped s (.finish i w)
        { s.update i (fun t => { t with workers := t.workers.set w none }) with closed := c :: s.closed }

theorem stepped {s s' : Server n κ} {a : Action n κ} (h : step s a = some s') : Stepped s a s' := by
  cases a with
  | start i numWorkers =>
    simp only [step, Option.ite_none_right_eq_some, Option.some.injEq] at h
    obtain ⟨-, rfl⟩ := h
    exact .quiet rfl rfl rfl numWorkers rfl
  | join i =>
    simp only [step, Option.some.injEq] at h
    subst h
    exact .quiet rfl rfl rfl 0 (List.append_nil _).symm
  | enqueue i c =>
    simp only [step, Option.ite_none_left_eq_some, Option.some.injEq] at h
    obtain ⟨hc, rfl⟩ := h
    exact .enqueue hc
  | poll i =>
    simp only [step, Option.ite_none_right_eq_some, Option.some.injEq] at h
    obtain ⟨-, rfl⟩ := h
    exact .quiet rfl rfl rfl 0 (List.append_nil _).symm
  | tryOwn i k =>
    simp only [step, Option.ite_none_right_eq_some] at h
    obtain ⟨-, h⟩ := h
    cases k with
    | some k => exact .take i i k (.inl rfl) h
    | none =>
      simp only [Option.some.injEq] at h
      subst h
      exact .quiet rfl rfl rfl 0 (List.append_nil _).symm
  | scan i sizes =>
    simp only [step, Option.ite_none_right_eq_some, Option.some.injEq] at h
    obtain ⟨-, rfl⟩ := h
    exact .quiet rfl rfl rfl 0 (List.append_nil _).symm
  | steal i k =>
    simp only [step] at h
    split at h
    · rename_i tt _
      cases k with
      | some k => exact .take i tt k (.inr rfl) h
      | none =>
        simp only [Option.some.injEq] at h
        subst h
        exact .quiet rfl rfl rfl 0 (List.append_nil _).symm
    · cases h
  | finish i w =>
    simp only [step, Option.ite_none_right_eq_some] at h
    obtain ⟨-, h⟩ := h
    split at h
    · rename_i c hc
      simp only [Option.some.injEq] at h
      subst h
      exact .finish hc
    · cases h

/-! ## Counting -/

omit [DecidableEq κ] in
/-- Changing one summand. -/
theorem sum_update {α : Type} (f : α → Nat) (g : Fin n → α) (i : Fin n) (a : α) :
    (∑ j, f (Function.update g i a j)) + f (g i) = (∑ j, f (g j)) + f a := by
  rw [← Finset.add_sum_erase _ _ (Finset.mem_univ i), ← Finset.add_sum_erase _ (fun j => f (g j)) (Finset.mem_univ i),
    Function.update_self]
  have hrest : ∑ j ∈ Finset.univ.erase i, f (Function.update g i a j) = ∑ j ∈ Finset.univ.erase i, f (g j) :=
    Finset.sum_congr rfl fun j hj => by rw [Function.update_of_ne (Finset.ne_of_mem_erase hj)]
  rw [hrest]
  omega

theorem places_update (s : Server n κ) (i : Fin n) (f : WorkThread n κ → WorkThread n κ) (c : κ) :
    (s.update i f).places c + (s.threads i).holds c = s.places c + (f (s.threads i)).holds c := by
  have h := sum_update (fun t => WorkThread.holds t c) s.threads i (f (s.threads i))
  simp only [Server.places, Server.update] at h ⊢
  omega

theorem count_finished (ws : List (Option κ)) (m : Nat) (c : κ) :
    (ws ++ List.replicate m none).count (some c) = ws.count (some c) := by
  simp [List.count_append, List.count_replicate]

theorem count_eraseIdx {xs : List κ} {k : Nat} {a : κ} (h : xs[k]? = some a) (c : κ) :
    (xs.eraseIdx k).count c + (if a = c then 1 else 0) = xs.count c := by
  obtain ⟨hk, rfl⟩ := List.getElem?_eq_some_iff.mp h
  rw [← (List.getElem_cons_eraseIdx_perm hk).count_eq, List.count_cons]
  simp only [beq_iff_eq]

theorem count_set {ws : List (Option κ)} {w : Nat} {o : Option κ} (h : ws[w]? = some o) (o' : Option κ) (c : κ) :
    (ws.set w o').count (some c) + (if o = some c then 1 else 0) =
      ws.count (some c) + if o' = some c then 1 else 0 := by
  obtain ⟨hw, rfl⟩ := List.getElem?_eq_some_iff.mp h
  have hle : (if ws[w] = some c then 1 else 0) ≤ ws.count (some c) := by
    split
    · rename_i he
      exact List.count_pos_iff.mpr (he ▸ List.getElem_mem hw)
    · exact Nat.zero_le _
  rw [List.count_set hw]
  simp only [beq_iff_eq]
  omega

/-! ## Taking a connection -/

omit [DecidableEq κ] in
/-- The worker that the loop stops at has finished. -/
theorem free_worker {workers : List (Option κ)} {w : Nat} (h : workers.findIdx? Option.isNone = some w) :
    workers[w]? = some none := by
  obtain ⟨hlt, hf, -⟩ := List.findIdx?_eq_some_iff_getElem.mp h
  rw [List.getElem?_eq_getElem hlt, Option.isNone_iff_eq_none.mp hf]

/-- A connection that `dequeue` has taken is in a place again if the thread
has room for it. -/
theorem place_holds (t : WorkThread n κ) (a c : κ) :
    (t.Room → (t.place a).holds c = t.holds c + if a = c then 1 else 0) ∧
    (¬ t.Room → (t.place a).holds c = t.holds c) := by
  unfold WorkThread.place
  cases hw : t.workers.findIdx? Option.isNone with
  | none =>
    have hnone : none ∉ t.workers := fun h => nomatch List.findIdx?_eq_none_iff.mp hw _ h
    exact ⟨fun h => absurd h.2 hnone, fun _ => by simp only [hw]; rfl⟩
  | some w =>
    have hget := free_worker hw
    have hmem : none ∈ t.workers := List.mem_of_getElem? hget
    constructor
    · intro h
      have hc := count_set hget (some a) c
      simp only [hw, h.1, if_true, WorkThread.holds] at hc ⊢
      simp only [reduceCtorEq, if_false, Option.some.injEq] at hc
      omega
    · intro h
      have hrun : t.isRunning ≠ true := fun hr => h ⟨hr, hmem⟩
      simp only [hw, if_neg hrun]
      rfl

theorem take_places {s s' : Server n κ} {i u : Fin n} {k : Nat} (h : s.take i u k = some s') :
    ∃ a, 0 < s.places a ∧ s'.enqueued = s.enqueued ∧
      ((s.threads i).Room → ∀ c, s'.places c = s.places c) ∧
      (¬ (s.threads i).Room → ∀ c, s'.places c + (if a = c then 1 else 0) = s.places c) := by
  obtain ⟨a, ha, rfl⟩ := Option.map_eq_some_iff.mp h
  generalize hr : s.update u (fun t => { t with queue := t.queue.eraseIdx k }) = r
  have hroom : (r.threads i).Room ↔ (s.threads i).Room := by
    rw [← hr, Server.update]
    by_cases hi : i = u
    · subst hi
      simp only [Function.update_self]
      rfl
    · simp only [Function.update_of_ne hi]
  have hpop : ∀ c, r.places c + (if a = c then 1 else 0) = s.places c := by
    intro c
    have h1 := places_update s u (fun t => { t with queue := t.queue.eraseIdx k }) c
    have h2 := count_eraseIdx ha c
    simp only [WorkThread.holds, hr] at h1
    omega
  have hplace := fun c => places_update r i (fun t => t.place a) c
  refine ⟨a, ?_, by rw [← hr]; rfl, fun h c => ?_, fun h c => ?_⟩
  · have := hpop a
    rw [if_pos rfl] at this
    omega
  · have h1 := hpop c
    have h2 := hplace c
    have h3 := (place_holds (r.threads i) a c).1 (hroom.mpr h)
    omega
  · have h1 := hpop c
    have h2 := hplace c
    have h3 := (place_holds (r.threads i) a c).2 (fun h' => h (hroom.mp h'))
    omega

/-! ## Steps -/

/-- What a step does to the places of connections. -/
inductive Effect (s : Server n κ) (a : Action n κ) (s' : Server n κ) : Prop
  | kept (hroom : HasRoom s a) (henq : s'.enqueued = s.enqueued) (h : ∀ c, s'.places c = s.places c)
  | new (c : κ) (hroom : HasRoom s a) (hc : c ∉ s.enqueued) (henq : s'.enqueued = c :: s.enqueued)
      (h : ∀ c', s'.places c' = s.places c' + if c = c' then 1 else 0)
  | lost (c : κ) (hroom : ¬ HasRoom s a) (hc : 0 < s.places c) (henq : s'.enqueued = s.enqueued)
      (h : ∀ c', s'.places c' + (if c = c' then 1 else 0) = s.places c')

omit [DecidableEq κ] in
theorem hasRoom_of_quiet {s : Server n κ} {a : Action n κ} (ha : a.dequeues = false) : HasRoom s a := by
  cases a with
  | tryOwn i k =>
    cases k with
    | some k => cases ha
    | none => trivial
  | steal i k =>
    cases k with
    | some k => cases ha
    | none => trivial
  | _ => trivial

theorem take_effect {s s' : Server n κ} {a : Action n κ} {i u : Fin n} {k : Nat}
    (ha : HasRoom s a ↔ (s.threads i).Room) (h : s.take i u k = some s') : Effect s a s' := by
  obtain ⟨c, hc, henq, hkept, hlost⟩ := take_places h
  by_cases hr : (s.threads i).Room
  · exact .kept (ha.mpr hr) henq (hkept hr)
  · exact .lost c (fun h => hr (ha.mp h)) hc henq (hlost hr)

theorem finish_places {s : Server n κ} {i : Fin n} {w : Nat} {c : κ} (h : (s.threads i).workers[w]? = some (some c))
    (c' : κ) : { s.update i (fun t => { t with workers := t.workers.set w none }) with
      closed := c :: s.closed }.places c' = s.places c' := by
  have h1 := places_update s i (fun t => { t with workers := t.workers.set w none }) c'
  have h2 := count_set h none c'
  simp only [WorkThread.holds, Server.places, Server.update, List.count_cons, beq_iff_eq, Option.some.injEq,
    reduceCtorEq, if_false] at h1 h2 ⊢
  omega

/-- **Everything a step does to places.** -/
theorem step_effect {s s' : Server n κ} {a : Action n κ} (h : step s a = some s') : Effect s a s' := by
  cases stepped h with
  | @quiet _ ha i f hqueue _ m hworkers =>
    refine .kept (hasRoom_of_quiet ha) rfl fun c => ?_
    have h1 := places_update s i f c
    simp only [WorkThread.holds, hqueue, hworkers, count_finished] at h1
    omega
  | @enqueue i c hc =>
    refine .new c trivial hc rfl fun c' => ?_
    have h1 := places_update s i (fun t => { t with queue := t.queue ++ [c] }) c'
    simp only [WorkThread.holds, Server.places, Server.update, List.count_append, List.count_singleton,
      beq_iff_eq] at h1 ⊢
    omega
  | take i u k ha htake =>
    rcases ha with rfl | rfl
    · exact take_effect Iff.rfl htake
    · exact take_effect Iff.rfl htake
  | finish hw => exact .kept trivial rfl (finish_places hw)

/-- Each connection that was enqueued is in one place, and no other is in
any. -/
def Server.Accounted (s : Server n κ) : Prop := ∀ c, s.places c = if c ∈ s.enqueued then 1 else 0

theorem Server.Accounted.noneLost {s : Server n κ} (hs : s.Accounted) : s.NoneLost := fun c hc => by
  rw [hs c, if_pos hc]

theorem accounted_init : ({} : Server n κ).Accounted := fun c => by
  simp [Server.places, WorkThread.holds]

/-- **When no connection is lost.** Over any run, every connection that was
enqueued is in exactly one place at each moment, if and only if every
thread that takes a connection off a queue is running and has a free worker
for it. -/
theorem noneLost_iff_hasRoom (as : List (Action n κ)) :
    Always step Server.NoneLost ({} : Server n κ) as ↔ Steps step HasRoom ({} : Server n κ) as := by
  refine always_iff_steps (I := Server.Accounted) (fun _ h => h.noneLost) ?_ ?_ accounted_init
  · intro s a s' hs hroom h c
    cases step_effect h with
    | kept _ henq hp => rw [hp, henq, hs]
    | new c' _ hc henq hp =>
      rw [hp, henq, hs c]
      by_cases he : c' = c
      · subst he
        rw [if_neg hc, if_pos rfl, if_pos (.head _)]
      · simp only [List.mem_cons, he, Ne.symm he, if_false, false_or, Nat.add_zero]
    | lost _ hroom' => exact absurd hroom hroom'
  · intro s a s' hs hroom h hnone
    cases step_effect h with
    | kept hroom' => exact hroom hroom'
    | new _ hroom' => exact hroom hroom'
    | lost c _ hc henq hp =>
      have hone := hs c
      have hmem : c ∈ s.enqueued := by
        by_contra hmem
        rw [if_neg hmem] at hone
        omega
      have hafter := hp c
      rw [hnone c (henq ▸ hmem), hone, if_pos hmem, if_pos rfl] at hafter
      omega

/-- One worker, two connections: the second one is taken off the queue while
the worker has the first. -/
theorem second_connection_lost : ¬ ∀ as : List (Action 1 Nat), Always step Server.NoneLost {} as := by
  intro h
  have hlast := always_iff_prefix.mp (h [.start 0 1, .enqueue 0 7, .enqueue 0 8, .poll 0, .tryOwn 0 (some 0),
    .poll 0, .tryOwn 0 (some 0)]) _ _ List.prefix_rfl
    (.cons rfl (.cons rfl (.cons rfl (.cons rfl (.cons rfl (.cons rfl (.cons rfl .nil)))))))
  exact absurd (hlast 8 (by decide)) (by decide)

end AudioToolApi.Work
