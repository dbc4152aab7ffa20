/-
Stealing (`dequeue` in http/http_work_thread.h), when no other thread is at
the queues. A thread with an empty queue looks at one other queue, that of
the first thread with the greatest load factor. Workers count in a load
factor, so that queue can be the empty one.
-/
import AudioToolApi.Http.WorkThreadFacts
import AudioToolApi.Lib.Scan
import Mathlib.Data.Nat.Cast.Order.Ring
import Mathlib.Order.WithBot

namespace AudioToolApi.Work

open Runs Scan

variable {n : Nat} {κ : Type}

/-! ## The scan -/

/-- Where a load factor stands. `0/0` is less than every other one. -/
def Load.rank : Load → WithBot (WithTop ℚ)
  | .nan => ⊥
  | .finite q => ((q : WithTop ℚ) : WithBot (WithTop ℚ))
  | .inf => ((⊤ : WithTop ℚ) : WithBot (WithTop ℚ))

/-- How loaded thread `t` is, if its queue is as long as `sizes` says. -/
def rankOf (sizes : Fin n → Nat) (threads : Fin n → WorkThread n κ) (t : Fin n) : WithBot (WithTop ℚ) :=
  ((threads t).loadFactor (sizes t)).rank

theorem Load.gt_iff {a b : Load} (hb : b ≠ .nan) : a.gt b = true ↔ b.rank < a.rank := by
  cases b with
  | nan => exact absurd rfl hb
  | finite q =>
    cases a with
    | nan | finite p => simp [Load.gt, Load.rank]
    | inf => exact iff_of_true rfl (WithBot.coe_lt_coe.mpr (WithTop.coe_lt_top q))
  | inf => cases a <;> simp [Load.gt, Load.rank]

theorem Load.ne_nan_of_gt {a b : Load} (h : a.gt b = true) : a ≠ .nan := by
  rintro rfl
  cases b <;> cases h

/-- The loop is a scan for the greatest. -/
theorem mostLoaded_loop (load : Fin n → Load) (l : List (Fin n)) (acc : Option (Fin n) × Load)
    (hacc : acc.2 ≠ .nan) :
    (l.foldl (fun (acc : Option (Fin n) × Load) t =>
      if (load t).gt acc.2 then (some t, load t) else (acc.1, acc.2)) acc).1 =
      (scan (fun t => (load t).rank) (acc.1, acc.2.rank) l).1 := by
  induction l generalizing acc with
  | nil => rfl
  | cons t l ih =>
    rw [List.foldl_cons, scan_cons]
    by_cases ht : (load t).gt acc.2 = true
    · rw [if_pos ht, if_pos ((Load.gt_iff hacc).mp ht), ih _ (Load.ne_nan_of_gt ht)]
    · rw [if_neg ht, if_neg (fun h => ht ((Load.gt_iff hacc).mpr h)), ih acc hacc]

theorem mostLoaded_eq_scan (sizes : Fin n → Nat) (threads : Fin n → WorkThread n κ) :
    mostLoaded sizes threads = (scan (rankOf sizes threads) (none, (Load.finite (-1)).rank) (List.finRange n)).1 :=
  mostLoaded_loop (fun t => (threads t).loadFactor (sizes t)) _ (none, .finite (-1)) nofun

/-- Every load factor but `0/0` is above the `-1` that the scan begins with. -/
theorem start_lt_rank {size : Nat} {t : WorkThread n κ} (h : t.loadFactor size ≠ .nan) :
    (Load.finite (-1)).rank < (t.loadFactor size).rank := by
  refine (Load.gt_iff (b := .finite (-1)) nofun).mp ?_
  simp only [WorkThread.loadFactor] at h ⊢
  split at h
  · split at h
    · exact absurd rfl h
    · rename_i hworkers hload
      rw [if_pos hworkers, if_neg hload]
      rfl
  · rename_i hworkers
    rw [if_neg hworkers]
    exact decide_eq_true (lt_of_lt_of_le (neg_lt_zero.mpr one_pos) (div_nonneg (Nat.cast_nonneg _) (Nat.cast_nonneg _)))

theorem loadFactor_ne_nan {size : Nat} {t : WorkThread n κ} (h : size ≠ 0) : t.loadFactor size ≠ .nan := by
  simp only [WorkThread.loadFactor]
  split
  · rw [if_neg (by omega)]
    nofun
  · nofun

/-- Whom `dequeue` would steal from: the first thread with the greatest load
factor, `0/0` apart. -/
theorem mostLoaded_eq_some {sizes : Fin n → Nat} {threads : Fin n → WorkThread n κ} {tt : Fin n} :
    mostLoaded sizes threads = some tt ↔
      FirstMax (rankOf sizes threads) (List.finRange n) tt ∧ (threads tt).loadFactor (sizes tt) ≠ .nan := by
  rw [mostLoaded_eq_scan]
  rcases scan_eq (rankOf sizes threads) (none, (Load.finite (-1)).rank) (List.finRange n) with
    ⟨hle, hscan⟩ | ⟨u, hmax, hlt, hscan⟩
  · rw [hscan]
    constructor
    · nofun
    · rintro ⟨-, htt⟩
      exact absurd (start_lt_rank htt) (not_lt.mpr (hle tt (List.mem_finRange tt)))
  · rw [hscan]
    constructor
    · intro hu
      cases Option.some.inj hu
      refine ⟨hmax, fun hnan => ?_⟩
      rw [rankOf, hnan] at hlt
      exact absurd hlt not_lt_bot
    · rintro ⟨htt, -⟩
      rw [hmax.unique htt]

/-! ## One dequeue -/

variable [DecidableEq κ] {s t : Server n κ} {i : Fin n} {as : List (Action n κ)}

def Server.sizes (s : Server n κ) : Fin n → Nat := fun u => (s.threads u).queue.length

/-- A step of `dequeue` of thread `i` with no other thread at the queues:
`size_approx` is exact, and `try_dequeue` fails on an empty queue only. -/
def AloneIn (i : Fin n) (s : Server n κ) : Action n κ → Prop
  | .tryOwn j k => j = i ∧ (k = none → (s.threads i).queue = [])
  | .scan j sizes => j = i ∧ sizes = s.sizes
  | .steal j k => j = i ∧ (k = none → ∀ tt, (s.threads i).phase = .stealing tt → (s.threads tt).queue = [])
  | _ => False

/-- One `dequeue` of thread `i`, from its call to its return, taken alone. -/
structure Dequeue (i : Fin n) (s : Server n κ) (as : List (Action n κ)) (t : Server n κ) : Prop where
  called : (s.threads i).phase = .dequeuing
  run : Run step s as t
  alone : Steps step (AloneIn i) s as
  returned : (t.threads i).phase = .idle

def Server.setPhase (s : Server n κ) (i : Fin n) (p : Phase n) : Server n κ :=
  s.update i fun t => { t with phase := p }

omit [DecidableEq κ] in
@[simp] theorem setPhase_phase (s : Server n κ) (i : Fin n) (p : Phase n) :
    ((s.setPhase i p).threads i).phase = p := by
  simp [Server.setPhase, Server.update]

omit [DecidableEq κ] in
@[simp] theorem setPhase_queue (s : Server n κ) (i u : Fin n) (p : Phase n) :
    ((s.setPhase i p).threads u).queue = (s.threads u).queue := by
  by_cases h : u = i
  · subst h
    simp [Server.setPhase, Server.update]
  · simp [Server.setPhase, Server.update, h]

omit [DecidableEq κ] in
@[simp] theorem setPhase_sizes (s : Server n κ) (i : Fin n) (p : Phase n) : (s.setPhase i p).sizes = s.sizes :=
  funext fun u => by rw [Server.sizes, setPhase_queue, Server.sizes]

omit [DecidableEq κ] in
@[simp] theorem setPhase_mostLoaded (s : Server n κ) (sizes : Fin n → Nat) (i : Fin n) (p : Phase n) :
    mostLoaded sizes (s.setPhase i p).threads = mostLoaded sizes s.threads := by
  have hload : ∀ u, ((s.setPhase i p).threads u).loadFactor (sizes u) = (s.threads u).loadFactor (sizes u) := by
    intro u
    by_cases h : u = i
    · subst h
      simp [Server.setPhase, Server.update, WorkThread.loadFactor]
    · simp [Server.setPhase, Server.update, h]
  simp only [mostLoaded, hload]

omit [DecidableEq κ] in
@[simp] theorem place_phase (t : WorkThread n κ) (c : κ) : (t.place c).phase = .idle := by
  simp only [WorkThread.place]
  split
  · split <;> rfl
  · rfl

omit [DecidableEq κ] in
/-- After a connection was taken, `dequeue` has returned. -/
theorem take_some {u : Fin n} {k : Nat} (h : s.take i u k = some t) :
    (t.threads i).phase = .idle ∧ k < (s.threads u).queue.length := by
  obtain ⟨c, hc, rfl⟩ := Option.map_eq_some_iff.mp h
  refine ⟨?_, (List.getElem?_eq_some_iff.mp hc).1⟩
  simp only [Server.update, Function.update_self, place_phase]

omit [DecidableEq κ] in
theorem exists_take (i : Fin n) {u : Fin n} (h : (s.threads u).queue ≠ []) : ∃ t, s.take i u 0 = some t := by
  obtain ⟨c, q, hq⟩ := List.exists_cons_of_ne_nil h
  exact ⟨_, by rw [Server.take, hq]; rfl⟩

omit [DecidableEq κ] in
theorem alone_cases {a : Action n κ} (ha : AloneIn i s a) :
    (∃ k, a = .tryOwn i k ∧ (k = none → (s.threads i).queue = [])) ∨ a = .scan i s.sizes ∨
      ∃ k, a = .steal i k ∧ (k = none → ∀ tt, (s.threads i).phase = .stealing tt → (s.threads tt).queue = []) := by
  cases a with
  | tryOwn j k =>
    obtain ⟨rfl, hk⟩ := ha
    exact .inl ⟨k, rfl, hk⟩
  | scan j sizes =>
    obtain ⟨rfl, rfl⟩ := ha
    exact .inr (.inl rfl)
  | steal j k =>
    obtain ⟨rfl, hk⟩ := ha
    exact .inr (.inr ⟨k, rfl, hk⟩)
  | _ => exact ha.elim

/-- What the first step of a `dequeue` can be. -/
theorem dequeuing_step {a : Action n κ} (hphase : (s.threads i).phase = .dequeuing) (ha : AloneIn i s a)
    (h : step s a = some t) :
    (∃ k, a = .tryOwn i (some k) ∧ s.take i i k = some t) ∨
      a = .tryOwn i none ∧ (s.threads i).queue = [] ∧ t = s.setPhase i .scanning := by
  rcases alone_cases ha with ⟨k, rfl, hk⟩ | rfl | ⟨k, rfl, -⟩
  · simp only [step, if_pos hphase] at h
    cases k with
    | some k => exact .inl ⟨k, rfl, h⟩
    | none => exact .inr ⟨rfl, hk rfl, (Option.some.inj h).symm⟩
  · simp [step, hphase] at h
  · simp [step, hphase] at h

/-- And the second, where its own queue was empty. -/
theorem scanning_step {a : Action n κ} (hphase : (s.threads i).phase = .scanning) (ha : AloneIn i s a)
    (h : step s a = some t) :
    a = .scan i s.sizes ∧
      (mostLoaded s.sizes s.threads = none ∧ t = s.setPhase i .idle ∨
        ∃ tt, mostLoaded s.sizes s.threads = some tt ∧ t = s.setPhase i (.stealing tt)) := by
  rcases alone_cases ha with ⟨k, rfl, -⟩ | rfl | ⟨k, rfl, -⟩
  · simp [step, hphase] at h
  · simp only [step, if_pos hphase] at h
    refine ⟨rfl, ?_⟩
    cases hmost : mostLoaded s.sizes s.threads with
    | none =>
      rw [hmost] at h
      exact .inl ⟨rfl, (Option.some.inj h).symm⟩
    | some tt =>
      rw [hmost] at h
      exact .inr ⟨tt, rfl, (Option.some.inj h).symm⟩
  · simp [step, hphase] at h

/-- And the third, where it has found a thread. -/
theorem stealing_step {a : Action n κ} {tt : Fin n} (hphase : (s.threads i).phase = .stealing tt)
    (ha : AloneIn i s a) (h : step s a = some t) :
    (t.threads i).phase = .idle ∧
      ((∃ k, a = .steal i (some k) ∧ (s.threads tt).queue ≠ []) ∨
        a = .steal i none ∧ (s.threads tt).queue = []) := by
  rcases alone_cases ha with ⟨k, rfl, -⟩ | rfl | ⟨k, rfl, hk⟩
  · simp [step, hphase] at h
  · simp [step, hphase] at h
  · simp only [step, hphase] at h
    cases k with
    | some k =>
      obtain ⟨hidle, hlt⟩ := take_some h
      exact ⟨hidle, .inl ⟨k, rfl, List.ne_nil_of_length_pos (Nat.zero_lt_of_lt hlt)⟩⟩
    | none =>
      cases h
      exact ⟨setPhase_phase s i .idle, .inr ⟨rfl, hk rfl tt hphase⟩⟩

theorem idle_step {a : Action n κ} (hphase : (s.threads i).phase = .idle) (ha : AloneIn i s a) : step s a = none := by
  rcases alone_cases ha with ⟨k, rfl, -⟩ | rfl | ⟨k, rfl, -⟩
  · simp [step, hphase]
  · simp [step, hphase]
  · simp [step, hphase]

/-- From where `dequeue` has returned there is nothing left of it. -/
theorem nil_of_idle (hphase : (s.threads i).phase = .idle) (hrun : Run step s as t)
    (halone : Steps step (AloneIn i) s as) : as = [] := by
  cases hrun with
  | nil => rfl
  | cons hs _ => exact nomatch (idle_step hphase (halone _ hs).1).symm.trans hs

/-- A `dequeue` obtains a connection. -/
def Obtains (as : List (Action n κ)) : Prop := ∃ a ∈ as, a.dequeues = true

/-- Which thread is looked at, and what comes of it. -/
theorem obtains_iff (h : Dequeue i s as t) :
    Obtains as ↔ (s.threads i).queue ≠ [] ∨
      ∃ tt, mostLoaded s.sizes s.threads = some tt ∧ (s.threads tt).queue ≠ [] := by
  obtain ⟨hcalled, hrun, halone, hreturned⟩ := h
  cases hrun with
  | nil => exact nomatch hcalled.symm.trans hreturned
  | cons hs hrun =>
    obtain ⟨ha, halone⟩ := halone _ hs
    rcases dequeuing_step hcalled ha hs with ⟨k, rfl, htake⟩ | ⟨rfl, hown, rfl⟩
    · obtain ⟨-, hlt⟩ := take_some htake
      exact iff_of_true ⟨_, List.mem_cons_self, rfl⟩ (.inl (List.ne_nil_of_length_pos (Nat.zero_lt_of_lt hlt)))
    · cases hrun with
      | nil => exact nomatch (setPhase_phase s i .scanning).symm.trans hreturned
      | cons hs hrun =>
        obtain ⟨ha, halone⟩ := halone _ hs
        obtain ⟨rfl, hscan⟩ := scanning_step (setPhase_phase _ _ _) ha hs
        rw [setPhase_sizes, setPhase_mostLoaded] at hscan
        rcases hscan with ⟨hnone, rfl⟩ | ⟨tt, hsome, rfl⟩
        · rw [nil_of_idle (setPhase_phase _ _ _) hrun halone]
          simp [Obtains, Action.dequeues, hown, hnone]
        · cases hrun with
          | nil => exact nomatch (setPhase_phase _ i (.stealing tt)).symm.trans hreturned
          | cons hs hrun =>
            obtain ⟨ha, halone⟩ := halone _ hs
            obtain ⟨hidle, hsteal⟩ := stealing_step (setPhase_phase _ _ _) ha hs
            rw [nil_of_idle hidle hrun halone]
            simp only [setPhase_queue] at hsteal
            rcases hsteal with ⟨k, rfl, hq⟩ | ⟨rfl, hq⟩
            · simp [Obtains, Action.dequeues, hsome, hq]
            · simp [Obtains, Action.dequeues, hown, hsome, hq]

theorem step_scan {p : Phase n} (hscanning : (s.threads i).phase = .scanning)
    (hp : (∃ tt, mostLoaded s.sizes s.threads = some tt ∧ p = .stealing tt) ∨
      mostLoaded s.sizes s.threads = none ∧ p = .idle) :
    step s (.scan i s.sizes) = some (s.setPhase i p) := by
  rcases hp with ⟨tt, hmost, rfl⟩ | ⟨hmost, rfl⟩
  · simp only [step, if_pos hscanning, hmost, Server.setPhase]
  · simp only [step, if_pos hscanning, hmost, Server.setPhase]

theorem exists_stolen {tt : Fin n} (hstealing : (s.threads i).phase = .stealing tt) :
    ∃ k t, step s (.steal i k) = some t ∧ (t.threads i).phase = .idle ∧
      (k = none → (s.threads tt).queue = []) := by
  by_cases hq : (s.threads tt).queue = []
  · have hs : step s (.steal i none) = some (s.setPhase i .idle) := by
      simp only [step, hstealing, Server.setPhase]
    exact ⟨none, _, hs, setPhase_phase _ _ _, fun _ => hq⟩
  · obtain ⟨t, ht⟩ := exists_take i hq
    have hs : step s (.steal i (some 0)) = some t := by simpa only [step, hstealing] using ht
    exact ⟨some 0, t, hs, (take_some ht).1, fun h => absurd h (Option.some_ne_none 0)⟩

/-- A `dequeue` returns. -/
theorem exists_dequeue (hcalled : (s.threads i).phase = .dequeuing) : ∃ as t, Dequeue i s as t := by
  by_cases hown : (s.threads i).queue = []
  · have hs : step s (.tryOwn i none) = some (s.setPhase i .scanning) := by
      simp only [step, if_pos hcalled, Server.setPhase]
    generalize hr : s.setPhase i .scanning = r at hs
    have hscanning : (r.threads i).phase = .scanning := by rw [← hr, setPhase_phase]
    cases hmost : mostLoaded r.sizes r.threads with
    | none =>
      have hscan := step_scan hscanning (.inr ⟨hmost, rfl⟩)
      exact ⟨_, _, hcalled, .cons hs (.cons hscan .nil),
        .cons hs ⟨rfl, fun _ => hown⟩ (.cons hscan ⟨rfl, rfl⟩ trivial), setPhase_phase _ _ _⟩
    | some tt =>
      have hscan := step_scan hscanning (.inl ⟨tt, hmost, rfl⟩)
      have hstealing := setPhase_phase r i (.stealing tt)
      obtain ⟨k, t, hsteal, hidle, hk⟩ := exists_stolen hstealing
      have halone : AloneIn i (r.setPhase i (.stealing tt)) (.steal i k) := by
        refine ⟨rfl, fun hnone u hu => ?_⟩
        cases hstealing.symm.trans hu
        exact hk hnone
      exact ⟨_, t, hcalled, .cons hs (.cons hscan (.cons hsteal .nil)),
        .cons hs ⟨rfl, fun _ => hown⟩ (.cons hscan ⟨rfl, rfl⟩ (.cons hsteal halone trivial)), hidle⟩
  · obtain ⟨t, ht⟩ := exists_take i hown
    have hs : step s (.tryOwn i (some 0)) = some t := by simpa only [step, if_pos hcalled] using ht
    exact ⟨_, t, hcalled, .cons hs .nil,
      .cons hs ⟨rfl, fun h => absurd h (Option.some_ne_none 0)⟩ trivial, (take_some ht).1⟩

/-- Thread `i` has a connection in its own queue, or there is none in any,
or the first thread with the greatest load factor has one in its. -/
def Server.FindsWork (s : Server n κ) (i : Fin n) : Prop :=
  (s.threads i).queue ≠ [] ∨ (∀ u, (s.threads u).queue = []) ∨
    ∃ tt, FirstMax (rankOf s.sizes s.threads) (List.finRange n) tt ∧ (s.threads tt).queue ≠ []

/-- **When stealing conserves work.** A `dequeue` that is taken alone
returns, and while there is a connection in a queue it obtains one, if and
only if the thread finds work where it looks. -/
theorem dequeue_conserves_iff (hcalled : (s.threads i).phase = .dequeuing) :
    (∃ as t, Dequeue i s as t) ∧ ∀ as t, Dequeue i s as t →
      (((∃ u, (s.threads u).queue ≠ []) → Obtains as) ↔ s.FindsWork i) := by
  refine ⟨exists_dequeue hcalled, fun as t h => ?_⟩
  rw [obtains_iff h]
  constructor
  · intro hobtains
    by_cases hwork : ∃ u, (s.threads u).queue ≠ []
    · rcases hobtains hwork with hown | ⟨tt, htt, hq⟩
      · exact .inl hown
      · exact .inr (.inr ⟨tt, (mostLoaded_eq_some.mp htt).1, hq⟩)
    · exact .inr (.inl fun u => not_not.mp fun hu => hwork ⟨u, hu⟩)
  · rintro (hown | hempty | ⟨tt, hmax, hq⟩) ⟨u, hu⟩
    · exact .inl hown
    · exact absurd (hempty u) hu
    · have hsize : s.sizes tt ≠ 0 := fun h => hq (List.eq_nil_of_length_eq_zero h)
      exact .inr ⟨tt, mostLoaded_eq_some.mpr ⟨hmax, loadFactor_ne_nan hsize⟩, hq⟩

/-- One of four workers of thread `i` becomes busy, then a connection is
queued on thread `j`. -/
def tied (i j : Fin 2) : List (Action 2 Nat) :=
  [.start i 4, .start j 4, .enqueue i 5, .poll i, .tryOwn i (some 0), .enqueue j 7]

/-- Both threads are loaded by a quarter, and thread 0 tries to steal from
itself. -/
theorem steals_from_itself :
    ∃ s, Run step ({} : Server 2 Nat) (tied 0 1 ++ [.poll 0]) s ∧
      (s.threads 0).isRunning = true ∧ (s.threads 1).queue = [7] ∧
      (∃ as t, Dequeue 0 s as t) ∧ ∀ as t, Dequeue 0 s as t → ¬ Obtains as := by
  obtain ⟨s, hrun, hrunning, hcalled, hown, hother, hmost⟩ :
      ∃ s, Run step ({} : Server 2 Nat) (tied 0 1 ++ [.poll 0]) s ∧ (s.threads 0).isRunning = true ∧
        (s.threads 0).phase = .dequeuing ∧ (s.threads 0).queue = [] ∧ (s.threads 1).queue = [7] ∧
        mostLoaded s.sizes s.threads = some 0 :=
    ⟨_, .cons rfl (.cons rfl (.cons rfl (.cons rfl (.cons rfl (.cons rfl (.cons rfl .nil)))))),
      rfl, rfl, rfl, rfl, by decide +kernel⟩
  refine ⟨s, hrun, hrunning, hother, exists_dequeue hcalled, fun as t h hobtains => ?_⟩
  rcases (obtains_iff h).mp hobtains with hq | ⟨tt, htt, hq⟩
  · exact hq hown
  · cases hmost.symm.trans htt
    exact hq hown

/-- With two connections in its queue thread 1 is the most loaded, and
thread 0 finds work. -/
theorem dequeue_conserves_two :
    ∃ s, Run step ({} : Server 2 Nat) (tied 0 1 ++ [.enqueue 1 8, .poll 0]) s ∧
      ∀ as t, Dequeue 0 s as t → Obtains as := by
  obtain ⟨s, hrun, hcalled, hother, hmost⟩ :
      ∃ s, Run step ({} : Server 2 Nat) (tied 0 1 ++ [.enqueue 1 8, .poll 0]) s ∧
        (s.threads 0).phase = .dequeuing ∧ (s.threads 1).queue = [7, 8] ∧ mostLoaded s.sizes s.threads = some 1 :=
    ⟨_, .cons rfl (.cons rfl (.cons rfl (.cons rfl (.cons rfl (.cons rfl (.cons rfl (.cons rfl .nil))))))),
      rfl, rfl, by decide +kernel⟩
  have hwork : (s.threads 1).queue ≠ [] := by simp [hother]
  refine ⟨s, hrun, fun as t h => ((dequeue_conserves_iff hcalled).2 as t h).mpr ?_ ⟨1, hwork⟩⟩
  exact .inr (.inr ⟨1, (mostLoaded_eq_some.mp hmost).1, hwork⟩)

end AudioToolApi.Work
