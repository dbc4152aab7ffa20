/-
How `raw_accept` chooses a thread (http/http_server.cpp). It takes the first
thread that is loaded by less than a fifth, and where there is none the
first of the least loaded. Load factors are exact here.
-/
import AudioToolApi.Http.WorkThread
import AudioToolApi.Lib.Scan
import Mathlib.Algebra.Order.Field.Basic

namespace AudioToolApi.Work

open Scan

variable {n : Nat} {κ : Type}

/-- The loop of `raw_accept`. `tt` is `none` where the source has
`threads->end()`. -/
def acceptLoop (load : Fin n → Load) : List (Fin n) → Option (Fin n) → Load → Option (Fin n)
  | [], tt, _ => tt
  | t :: ts, tt, minLoad =>
    let threadLoad := load t
    if (Load.finite (1 / 5)).gt threadLoad then some t
    else if minLoad.gt threadLoad || (Load.finite 0).gt minLoad then acceptLoop load ts (some t) threadLoad
    -- make sure it will get enqueued somewhere
    else if tt.isNone then acceptLoop load ts (some t) minLoad
    else acceptLoop load ts tt minLoad

/-- The thread that a new connection is enqueued on; where there is none,
`raw_accept` returns. -/
def leastLoaded (sizes : Fin n → Nat) (threads : Fin n → WorkThread n κ) : Option (Fin n) :=
  acceptLoop (fun t => (threads t).loadFactor (sizes t)) (List.finRange n) none (.finite (-1))

/-- The load factor of a thread with workers. -/
def WorkThread.ratio (size : Nat) (t : WorkThread n κ) : ℚ :=
  (size + t.workers.countP Option.isSome : Nat) / t.numWorkers

theorem loadFactor_eq_ratio (size : Nat) {t : WorkThread n κ} (h : 1 ≤ t.numWorkers) :
    t.loadFactor size = .finite (t.ratio size) := by
  simp only [WorkThread.loadFactor, WorkThread.ratio]
  rw [if_neg (by omega)]

/-! ## The loop -/

variable {load : Fin n → ℚ}

@[simp] theorem Load.finite_gt (p q : ℚ) : (Load.finite p).gt (.finite q) = decide (q < p) := rfl

theorem gt_fifth {q : ℚ} : (Load.finite (1 / 5)).gt (.finite q) = true ↔ q < 1 / 5 := decide_eq_true_iff

theorem nonneg_of_heavy {q : ℚ} (h : ¬ q < 1 / 5) : 0 ≤ q := (not_lt.mp h).trans' (by simp)

/-- The first thread below a fifth, whatever was the candidate before. -/
theorem acceptLoop_light {before after : List (Fin n)} {tt : Fin n} (hlight : load tt < 1 / 5)
    (hbefore : ∀ u ∈ before, ¬ load u < 1 / 5) (cand : Option (Fin n)) (minLoad : Load) :
    acceptLoop (fun t => .finite (load t)) (before ++ tt :: after) cand minLoad = some tt := by
  induction before generalizing cand minLoad with
  | nil => rw [List.nil_append, acceptLoop, if_pos (gt_fifth.mpr hlight)]
  | cons u before ih =>
    obtain ⟨hu, hbefore⟩ := List.forall_mem_cons.mp hbefore
    rw [List.cons_append, acceptLoop, if_neg (gt_fifth.not.mpr hu)]
    split
    · exact ih hbefore _ _
    · split
      · exact ih hbefore _ _
      · exact ih hbefore _ _

/-- Where no thread is below a fifth, the loop is a scan for the least from
the first thread on. -/
theorem acceptLoop_heavy {ts : List (Fin n)} (hts : ∀ u ∈ ts, ¬ load u < 1 / 5) (cand : Fin n) {minLoad : ℚ}
    (hmin : 0 ≤ minLoad) :
    acceptLoop (fun t => .finite (load t)) ts (some cand) (.finite minLoad) =
      (scan (fun t => OrderDual.toDual (load t)) (some cand, OrderDual.toDual minLoad) ts).1 := by
  induction ts generalizing cand minLoad with
  | nil => rfl
  | cons u ts ih =>
    obtain ⟨hu, hts⟩ := List.forall_mem_cons.mp hts
    rw [acceptLoop, if_neg (gt_fifth.not.mpr hu), scan_cons]
    by_cases hless : load u < minLoad
    · rw [if_pos (by simp [hless]), if_pos (OrderDual.toDual_lt_toDual.mpr hless),
        ih hts u (nonneg_of_heavy hu)]
    · have hkeep : ¬ OrderDual.toDual minLoad < OrderDual.toDual (load u) :=
        fun h => hless (OrderDual.toDual_lt_toDual.mp h)
      rw [if_neg (by simpa using ⟨not_lt.mp hless, hmin⟩), if_neg (by simp), if_neg hkeep, ih hts cand hmin]

theorem acceptLoop_first {t : Fin n} {ts : List (Fin n)} (h : ∀ u ∈ t :: ts, ¬ load u < 1 / 5) :
    ∃ tt, FirstMin load (t :: ts) tt ∧
      acceptLoop (fun t => .finite (load t)) (t :: ts) none (.finite (-1)) = some tt := by
  obtain ⟨ht, hts⟩ := List.forall_mem_cons.mp h
  obtain ⟨tt, hmin, hscan⟩ := scan_first (fun t => OrderDual.toDual (load t)) t ts
  refine ⟨tt, firstMax_toDual.mp hmin, ?_⟩
  rw [acceptLoop, if_neg (gt_fifth.not.mpr ht), if_pos (by simp), acceptLoop_heavy hts t (nonneg_of_heavy ht), hscan]

/-! ## The choice -/

/-- The first thread below a fifth. -/
def FirstLight (load : Fin n → ℚ) (tt : Fin n) : Prop := load tt < 1 / 5 ∧ ∀ u < tt, ¬ load u < 1 / 5

/-- The first of the least loaded threads. -/
def FirstLeast (load : Fin n → ℚ) (tt : Fin n) : Prop :=
  (∀ u, load tt ≤ load u) ∧ ∀ u < tt, load tt < load u

theorem acceptLoop_picks (hn : 0 < n) (load : Fin n → ℚ) :
    ∃ tt, acceptLoop (fun t => .finite (load t)) (List.finRange n) none (.finite (-1)) = some tt ∧
      (FirstLight load tt ∨ (∀ u, ¬ load u < 1 / 5) ∧ FirstLeast load tt) := by
  cases hfind : (List.finRange n).find? (fun t => decide (load t < 1 / 5)) with
  | some tt =>
    obtain ⟨hlight, before, after, hsplit, hbefore⟩ := List.find?_eq_some_iff_append.mp hfind
    have hlight : load tt < 1 / 5 := of_decide_eq_true hlight
    have hbefore : ∀ u ∈ before, ¬ load u < 1 / 5 := fun u hu => by simpa using hbefore u hu
    refine ⟨tt, ?_, .inl ⟨hlight, fun u hu => hbefore u ((mem_finRange_split hsplit).1.mpr hu)⟩⟩
    rw [hsplit, acceptLoop_light hlight hbefore]
  | none =>
    have hheavy : ∀ u ∈ List.finRange n, ¬ load u < 1 / 5 := fun u hu => by
      simpa using List.find?_eq_none.mp hfind u hu
    have hlength : 0 < (List.finRange n).length := by
      rw [List.length_finRange]
      exact hn
    obtain ⟨t, ts, hcons⟩ := List.exists_cons_of_length_pos hlength
    rw [hcons] at hheavy
    obtain ⟨tt, hmin, hloop⟩ := acceptLoop_first hheavy
    rw [← hcons] at hmin hloop hheavy
    exact ⟨tt, hloop, .inr ⟨fun u => hheavy u (List.mem_finRange u), firstMin_finRange hmin⟩⟩

/-- **The acceptor picks a least-loaded thread.** The first one that is
loaded by less than a fifth, if there is one; otherwise the first of the
least loaded. There is always one. -/
theorem leastLoaded_picks {threads : Fin n → WorkThread n κ} (sizes : Fin n → Nat) (hn : 0 < n)
    (hworkers : ∀ t, 1 ≤ (threads t).numWorkers) :
    ∃ tt, leastLoaded sizes threads = some tt ∧
      (FirstLight (fun t => (threads t).ratio (sizes t)) tt ∨
        (∀ u, ¬ (threads u).ratio (sizes u) < 1 / 5) ∧ FirstLeast (fun t => (threads t).ratio (sizes t)) tt) := by
  have hload : (fun t => (threads t).loadFactor (sizes t)) = fun t => .finite ((threads t).ratio (sizes t)) :=
    funext fun t => loadFactor_eq_ratio _ (hworkers t)
  rw [leastLoaded, hload]
  exact acceptLoop_picks hn _

/-- Threads of five workers that are all free. -/
def fives : Fin 3 → WorkThread 3 Nat := fun _ => { numWorkers := 5 }

/-- With queues of two, one and one the second is picked: a fifth is not
below a fifth, and of the two it is the first. -/
theorem leastLoaded_picks_tied :
    let sizes : Fin 3 → Nat := fun t => if t = 0 then 2 else 1
    leastLoaded sizes fives = some 1 ∧ FirstLeast (fun t => (fives t).ratio (sizes t)) 1 := by
  intro sizes
  have hpicked : leastLoaded sizes fives = some 1 := by decide +kernel
  obtain ⟨tt, htt, hpicks⟩ := @leastLoaded_picks 3 Nat fives sizes (by decide) (by decide)
  cases hpicked.symm.trans htt
  rcases hpicks with ⟨hlight, -⟩ | ⟨-, hleast⟩
  · exact absurd hlight (by decide +kernel)
  · exact ⟨hpicked, hleast⟩

end AudioToolApi.Work
