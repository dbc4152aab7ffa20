/-
What each call of `db::Connection` does to the module, and the exact
condition under which every call leaves it usable.
-/
import AudioToolApi.Utilities.Connection

namespace AudioToolApi.Database

open Runs

variable {ι : Type}

section
variable [DecidableEq ι]

/-- The module once connection `i` has been opened. -/
def Module.opened (s : Module ι) (i : ι) : Module ι :=
  { s.set i { isOpen := true, sql := some s.made } with
    m := false, live := s.made :: s.live, made := s.made + 1 }

/-- The module once connection `i` has been closed. -/
def Module.closed (s : Module ι) (i : ι) : Module ι :=
  { s.set i { isOpen := false, sql := none } with
    live := s.live.filter fun h => (s.conns i).sql ≠ some h }

@[simp] theorem Module.opened_sql (s : Module ι) (i : ι) : ((s.opened i).conns i).sql = some s.made := by
  simp [opened, set]

theorem connectionOpen_run (d : Driver) (i : ι) (s : Module ι) (hm : s.m = false) :
    (d.connect = true ∧ d.setSchema = true ∧
      (connectionOpen d i).run s = .ok () (s.opened i)) ∨
    (¬ (d.connect = true ∧ d.setSchema = true) ∧
      ∃ s', s'.m = true ∧ (connectionOpen d i).run s = .error .threw s') := by
  rcases hc : d.connect with _ | _ <;> rcases hs : d.setSchema with _ | _ <;>
    simp [connectionOpen, lock, unlock, driverConnect, setSchema, hm, hc, hs, Module.set, Module.opened]

theorem connectionClose_run (i : ι) (s : Module ι) :
    (connectionClose i).run s = .ok () (if (s.conns i).isOpen then s.closed i else s) := by
  unfold connectionClose
  simp only [EStateM.run_bind, EStateM.run_get]
  split <;> simp_all [Module.closed]

end

/-- The module between calls that all went well: `m` is free, a connection is
open exactly when its `sql` is set, what it points to is alive, and no two
connections share one. -/
structure Sound (s : Module ι) : Prop where
  free : s.m = false
  opened : ∀ i, (s.conns i).isOpen = (s.conns i).sql.isSome
  alive : ∀ i h, (s.conns i).sql = some h → h ∈ s.live
  made : ∀ h ∈ s.live, h < s.made
  apart : ∀ i j h, (s.conns i).sql = some h → (s.conns j).sql = some h → i = j

theorem Sound.usable {s : Module ι} (hs : Sound s) : Usable s := by
  refine ⟨hs.free, fun i => ?_⟩
  rw [hs.opened i, Option.isSome_iff_exists]
  exact ⟨fun ⟨h, hh⟩ => ⟨h, hs.alive i h hh, hh⟩, fun ⟨h, _, hh⟩ => ⟨h, hh⟩⟩

theorem Sound.init : Sound ({} : Module ι) := by
  constructor <;> simp

/-- The statement part of a query changes nothing, whether or not it throws. -/
theorem prepareStatement_run {d : Driver} {i : ι} {s : Module ι} (h : (s.conns i).sql.isSome) :
    (prepareStatement d i).run s = .ok () s ∨ (prepareStatement d i).run s = .error .threw s := by
  have hn : (s.conns i).sql ≠ none := by simpa [Option.isSome_iff_ne_none] using h
  rcases hp : d.prepareStatement with _ | _ <;> simp [prepareStatement, hn, hp]

variable [DecidableEq ι]

theorem Sound.open {s : Module ι} (hs : Sound s) (i : ι) : Sound (s.opened i) := by
  have fresh : ∀ j, (s.conns j).sql ≠ some s.made := fun j hj =>
    absurd (hs.made _ (hs.alive j _ hj)) (Nat.lt_irrefl _)
  refine ⟨rfl, fun j => ?_, fun j h hj => ?_, fun h hh => ?_, fun j k h hj hk => ?_⟩
  · by_cases hji : j = i <;> simp [Module.opened, Module.set, hji, hs.opened]
  · by_cases hji : j = i
    · subst hji
      simp only [Module.opened_sql, Option.some.injEq] at hj
      simp [Module.opened, hj]
    · simp only [Module.opened, Module.set, Function.update_of_ne hji] at hj ⊢
      exact List.mem_cons_of_mem _ (hs.alive j h hj)
  · simp only [Module.opened, List.mem_cons] at hh ⊢
    rcases hh with rfl | hh
    · exact Nat.lt_succ_self _
    · exact Nat.lt_succ_of_lt (hs.made h hh)
  · by_cases hji : j = i <;> by_cases hki : k = i <;>
      simp only [Module.opened, Module.set, hji, hki, Function.update_self, ne_eq, not_false_eq_true,
        Function.update_of_ne, Option.some.injEq] at hj hk ⊢
    · exact absurd (hj ▸ hk) (fresh k)
    · exact absurd (hk ▸ hj) (fresh j)
    · exact hs.apart j k h hj hk

theorem Sound.close {s : Module ι} (hs : Sound s) (i : ι) : Sound (s.closed i) := by
  have sql_of_ne : ∀ {j h}, ((s.closed i).conns j).sql = some h → j ≠ i ∧ (s.conns j).sql = some h := by
    intro j h hj
    by_cases hji : j = i
    · simp [Module.closed, Module.set, hji] at hj
    · exact ⟨hji, by simpa [Module.closed, Module.set, hji] using hj⟩
  refine ⟨hs.free, fun j => ?_, fun j h hj => ?_, fun h hh => ?_, fun j k h hj hk => ?_⟩
  · by_cases hji : j = i <;> simp [Module.closed, Module.set, hji, hs.opened]
  · obtain ⟨hji, hj⟩ := sql_of_ne hj
    simp only [Module.closed, List.mem_filter, decide_eq_true_eq]
    exact ⟨hs.alive j h hj, fun hi => hji (hs.apart j i h hj hi)⟩
  · exact hs.made h (List.mem_of_mem_filter hh)
  · exact hs.apart j k h (sql_of_ne hj).2 (sql_of_ne hk).2

/-- After `if(!_is_open) open();`, a tail that changes nothing: what is left
is what `open` did, if it was called. -/
theorem openThen_cases {d : Driver} {i : ι} {s s' : Module ι} {k : Act ι Unit} (hs : Sound s)
    (hk : ∀ t : Module ι, (t.conns i).sql.isSome → k.run t = .ok () t ∨ k.run t = .error .threw t)
    (h : after ((do openIfClosed d i; k).run s) = some s') :
    let answers := (s.conns i).isOpen = false → d.connect = true ∧ d.setSchema = true
    (answers ∧ s' = s.opened i) ∨ (¬ answers ∧ s'.m = true) ∨ (answers ∧ s' = s) := by
  cases hopen : (s.conns i).isOpen with
  | true =>
    have hr : k.run s = .ok () s ∨ k.run s = .error .threw s := hk s (hs.opened i ▸ hopen)
    rcases hr with hr | hr <;>
      · simp [openIfClosed, hopen, hr, after] at h
        simp [h]
  | false =>
    rcases connectionOpen_run d i s hs.free with ⟨hc, hd, ho⟩ | ⟨hd, t, ht, ho⟩
    · rcases hk (s.opened i) (by simp) with hr | hr <;>
        · simp [openIfClosed, hopen, ho, hr, after] at h
          simp [h, hc, hd]
    · simp [openIfClosed, hopen, ho, after] at h
      subst h
      exact .inr (.inl ⟨fun ha => hd (ha rfl), ht⟩)

/-- Everything a call can do to a sound module. -/
theorem call_cases {s s' : Module ι} {c : Call ι} (hs : Sound s) (h : call s c = some s') :
    (DriverAnswers s c ∧ s' = s.opened c.conn) ∨ (¬ DriverAnswers s c ∧ s'.m = true) ∨
    (DriverAnswers s c ∧ (s' = s ∨ s' = s.closed c.conn)) := by
  obtain ⟨i, method, d⟩ := c
  simp only [call] at h
  simp only [DriverAnswers, Call.opens]
  cases method with
  | «open» =>
    rcases connectionOpen_run d i s hs.free with ⟨hc, hd, hr⟩ | ⟨hd, t, ht, hr⟩
    · simp only [Call.act, hr, after, Option.some.injEq] at h
      exact .inl ⟨fun _ => ⟨hc, hd⟩, h.symm⟩
    · simp only [Call.act, hr, after, Option.some.injEq] at h
      exact .inr (.inl ⟨by simpa using hd, h ▸ ht⟩)
  | close =>
    simp only [Call.act, connectionClose_run, after, Option.some.injEq] at h
    refine .inr (.inr ⟨fun h => h.elim, ?_⟩)
    split at h
    · exact .inr h.symm
    · exact .inl h.symm
  | rawQuery =>
    rcases openThen_cases hs (fun t ht => prepareStatement_run ht) h with h | h | ⟨ha, h⟩
    · exact .inl h
    · exact .inr (.inl h)
    · exact .inr (.inr ⟨ha, .inl h⟩)
  | query =>
    have tail : ∀ t : Module ι, (t.conns i).sql.isSome →
        (do prepareStatement d i; if d.setParams then pure () else throw .threw : Act ι Unit).run t =
            .ok () t ∨
        (do prepareStatement d i; if d.setParams then pure () else throw .threw : Act ι Unit).run t =
            .error .threw t := by
      intro t ht
      rcases prepareStatement_run (d := d) ht with hp | hp <;>
        rcases hq : d.setParams with _ | _ <;> simp [hp]
    rcases openThen_cases hs tail h with h | h | ⟨ha, h⟩
    · exact .inl h
    · exact .inr (.inl h)
    · exact .inr (.inr ⟨ha, .inl h⟩)

/-- **When the database module stays usable.** Over any sequence of calls on
any connections, `m` is free and `is_open()` is right after every call that
returns or throws, if and only if no call that opens a connection meets a
driver that throws. -/
theorem usable_iff_driver_answers (calls : List (Call ι)) :
    Always call Usable ({} : Module ι) calls ↔ Steps call DriverAnswers ({} : Module ι) calls := by
  refine always_iff_steps (I := Sound) (fun _ hs => hs.usable) ?_ ?_ Sound.init
  · intro s c s' hs ha h
    rcases call_cases hs h with ⟨-, rfl⟩ | ⟨hn, -⟩ | ⟨-, rfl | rfl⟩
    · exact hs.open _
    · exact absurd ha hn
    · exact hs
    · exact hs.close _
  · intro s c s' hs hn h hu
    rcases call_cases hs h with ⟨ha, -⟩ | ⟨-, hm⟩ | ⟨ha, -⟩
    · exact hn ha
    · rw [hu.1] at hm; cases hm
    · exact hn ha

/-- A `query` whose `connect` throws leaves `m` held. -/
theorem connect_throw_keeps_m :
    ¬ ∀ calls : List (Call Unit), Always call Usable ({} : Module Unit) calls := by
  intro h
  have h1 := (h [{ conn := (), method := .query, driver := { connect := false } }]).2 _ rfl
  cases h1.1

end AudioToolApi.Database
