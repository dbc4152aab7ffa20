/-
Statements one by one: each returns exactly when the driver takes it, and
`World.Sound n` says that of the next `n`.
-/
import AudioToolApi.Lib.Effects
import AudioToolApi.Utilities.Database

namespace AudioToolApi

open Effects

variable {α : Type} {w w' : World}

theorem statement_ok_iff {act : World → α × World} {a : α} :
    statement act w = .ok a w' ↔ w.fault = none ∧ act w.next = (a, w') := by
  rw [statement]
  cases h : w.fault with
  | none => simp [Prod.ext_iff]
  | some f => cases f <;> simp

@[simp] theorem select_ok_iff {rows : World → List α} {rs : List α} :
    select rows w = .ok rs w' ↔ w.fault = none ∧ rows w.next = rs ∧ w.next = w' := by
  rw [select, statement_ok_iff, Prod.mk.injEq]

@[simp] theorem execute_ok_iff {act : World → World} {u : Unit} :
    execute act w = .ok u w' ↔ w.fault = none ∧ act w.next = w' := by
  rw [execute, statement_ok_iff, Prod.mk.injEq, eq_self_iff_true, true_and]

theorem select_ok {rows : World → List α} (h : w.fault = none) : select rows w = .ok (rows w.next) w.next := by
  rw [select, statement, h]

/-- A `SELECT` that the driver does not take. -/
theorem select_error (rows : World → List α) {f : Fault} (h : w.fault = some f) :
    ∃ e, select rows w = .error e w.next := by
  rw [select, statement, h]
  cases f <;> exact ⟨_, rfl⟩

@[simp] theorem firstRow_ok_iff {what : Bytes} {rs : List α} {r : α} :
    firstRow what rs w = .ok r w' ↔ rs.head? = some r ∧ w = w' := by
  cases rs with
  | nil => simp [firstRow]
  | cons r rs => simp [firstRow]

/-- A `SELECT`, and what is made of its first row. -/
theorem selectRow_ok_iff {β : Type} {rows : World → List α} {what : Bytes} {f : α → Act β} {b : β} :
    (do let rs ← select rows; let row ← firstRow what rs; f row : Act β) w = .ok b w' ↔
      w.fault = none ∧ ∃ row, (rows w.next).head? = some row ∧ f row w.next = .ok b w' := by
  simp only [bind_ok_iff, select_ok_iff, firstRow_ok_iff]
  constructor
  · intro h
    obtain ⟨_, _, ⟨hf, rfl, rfl⟩, row, _, ⟨hrow, rfl⟩, h⟩ := h
    exact ⟨hf, row, hrow, h⟩
  · intro h
    obtain ⟨hf, row, hrow, h⟩ := h
    exact ⟨_, _, ⟨hf, rfl, rfl⟩, row, _, ⟨hrow, rfl⟩, h⟩

/-! ## The next statements -/

/-- The driver takes the next `n` statements. -/
def World.Sound (n : Nat) (w : World) : Prop := ∀ f ∈ w.faults.take n, f = none

theorem World.sound_zero : w.Sound 0 := by
  simp [Sound]

theorem World.sound_succ {n : Nat} : w.Sound (n + 1) ↔ w.fault = none ∧ w.next.Sound n := by
  unfold Sound fault next
  cases w.faults with
  | nil => simp
  | cons f fs => simp

theorem World.Sound.mono {m n : Nat} (h : w.Sound n) (hm : m ≤ n) : w.Sound m :=
  fun f hf => h f ((List.take_prefix_take_left hm).subset hf)

/-- Only the faults matter. -/
theorem World.Sound.of_eq {n : Nat} (h : w.Sound n) (hw : w'.faults = w.faults) : w'.Sound n := by
  rwa [Sound, hw]

/-- The driver takes the next `n` statements and runs the one after them,
whether its answer comes back or not. -/
def World.Executes : Nat → World → Prop
  | 0, w => w.fault = none ∨ ∃ what, w.fault = some (.lost what)
  | n + 1, w => w.fault = none ∧ w.next.Executes n

theorem World.Sound.executes {n : Nat} (h : w.Sound (n + 1)) : w.Executes n := by
  induction n generalizing w with
  | zero => exact .inl (sound_succ.mp h).1
  | succ n ih =>
    obtain ⟨hf, h⟩ := sound_succ.mp h
    exact ⟨hf, ih h⟩

/-- Only the faults matter. -/
theorem World.Executes.of_eq {n : Nat} (h : w.Executes n) (hw : w'.faults = w.faults) : w'.Executes n := by
  have hfault {v v' : World} (hv : v'.faults = v.faults) : v'.fault = v.fault := by rw [fault, fault, hv]
  induction n generalizing w w' with
  | zero => rwa [Executes, hfault hw]
  | succ n ih =>
    refine ⟨(hfault hw).trans h.1, ih h.2 ?_⟩
    rw [next, next, hw]

/-- Of the next `n` statements, the first that the driver does not take never
ends. -/
def World.Hangs : Nat → World → Prop
  | 0, _ => False
  | n + 1, w => w.fault = some .hung ∨ w.fault = none ∧ w.next.Hangs n

@[simp] theorem World.not_hangs_zero : ¬ w.Hangs 0 := nofun

theorem World.hangs_of_none {n : Nat} (h : w.fault = none) : w.Hangs (n + 1) ↔ w.next.Hangs n := by
  simp [Hangs, h]

/-- Only the faults matter. -/
theorem World.hangs_of_eq {n : Nat} (hw : w'.faults = w.faults) : w'.Hangs n ↔ w.Hangs n := by
  have hfault {v v' : World} (hv : v'.faults = v.faults) : v'.fault = v.fault := by rw [fault, fault, hv]
  induction n generalizing w w' with
  | zero => exact Iff.rfl
  | succ n ih =>
    have hnext : w'.next.Hangs n ↔ w.next.Hangs n := ih (by rw [next, next, hw])
    rw [Hangs, Hangs, hfault hw, hnext]

theorem World.Sound.not_hangs {n : Nat} (h : w.Sound n) : ¬ w.Hangs n := by
  induction n generalizing w with
  | zero => exact not_hangs_zero
  | succ n ih =>
    obtain ⟨hf, h⟩ := sound_succ.mp h
    rw [hangs_of_none hf]
    exact ih h

/-- What becomes of the statements is decided by the first that is not taken. -/
theorem World.hangs_of_unsound {m n : Nat} (h : ¬ w.Sound m) (hm : m ≤ n) : w.Hangs n ↔ w.Hangs m := by
  induction m generalizing n w with
  | zero => exact absurd sound_zero h
  | succ m ih =>
    obtain ⟨n, rfl⟩ : ∃ n', n = n' + 1 := ⟨n - 1, by omega⟩
    rw [sound_succ, not_and] at h
    rw [Hangs, Hangs]
    by_cases hf : w.fault = none
    · rw [ih (h hf) (by omega)]
    · simp [hf]

/-- How `n` statements end, if nothing else ends what they are part of. -/
inductive Takes (n : Nat) (w : World) : EStateM.Result Exn World α → Prop
  | ok {a v} : w.Sound n → Takes n w (.ok a v)
  | failed {what v} : ¬ w.Sound n → ¬ w.Hangs n → Takes n w (.error (.runtime what) v)
  | hung {v} : w.Hangs n → Takes n w (.error .gone v)

/-- Only the faults matter. -/
theorem Takes.of_eq {n : Nat} {res : EStateM.Result Exn World α} (h : Takes n w res) (hw : w'.faults = w.faults) :
    Takes n w' res := by
  have hsound : w'.Sound n ↔ w.Sound n := ⟨fun h => h.of_eq hw.symm, fun h => h.of_eq hw⟩
  have hhangs : w'.Hangs n ↔ w.Hangs n := World.hangs_of_eq hw
  cases h with
  | ok h => exact .ok (hsound.mpr h)
  | failed h h' => exact .failed (hsound.not.mpr h) (hhangs.not.mpr h')
  | hung h => exact .hung (hhangs.mpr h)

/-- One statement, and `n` more once it is taken. -/
theorem Takes.statement {β : Type} {act : World → α × World} {k : α → Act β} {n : Nat}
    (h : w.fault = none → Takes n w.next (k (act w.next).1 (act w.next).2)) :
    Takes (n + 1) w ((statement act >>= k) w) := by
  rw [bind_apply, AudioToolApi.statement]
  cases hf : w.fault with
  | none =>
    have hsound : w.Sound (n + 1) ↔ w.next.Sound n := by simp [World.sound_succ, hf]
    show Takes (n + 1) w (k (act w.next).1 (act w.next).2)
    have hk := h hf
    generalize k (act w.next).1 (act w.next).2 = res at hk
    cases hk with
    | ok h => exact .ok (hsound.mpr h)
    | failed h h' => exact .failed (hsound.not.mpr h) ((World.hangs_of_none hf).not.mpr h')
    | hung h => exact .hung ((World.hangs_of_none hf).mpr h)
  | some f =>
    have hsound : ¬ w.Sound (n + 1) := by simp [World.sound_succ, hf]
    cases f with
    | refused what | lost what => exact .failed hsound (by simp [World.Hangs, hf])
    | hung => exact .hung (by simp [World.Hangs, hf])

theorem takes_zero {a : α} : Takes 0 w (.ok a w') := .ok World.sound_zero

theorem takes_one (act : World → α × World) (w : World) : Takes 1 w (statement act w) := by
  rw [← bind_pure (statement act)]
  exact .statement fun _ => takes_zero

section

variable {β : Type} {insert : World → World} {rows : World → List α} {what : Bytes} {f : α → β}

/-- An `INSERT`, and the row that is read back. -/
theorem insertRead_ok_iff (hinsert : ∀ v, (insert v).faults = v.faults) {b : β} :
    (do execute insert; let rs ← select rows; let row ← firstRow what rs; return f row : Act β) w = .ok b w' ↔
      w.Sound 2 ∧ (insert w.next).next = w' ∧
        ∃ row, (rows (insert w.next).next).head? = some row ∧ b = f row := by
  have hfault : (insert w.next).fault = w.next.fault := by rw [World.fault, World.fault, hinsert]
  rw [bind_ok_iff]
  simp only [selectRow_ok_iff, execute_ok_iff, pure_ok_iff, World.sound_succ, World.sound_zero, and_true]
  constructor
  · intro h
    obtain ⟨_, _, ⟨h1, rfl⟩, h2, row, hrow, rfl, rfl⟩ := h
    exact ⟨⟨h1, hfault.symm.trans h2⟩, rfl, row, hrow, rfl⟩
  · intro h
    obtain ⟨⟨h1, h2⟩, rfl, row, hrow, rfl⟩ := h
    exact ⟨(), _, ⟨h1, rfl⟩, hfault.trans h2, row, hrow, rfl, rfl⟩

/-- It takes two statements, where a row is found. -/
theorem insertRead_takes (hinsert : ∀ v, (insert v).faults = v.faults) (hfound : rows (insert w.next).next ≠ []) :
    Takes 2 w ((do execute insert; let rs ← select rows; let row ← firstRow what rs; return f row : Act β) w) := by
  refine .statement fun _ => .of_eq (w := insert w.next) (.statement fun _ => ?_) (hinsert w.next).symm
  show Takes 0 _ ((firstRow what (rows (insert w.next).next) >>= _) (insert w.next).next)
  cases hrows : rows (insert w.next).next with
  | nil => exact absurd hrows hfound
  | cons row rest => exact takes_zero

end

/-- The world, but for what the driver is going to do. -/
def World.settled (w : World) : World := { w with faults := [] }

/-! ## Two runs -/

/-- In worlds in `R`, the driver does the same. -/
structure Driven (R : World → World → Prop) : Prop where
  fault : ∀ w v, R w v → w.fault = v.fault
  next : ∀ w v, R w v → R w.next v.next

theorem diag_driven {I : World → Prop} (hnext : ∀ w, I w → I w.next) : Driven (Diag I) where
  fault w v h := by rw [h.1]
  next w v h := ⟨by rw [h.1], hnext w h.2⟩

section

variable {R : World → World → Prop}

/-- One statement, in worlds that it leaves in `R` whatever becomes of it. -/
theorem statement_same {act : World → α × World} {v : World} (hfault : w.fault = v.fault) (hnext : R w.next v.next)
    (hvalue : (act w.next).1 = (act v.next).1) (hact : R (act w.next).2 (act v.next).2) :
    Same R (fun _ => True) (statement act w) (statement act v) := by
  rw [statement, statement, ← hfault]
  cases w.fault with
  | none =>
    rw [hvalue]
    exact .ok trivial hact
  | some f =>
    cases f with
    | refused what => exact .error hnext
    | lost what => exact .error hact
    | hung => exact .error hnext

theorem select_alike (hR : Driven R) {rows : World → List α} (hrows : ∀ w v, R w v → rows w = rows v) :
    Alike R (select rows) fun _ => True := by
  intro w v h
  have hn := hR.next w v h
  exact statement_same (hR.fault w v h) hn (hrows _ _ hn) hn

theorem execute_alike (hR : Driven R) {act : World → World} (hact : ∀ w v, R w v → R (act w) (act v)) :
    Alike R (execute act) fun _ => True := by
  intro w v h
  have hn := hR.next w v h
  exact statement_same (hR.fault w v h) hn rfl (hact _ _ hn)

theorem firstRow_alike (what : Bytes) (rs : List α) : Alike R (firstRow what rs) fun r => r ∈ rs := by
  cases rs with
  | nil => exact .throw _
  | cons r rs => exact .pure (.head _)

end

end AudioToolApi
