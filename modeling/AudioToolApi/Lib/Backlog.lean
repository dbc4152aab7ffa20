/-
A queue that is served one item at a time: step `k` adds `n k` items and
then takes one, if there is one. `after q ns` is what is left of `q` and
`ns`; nothing is left exactly when no run of last steps brings more items
than it has steps (`after_eq_zero_iff`).
-/
import Mathlib.Algebra.GroupWithZero.Nat
import Mathlib.Data.List.Infix

namespace Backlog

/-- What is left after the steps `ns`, starting with `q` items. -/
def after (q : Nat) : List Nat → Nat
  | [] => q
  | n :: ns => after (q + n - 1) ns

/-- No run of last steps brings more items than it has steps. -/
def KeepsUp (ns : List Nat) : Prop := ∀ suf, suf <:+ ns → suf.sum ≤ suf.length

@[simp] theorem after_nil (q : Nat) : after q [] = q := rfl

@[simp] theorem after_cons (q n : Nat) (ns : List Nat) : after q (n :: ns) = after (q + n - 1) ns := rfl

theorem after_append (q : Nat) (ms ns : List Nat) : after q (ms ++ ns) = after (after q ms) ns := by
  induction ms generalizing q with
  | nil => simp
  | cons m ms ih => simp [ih]

theorem keepsUp_cons {n : Nat} {ns : List Nat} :
    KeepsUp (n :: ns) ↔ n + ns.sum ≤ ns.length + 1 ∧ KeepsUp ns := by
  simp only [KeepsUp, List.suffix_cons_iff]
  constructor
  · exact fun h => ⟨by simpa using h _ (.inl rfl), fun suf hs => h suf (.inr hs)⟩
  · rintro ⟨h, hs⟩ suf (rfl | hsuf)
    · simpa using h
    · exact hs suf hsuf

theorem KeepsUp.sum_le {ns : List Nat} (h : KeepsUp ns) : ns.sum ≤ ns.length := h ns List.suffix_rfl

theorem after_eq_zero {q : Nat} {ns : List Nat} :
    after q ns = 0 ↔ q + ns.sum ≤ ns.length ∧ KeepsUp ns := by
  induction ns generalizing q with
  | nil => simp [KeepsUp]
  | cons n ns ih =>
    rw [after_cons, ih, keepsUp_cons]
    simp only [List.sum_cons, List.length_cons]
    constructor
    · intro h
      obtain ⟨h, hk⟩ := h
      exact ⟨by omega, by omega, hk⟩
    · intro h
      obtain ⟨h, -, hk⟩ := h
      have := hk.sum_le
      exact ⟨by omega, hk⟩

/-- **Nothing is left** of an empty queue exactly when the steps keep up. -/
theorem after_eq_zero_iff (ns : List Nat) : after 0 ns = 0 ↔ KeepsUp ns := by
  rw [after_eq_zero, Nat.zero_add]
  exact ⟨And.right, fun h => ⟨h.sum_le, h⟩⟩

end Backlog
