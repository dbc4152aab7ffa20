/-
Numbers as bits, the highest first, so many to a number.

A number of `v + w` bits is its upper `v` and then its lower `w`
(`bits_add`); a string of numbers is their bits one after the other. Strings
of one width are equal when their bits are (`string_inj`).
-/
import Mathlib.Algebra.GroupWithZero.Nat
import Mathlib.Data.List.Basic

namespace Bits

/-- The lowest `w` bits of `n`. -/
def bits : Nat → Nat → List Bool
  | 0, _ => []
  | w + 1, n => bits w (n / 2) ++ [decide (n % 2 = 1)]

@[simp] theorem bits_zero (n : Nat) : bits 0 n = [] := rfl

theorem bits_succ (w n : Nat) : bits (w + 1) n = bits w (n / 2) ++ [decide (n % 2 = 1)] := rfl

@[simp] theorem length_bits (w n : Nat) : (bits w n).length = w := by
  induction w generalizing n with
  | zero => simp
  | succ w ih => simp [bits_succ, ih]

@[simp] theorem take_bits {w k : Nat} (h : w ≤ k) (n : Nat) : (bits w n).take k = bits w n :=
  List.take_of_length_le (by simpa using h)

theorem bits_add (v w n : Nat) : bits (v + w) n = bits v (n / 2 ^ w) ++ bits w n := by
  induction w generalizing n with
  | zero => simp
  | succ w ih =>
    have hdiv : n / 2 / 2 ^ w = n / 2 ^ (w + 1) := by rw [Nat.div_div_eq_div_mul, Nat.pow_succ']
    rw [← Nat.add_assoc, bits_succ, ih, hdiv, bits_succ, List.append_assoc]

/-- Only what is left of `2 ^ w` counts. -/
theorem bits_mod (w n : Nat) : bits w (n % 2 ^ w) = bits w n := by
  induction w generalizing n with
  | zero => simp
  | succ w ih =>
    have hhalf : n % 2 ^ (w + 1) / 2 = n / 2 % 2 ^ w := by
      rw [Nat.pow_succ', Nat.mod_mul_right_div_self]
    have hlast : n % 2 ^ (w + 1) % 2 = n % 2 := by
      rw [Nat.pow_succ', Nat.mod_mul_right_mod]
    rw [bits_succ, hhalf, hlast, ih, bits_succ]

theorem bits_congr {w m n : Nat} (h : m % 2 ^ w = n % 2 ^ w) : bits w m = bits w n := by
  rw [← bits_mod w m, h, bits_mod]

theorem bits_inj {w : Nat} : ∀ {m n : Nat}, m < 2 ^ w → n < 2 ^ w → bits w m = bits w n → m = n := by
  induction w with
  | zero =>
    intro m n hm hn _
    simp at hm hn
    omega
  | succ w ih =>
    intro m n hm hn h
    obtain ⟨hhalf, hlast⟩ := List.append_inj h (by simp)
    have hhalf : m / 2 = n / 2 := ih (by omega) (by omega) hhalf
    have hlast : m % 2 = 1 ↔ n % 2 = 1 := by simpa using hlast
    omega

@[simp] theorem bits_of_zero (w : Nat) : bits w 0 = List.replicate w false := by
  induction w with
  | zero => simp
  | succ w ih => simp [bits_succ, ih, List.replicate_succ']

/-- Numbers of `w` bits, one after the other. -/
def string (w : Nat) (ns : List Nat) : List Bool := ns.flatMap (bits w)

@[simp] theorem string_nil (w : Nat) : string w [] = [] := rfl

@[simp] theorem string_cons (w n : Nat) (ns : List Nat) : string w (n :: ns) = bits w n ++ string w ns := rfl

@[simp] theorem string_append (w : Nat) (ms ns : List Nat) : string w (ms ++ ns) = string w ms ++ string w ns := by
  simp [string]

@[simp] theorem length_string (w : Nat) (ns : List Nat) : (string w ns).length = w * ns.length := by
  induction ns with
  | nil => simp
  | cons n ns ih => simp [ih, Nat.mul_add, Nat.add_comm]

theorem string_take (w : Nat) (ns : List Nat) (k : Nat) : string w (ns.take k) = (string w ns).take (w * k) := by
  induction ns generalizing k with
  | nil => simp
  | cons n ns ih =>
    cases k with
    | zero => simp
    | succ k =>
      have hfirst : (bits w n ++ string w ns).take ((bits w n).length + w * k) = bits w n ++ (string w ns).take (w * k) :=
        List.take_length_add_append _
      rw [length_bits] at hfirst
      rw [List.take_succ_cons, string_cons, string_cons, ih, Nat.mul_succ, Nat.add_comm, hfirst]

theorem string_inj {w : Nat} : ∀ {ms ns : List Nat}, ms.length = ns.length → (∀ m ∈ ms, m < 2 ^ w) →
    (∀ n ∈ ns, n < 2 ^ w) → string w ms = string w ns → ms = ns
  | [], [], _, _, _, _ => rfl
  | m :: ms, n :: ns, hlength, hms, hns, h => by
    obtain ⟨hfirst, hrest⟩ := List.append_inj h (by simp)
    rw [bits_inj (hms m (by simp)) (hns n (by simp)) hfirst,
      string_inj (by simpa using hlength) (fun k hk => hms k (by simp [hk])) (fun k hk => hns k (by simp [hk])) hrest]

end Bits
