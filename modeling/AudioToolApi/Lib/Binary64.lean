/-
The double nearest a natural number, ties to the even significand, and
what C's `fmin` makes of two naturals.

Everything up to `2^53` is a double exactly (`ofNat_eq_self`); rounding
never takes a larger number below one of those (`le_ofNat`). So a minimum
taken in doubles is the minimum wherever one side is small (`fmin_eq_min`).
-/
import Mathlib.Data.Nat.Size
import Mathlib.Tactic.Ring

namespace Binary64

/-- How many low bits of `n` do not fit in the 53-bit significand. -/
def excess (n : Nat) : Nat := n.size - 53

/-- The significand of `n` rounded to the nearest, ties to even. -/
def significand (n : Nat) : Nat :=
  let unit := 2 ^ excess n
  let q := n / unit
  let r := n % unit
  if unit < 2 * r ∨ (unit = 2 * r ∧ q % 2 = 1) then q + 1 else q

/-- The value of the double nearest `n`. -/
def ofNat (n : Nat) : Nat := significand n * 2 ^ excess n

/-- `fmin` of two naturals, converted to doubles first. -/
def fmin (a b : Nat) : Nat := min (ofNat a) (ofNat b)

theorem excess_eq_zero {n : Nat} (h : n < 2 ^ 53) : excess n = 0 := by
  have := Nat.size_le.mpr h
  unfold excess
  omega

/-- Up to `2^53` nothing is lost. -/
theorem ofNat_eq_self {n : Nat} (h : n < 2 ^ 53) : ofNat n = n := by
  simp [ofNat, significand, excess_eq_zero h, Nat.mod_one]

theorem div_le_significand (n : Nat) : n / 2 ^ excess n ≤ significand n := by
  simp only [significand]
  split
  · exact Nat.le_succ _
  · exact Nat.le_refl _

/-- A number past `2^53` rounds to nothing below `2^53`. -/
theorem two_pow_le_ofNat {n : Nat} (h : 2 ^ 53 ≤ n) : 2 ^ 53 ≤ ofNat n := by
  have hsize : 53 < n.size := Nat.lt_size.mpr h
  have hlead : 2 ^ (n.size - 1) ≤ n := Nat.lt_size.mp (by omega)
  have hexp : n.size - 1 = 52 + excess n := by unfold excess; omega
  rw [hexp, Nat.pow_add] at hlead
  have hq : 2 ^ 52 ≤ n / 2 ^ excess n := (Nat.le_div_iff_mul_le (Nat.two_pow_pos _)).mpr hlead
  have hunit : 2 ^ 1 ≤ 2 ^ excess n := Nat.pow_le_pow_right (by omega) (by unfold excess; omega)
  calc 2 ^ 53 = 2 ^ 52 * 2 ^ 1 := by norm_num
    _ ≤ significand n * 2 ^ excess n := Nat.mul_le_mul (hq.trans (div_le_significand n)) hunit

theorem le_ofNat {a n : Nat} (ha : a < 2 ^ 53) (h : a ≤ n) : a ≤ ofNat n := by
  by_cases hn : n < 2 ^ 53
  · rwa [ofNat_eq_self hn]
  · exact ha.le.trans (two_pow_le_ofNat (by omega))

/-- **`fmin` is the minimum** when its first argument is below `2^53`. -/
theorem fmin_eq_min {a n : Nat} (ha : a < 2 ^ 53) : fmin a n = min a n := by
  unfold fmin
  rw [ofNat_eq_self ha]
  by_cases h : a ≤ n
  · rw [min_eq_left h, min_eq_left (le_ofNat ha h)]
  · rw [ofNat_eq_self (by omega : n < 2 ^ 53)]

/-- Past `2^53` it need not be: `2^53 + 1` is not a double. -/
example : ofNat (2 ^ 53 + 1) = 2 ^ 53 := by decide

end Binary64
