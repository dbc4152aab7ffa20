/-
Looking for a delimiter one item at a time, giving back what was matched
when a match fails and starting afresh at the item that did not fit.

Starting afresh there skips the occurrences that begin inside the failed
match. Where the first item of the delimiter occurs in it only once there
are none (`Simple`), and the scan stops at the first occurrence, having
given back all that stands before it, or gives back everything (`Scan.spec`).
-/
import Mathlib.Data.List.Infix
import Mathlib.Data.List.TakeDrop

namespace Delimiter

variable {α : Type*}

/-- `Scan D k xs o r`: with the first `k` items of `D` just matched, scanning
`xs` gives back `o` and then finds `D`, with `some rest` after it, or comes
to the end. -/
inductive Scan (D : List α) : Nat → List α → List α → Option (List α) → Prop
  | stop {k} : Scan D k [] (D.take k) none
  | more {k c xs o r} : D[k]? = some c → k + 1 < D.length → Scan D (k + 1) xs o r → Scan D k (c :: xs) o r
  | found {k c xs} : D[k]? = some c → k + 1 = D.length → Scan D k (c :: xs) [] (some xs)
  | keep {c xs o r} : D[0]? ≠ some c → Scan D 0 xs o r → Scan D 0 (c :: xs) (c :: o) r
  | back {k c xs o r} : D[k + 1]? ≠ some c → Scan D 0 (c :: xs) o r →
      Scan D (k + 1) (c :: xs) (D.take (k + 1) ++ o) r

variable {D xs ys o : List α} {k : Nat} {c : α} {r : Option (List α)}

/-- Every input is scanned. -/
theorem Scan.total [DecidableEq α] (hk : k < D.length) : ∃ o r, Scan D k xs o r := by
  induction xs generalizing k with
  | nil => exact ⟨_, _, .stop⟩
  | cons c xs ih =>
    have step : ∀ {k}, k < D.length → D[k]? = some c → ∃ o r, Scan D k (c :: xs) o r := by
      intro k hk hc
      by_cases hlast : k + 1 = D.length
      · exact ⟨_, _, .found hc hlast⟩
      · obtain ⟨o, r, h⟩ := ih (show k + 1 < D.length by omega)
        exact ⟨o, r, .more hc (by omega) h⟩
    have hpos : 0 < D.length := by omega
    have start : ∃ o r, Scan D 0 (c :: xs) o r := by
      by_cases hc : D[0]? = some c
      · exact step hpos hc
      · obtain ⟨o, r, h⟩ := ih hpos
        exact ⟨_, r, .keep hc h⟩
    by_cases hc : D[k]? = some c
    · exact step hk hc
    · cases k with
      | zero => exact start
      | succ k =>
        obtain ⟨o, r, h⟩ := start
        exact ⟨_, r, .back hc h⟩

/-- The first item of `D` does not occur in it again. -/
def Simple (D : List α) : Prop := ∀ p, 0 < p → D[p]? ≠ D[0]? ∨ D.length ≤ p

theorem simple_cons {a : α} (h : a ∉ xs) : Simple (a :: xs) := by
  intro p hp
  obtain ⟨p, rfl⟩ : ∃ q, p = q + 1 := ⟨p - 1, by omega⟩
  simp only [List.getElem?_cons_succ, List.getElem?_cons_zero, List.length_cons]
  by_cases hl : p < xs.length
  · exact .inl fun he => h (List.mem_of_getElem? he)
  · exact .inr (by omega)

/-- No occurrence of `D` in `w` begins before position `m`. -/
def NoneBefore (D w : List α) (m : Nat) : Prop := ∀ p < m, ¬ D <+: w.drop p

theorem take_append_cons (hc : D[k]? = some c) : D.take k ++ c :: xs = D.take (k + 1) ++ xs := by
  rw [List.take_add_one, hc]
  simp

/-- A failed match hides no occurrence of a simple delimiter. -/
theorem Simple.noneBefore_take (hD : Simple D) (hk : k + 1 < D.length) (hc : D[k + 1]? ≠ some c) :
    NoneBefore D (D.take (k + 1) ++ c :: xs) (k + 1) := by
  intro p hp ⟨t, ht⟩
  rcases Nat.eq_zero_or_pos p with rfl | hpos
  · have := congrArg (·[k + 1]?) ht
    simp only [List.drop_zero] at this
    have hlen : (D.take (k + 1)).length = k + 1 := by simp; omega
    rw [List.getElem?_append_left hk, List.getElem?_append_right (by omega), hlen] at this
    simp only [Nat.sub_self, List.getElem?_cons_zero] at this
    exact hc this
  · have := congrArg (·[0]?) ht
    simp only [List.getElem?_drop, Nat.add_zero] at this
    rw [List.getElem?_append_left (by omega), List.getElem?_append_left (by simp; omega),
      List.getElem?_take_of_lt hp] at this
    rcases hD p hpos with h | h
    · exact h this.symm
    · omega

theorem NoneBefore.append {w : List α} {m : Nat} (ho : NoneBefore D (o ++ w) o.length)
    (hw : NoneBefore D w m) : NoneBefore D (o ++ w) (o.length + m) := by
  intro p hp
  by_cases h : p < o.length
  · exact ho p h
  · rw [List.drop_append, List.drop_eq_nil_of_le (by omega), List.nil_append]
    exact hw _ (by omega)

theorem NoneBefore.cons {w : List α} {m : Nat} (hD : D ≠ []) (hc : D[0]? ≠ some c) (hw : NoneBefore D w m) :
    NoneBefore D (c :: w) (m + 1) := by
  intro p hp
  cases p with
  | zero =>
    intro h
    obtain ⟨t, ht⟩ := h
    cases D with
    | nil => exact hD rfl
    | cons a D =>
      simp only [List.drop_zero, List.cons_append, List.cons.injEq] at ht
      exact hc (by simp [ht.1])
  | succ p => exact hw p (by omega)

/-- What scanning `w` from the start gives back (`o`) and leaves: `w` is `o`,
the delimiter and the rest, and no occurrence of the delimiter begins
earlier; or there is no delimiter in `w`, and all of it is given back. -/
def Stops (D w o : List α) : Option (List α) → Prop
  | some rest => w = o ++ D ++ rest ∧ NoneBefore D w o.length
  | none => o = w ∧ ∀ m, NoneBefore D w m

/-- **A scan stops at the first occurrence** of a simple delimiter, counting
the items already matched. -/
theorem Scan.spec (hD : Simple D) (h : Scan D k xs o r) (hk : k < D.length) : Stops D (D.take k ++ xs) o r := by
  have hne : D ≠ [] := by rintro rfl; simp at hk
  induction h with
  | @stop k =>
    refine ⟨by simp, fun m p _ hp => ?_⟩
    have := hp.length_le
    simp only [List.append_nil, List.length_drop, List.length_take] at this
    omega
  | more hc hk' _ ih =>
    rw [take_append_cons hc]
    exact ih hk'
  | found hc hlast =>
    rw [take_append_cons hc, hlast, List.take_length]
    exact ⟨by simp, fun p hp => absurd hp (Nat.not_lt_zero p)⟩
  | @keep c xs o r hc _ ih =>
    have ih := ih hk
    simp only [List.take_zero, List.nil_append] at ih ⊢
    cases r with
    | none => exact ⟨by rw [ih.1], fun m p hp => (ih.2 m).cons hne hc p (by omega)⟩
    | some rest => exact ⟨by rw [ih.1]; rfl, ih.2.cons hne hc⟩
  | @back k c xs o r hc _ ih =>
    have ih := ih (by omega)
    have hlen : (D.take (k + 1)).length = k + 1 := by simp; omega
    have hfail : NoneBefore D (D.take (k + 1) ++ c :: xs) (D.take (k + 1)).length := by
      rw [hlen]
      exact hD.noneBefore_take hk hc
    simp only [List.take_zero, List.nil_append] at ih
    cases r with
    | none => exact ⟨by rw [ih.1], fun m p hp => hfail.append (ih.2 m) p (by omega)⟩
    | some rest =>
      refine ⟨by rw [ih.1]; simp, ?_⟩
      rw [List.length_append]
      exact hfail.append ih.2

/-- A simple delimiter that does not occur in `o` first occurs right after it. -/
theorem Simple.noneBefore (hD : Simple D) (ho : ¬ D <:+: o) : NoneBefore D (o ++ D ++ ys) o.length := by
  intro p hp ⟨t, ht⟩
  rw [List.append_assoc, List.drop_append_of_le_length (Nat.le_of_lt hp)] at ht
  by_cases hend : p + D.length ≤ o.length
  · -- the occurrence lies inside `o`
    have hpre : D <+: o.drop p :=
      List.prefix_of_prefix_length_le ⟨t, ht⟩ (List.prefix_append _ _) (by rw [List.length_drop]; omega)
    exact ho (hpre.isInfix.trans (List.drop_suffix p o).isInfix)
  · -- it reaches over the first item of the delimiter that follows
    have hne : 0 < D.length := by omega
    have hhead := congrArg (·[o.length - p]?) ht
    rw [List.getElem?_append_left (by omega), List.getElem?_append_right (by simp),
      List.length_drop, Nat.sub_self, List.getElem?_append_left hne] at hhead
    rcases hD (o.length - p) (by omega) with h | h
    · exact h hhead
    · omega

/-- The scan of an input in which `D` first occurs after `o`. -/
theorem Scan.of_first [DecidableEq α] (hD : Simple D) (hne : D ≠ []) (h : NoneBefore D (o ++ D ++ ys) o.length) :
    Scan D 0 (o ++ D ++ ys) o (some ys) := by
  have hpos : 0 < D.length := List.length_pos_iff.mpr hne
  have here : ∀ o ys, D <+: (o ++ D ++ ys).drop o.length := fun o ys => by
    rw [List.append_assoc, List.drop_left]
    exact List.prefix_append _ _
  obtain ⟨o', r, hs⟩ : ∃ o' r, Scan D 0 (o ++ D ++ ys) o' r := Scan.total hpos
  have spec := hs.spec hD hpos
  simp only [List.take_zero, List.nil_append] at spec
  cases r with
  | none => exact absurd (here o ys) (spec.2 _ _ (Nat.lt_succ_self _))
  | some rest =>
    obtain ⟨heq, hbefore⟩ := spec
    have hlen : o'.length = o.length := by
      refine Nat.le_antisymm (Nat.not_lt.mp fun hlt => hbefore _ hlt (here o ys)) (Nat.not_lt.mp fun hlt => ?_)
      exact h _ hlt (heq ▸ here o' rest)
    have heq' := heq
    rw [List.append_assoc, List.append_assoc] at heq'
    obtain ⟨ho, h2⟩ := List.append_inj heq' hlen.symm
    rwa [← ho, ← List.append_cancel_left h2] at hs

end Delimiter
