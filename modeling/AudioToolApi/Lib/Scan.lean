/-
Scans of a list for its greatest key. A scan keeps the first element with
the greatest key so far, and that key; only a greater one replaces it.

`scan_eq` says what is left at the end: the first of the greatest
(`FirstMax`), or what the scan began with where no key is greater than that.
For the least key, take the keys in the dual order (`FirstMin`); over
`Fin n`, the first is the one with the least index (`firstMin_finRange`).
-/
import Mathlib.Data.List.Basic
import Mathlib.Order.Fin.Basic

namespace Scan

variable {α β : Type*} [LinearOrder β] {key : α → β} {l : List α} {a b : α}

/-- `a` has the greatest key in `l`, and is the first with it. -/
def FirstMax (key : α → β) (l : List α) (a : α) : Prop :=
  ∃ before after, l = before ++ a :: after ∧ (∀ b ∈ before, key b < key a) ∧ ∀ b ∈ after, key b ≤ key a

/-- `a` has the least key in `l`, and is the first with it. -/
def FirstMin (key : α → β) (l : List α) (a : α) : Prop :=
  ∃ before after, l = before ++ a :: after ∧ (∀ b ∈ before, key a < key b) ∧ ∀ b ∈ after, key a ≤ key b

theorem firstMax_toDual : FirstMax (fun a => OrderDual.toDual (key a)) l a ↔ FirstMin key l a := Iff.rfl

theorem FirstMax.mem (h : FirstMax key l a) : a ∈ l := by
  obtain ⟨before, after, rfl, -, -⟩ := h
  simp

theorem FirstMax.le (h : FirstMax key l a) (hb : b ∈ l) : key b ≤ key a := by
  obtain ⟨before, after, rfl, hbefore, hafter⟩ := h
  rcases List.mem_append.mp hb with hb | hb
  · exact (hbefore b hb).le
  · rcases List.mem_cons.mp hb with rfl | hb
    · exact le_rfl
    · exact hafter b hb

theorem FirstMax.here (h : ∀ b ∈ l, key b ≤ key a) : FirstMax key (a :: l) a :=
  ⟨[], l, rfl, fun _ hb => (List.not_mem_nil hb).elim, h⟩

theorem FirstMax.later (h : FirstMax key l a) (hb : key b < key a) : FirstMax key (b :: l) a := by
  obtain ⟨before, after, rfl, hbefore, hafter⟩ := h
  refine ⟨b :: before, after, rfl, fun c hc => ?_, hafter⟩
  rcases List.mem_cons.mp hc with rfl | hc
  · exact hb
  · exact hbefore c hc

theorem FirstMax.unique (ha : FirstMax key l a) (hb : FirstMax key l b) : a = b := by
  have hkeys : key a = key b := le_antisymm (hb.le ha.mem) (ha.le hb.mem)
  obtain ⟨before, after, rfl, hbefore, -⟩ := ha
  obtain ⟨before', after', hsplit, hbefore', -⟩ := hb
  rcases List.append_eq_append_iff.mp hsplit with ⟨mid, rfl, hmid⟩ | ⟨mid, rfl, hmid⟩
  · cases mid with
    | nil => exact (List.cons.inj hmid).1
    | cons c mid =>
      obtain ⟨rfl, -⟩ := List.cons.inj hmid
      exact absurd hkeys (hbefore' a (by simp)).ne
  · cases mid with
    | nil => exact (List.cons.inj hmid).1.symm
    | cons c mid =>
      obtain ⟨rfl, -⟩ := List.cons.inj hmid
      exact absurd hkeys.symm (hbefore b (by simp)).ne

/-- The scan, from `acc` on. -/
def scan (key : α → β) (acc : Option α × β) (l : List α) : Option α × β :=
  l.foldl (fun acc a => if acc.2 < key a then (some a, key a) else acc) acc

theorem scan_cons (acc : Option α × β) (a : α) (l : List α) :
    scan key acc (a :: l) = scan key (if acc.2 < key a then (some a, key a) else acc) l := rfl

theorem scan_eq (key : α → β) (acc : Option α × β) (l : List α) :
    ((∀ a ∈ l, key a ≤ acc.2) ∧ scan key acc l = acc) ∨
      ∃ a, FirstMax key l a ∧ acc.2 < key a ∧ scan key acc l = (some a, key a) := by
  induction l generalizing acc with
  | nil => exact .inl ⟨fun _ ha => (List.not_mem_nil ha).elim, rfl⟩
  | cons a l ih =>
    rw [scan_cons]
    by_cases ha : acc.2 < key a
    · rw [if_pos ha]
      rcases ih (some a, key a) with ⟨hle, hscan⟩ | ⟨b, hmax, hlt, hscan⟩
      · exact .inr ⟨a, .here hle, ha, hscan⟩
      · exact .inr ⟨b, hmax.later hlt, ha.trans hlt, hscan⟩
    · rw [if_neg ha]
      rcases ih acc with ⟨hle, hscan⟩ | ⟨b, hmax, hlt, hscan⟩
      · exact .inl ⟨List.forall_mem_cons.mpr ⟨not_lt.mp ha, hle⟩, hscan⟩
      · exact .inr ⟨b, hmax.later ((not_lt.mp ha).trans_lt hlt), hlt, hscan⟩

/-- From the first element on. -/
theorem scan_first (key : α → β) (a : α) (l : List α) :
    ∃ b, FirstMax key (a :: l) b ∧ scan key (some a, key a) l = (some b, key b) := by
  rcases scan_eq key (some a, key a) l with ⟨hle, hscan⟩ | ⟨b, hmax, hlt, hscan⟩
  · exact ⟨a, .here hle, hscan⟩
  · exact ⟨b, hmax.later hlt, hscan⟩

/-! ## Scans over `Fin n` -/

/-- Before `i` are the smaller indices, after it the greater ones. -/
theorem mem_finRange_split {n : Nat} {before after : List (Fin n)} {i j : Fin n}
    (h : List.finRange n = before ++ i :: after) : (j ∈ before ↔ j < i) ∧ (j ∈ after ↔ i < j) := by
  have hpairs := List.pairwise_lt_finRange n
  have hmem := List.mem_finRange j
  rw [h, List.pairwise_append, List.pairwise_cons] at hpairs
  rw [h, List.mem_append, List.mem_cons] at hmem
  obtain ⟨-, ⟨hafter, -⟩, hbefore⟩ := hpairs
  have hlt : j ∈ before → j < i := fun hj => hbefore j hj i List.mem_cons_self
  have hgt : j ∈ after → i < j := hafter j
  constructor
  · refine ⟨hlt, fun hj => ?_⟩
    rcases hmem with hmem | rfl | hmem
    · exact hmem
    · exact absurd hj (lt_irrefl j)
    · exact absurd hj (hgt hmem).asymm
  · refine ⟨hgt, fun hj => ?_⟩
    rcases hmem with hmem | rfl | hmem
    · exact absurd hj (hlt hmem).asymm
    · exact absurd hj (lt_irrefl j)
    · exact hmem

theorem firstMin_finRange {n : Nat} {key : Fin n → β} {i : Fin n} (h : FirstMin key (List.finRange n) i) :
    (∀ j, key i ≤ key j) ∧ ∀ j < i, key i < key j := by
  obtain ⟨before, after, hsplit, hbefore, hafter⟩ := h
  refine ⟨fun j => ?_, fun j hj => hbefore j ((mem_finRange_split hsplit).1.mpr hj)⟩
  rcases lt_trichotomy j i with hj | rfl | hj
  · exact (hbefore j ((mem_finRange_split hsplit).1.mpr hj)).le
  · exact le_rfl
  · exact hafter j ((mem_finRange_split hsplit).2.mpr hj)

end Scan
