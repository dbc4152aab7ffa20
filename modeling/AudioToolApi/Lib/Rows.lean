/-
Tables as lists of rows: a column that is a key, and one that is counted up.
-/
import Mathlib.Data.List.Nodup

namespace Rows

variable {ρ κ : Type} {rows : List ρ} {row row' : ρ}

/-- No two rows have the same key. -/
def Unique (key : ρ → κ) (rows : List ρ) : Prop := (rows.map key).Nodup

section

variable {key : ρ → κ}

theorem Unique.eq_of_mem (h : Unique key rows) (hrow : row ∈ rows) (hrow' : row' ∈ rows) (he : key row = key row') :
    row = row' := List.inj_on_of_nodup_map h hrow hrow' he

theorem Unique.filter (h : Unique key rows) (p : ρ → Bool) : Unique key (rows.filter p) :=
  List.Nodup.sublist (List.filter_sublist.map key) h

theorem Unique.append (h : Unique key rows) (hnew : ∀ r ∈ rows, key r ≠ key row) : Unique key (rows ++ [row]) := by
  rw [Unique, List.map_append, List.map_singleton]
  refine List.Nodup.append h (List.nodup_singleton _) ?_
  intro k hk hk'
  obtain ⟨r, hr, rfl⟩ := List.mem_map.mp hk
  exact hnew r hr (List.mem_singleton.mp hk')

/-- A row is selected by its key. -/
theorem Unique.filter_eq [DecidableEq κ] (h : Unique key rows) (hrow : row ∈ rows) :
    rows.filter (fun r => key r = key row) = [row] := by
  induction rows with
  | nil => simp at hrow
  | cons r rows ih =>
    rw [Unique, List.map_cons, List.nodup_cons] at h
    rcases List.mem_cons.mp hrow with rfl | hmem
    · have hrest : rows.filter (fun r => key r = key row) = [] := by
        rw [List.filter_eq_nil_iff]
        intro r hr he
        exact h.1 (List.mem_map.mpr ⟨r, hr, by simpa using he⟩)
      simp [hrest]
    · have hne : key r ≠ key row := fun e => h.1 (List.mem_map.mpr ⟨row, hmem, e.symm⟩)
      simpa [hne] using ih h.2 hmem

end

/-- A column that is counted up: its values are below the next. -/
structure Counted (key : ρ → Int) (next : Int) (rows : List ρ) : Prop where
  unique : Unique key rows
  below : ∀ r ∈ rows, key r < next

theorem Counted.insert {key : ρ → Int} {next : Int} (h : Counted key next rows) (hrow : key row = next) :
    Counted key (next + 1) (rows ++ [row]) where
  unique := h.unique.append fun r hr => by
    have := h.below r hr
    omega
  below r hr := by
    rcases List.mem_append.mp hr with hr | hr
    · have := h.below r hr
      omega
    · rw [List.mem_singleton.mp hr]
      omega

end Rows
