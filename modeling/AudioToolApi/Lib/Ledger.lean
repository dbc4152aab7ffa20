/-
Tables whose rows are counted: each row gets the counter as its key when it
is added, rows are changed in place but never removed, and a change leaves
the key.

`Grown key same (rows, n) (rows', n')` is what any number of such steps can
do to a table, where `same` is what a change keeps of a row. It is reflexive
and transitive, and a table with its keys in order below the counter
(`Keyed`) stays one.
-/
import AudioToolApi.Lib.Rows
import Mathlib.Data.List.Forall2
import Mathlib.Data.List.Pairwise

namespace Ledger

variable {ρ : Type} (key : ρ → Int) (same : ρ → ρ → Prop)

/-- The rows of a table, and the key of the next. -/
structure Table (ρ : Type) where
  rows : List ρ
  next : Int

/-- The keys ascend, below the counter. -/
structure Keyed (t : Table ρ) : Prop where
  ascending : t.rows.Pairwise fun r s => key r < key s
  below : ∀ r ∈ t.rows, key r < t.next

/-- The rows of `t` are there, changed as `same` allows, before rows that were
added since. -/
structure Grown (t u : Table ρ) : Prop where
  next : t.next ≤ u.next
  rows : ∃ kept added, u.rows = kept ++ added ∧ List.Forall₂ same t.rows kept ∧
    added.Pairwise (fun r s => key r < key s) ∧ ∀ r ∈ added, t.next ≤ key r ∧ key r < u.next

variable {key same} {t u v : Table ρ}

theorem Grown.refl (hsame : ∀ r, same r r) (t : Table ρ) : Grown key same t t :=
  ⟨Int.le_refl _, t.rows, [], (List.append_nil _).symm, List.forall₂_same.mpr fun r _ => hsame r, .nil, nofun⟩

theorem forall₂_append_left {α β : Type} {R : α → β → Prop} {as bs : List α} {cs : List β}
    (h : List.Forall₂ R (as ++ bs) cs) : ∃ ds es, cs = ds ++ es ∧ List.Forall₂ R as ds ∧ List.Forall₂ R bs es := by
  induction as generalizing cs with
  | nil => exact ⟨[], cs, rfl, .nil, h⟩
  | cons a as ih =>
    cases h with
    | cons hac h =>
      obtain ⟨ds, es, rfl, hds, hes⟩ := ih h
      exact ⟨_ :: ds, es, rfl, .cons hac hds, hes⟩

/-- A relation between rows of one key carries over what is said of the keys. -/
theorem pairwise_of_forall₂ {rows rows' : List ρ} (hkey : ∀ r r', same r r' → key r' = key r)
    (h : List.Forall₂ same rows rows') (hp : rows.Pairwise fun r s => key r < key s) :
    rows'.Pairwise fun r s => key r < key s := by
  have hmap : rows'.map key = rows.map key := by
    induction h with
    | nil => rfl
    | cons hr _ ih => rw [List.map_cons, List.map_cons, hkey _ _ hr, ih (List.pairwise_cons.mp hp).2]
  rw [← List.pairwise_map (f := key) (R := fun a b => a < b), hmap]
  exact List.pairwise_map.mpr hp

theorem mem_of_forall₂ {rows rows' : List ρ} (h : List.Forall₂ same rows rows') {r' : ρ} (hr : r' ∈ rows') :
    ∃ r ∈ rows, same r r' := by
  induction h with
  | nil => cases hr
  | cons hs _ ih =>
    rcases List.mem_cons.mp hr with rfl | hr
    · exact ⟨_, .head _, hs⟩
    · obtain ⟨r, hmem, hrr⟩ := ih hr
      exact ⟨r, .tail _ hmem, hrr⟩

theorem forall₂_mem {rows rows' : List ρ} (h : List.Forall₂ same rows rows') {r : ρ} (hr : r ∈ rows) :
    ∃ r' ∈ rows', same r r' := by
  induction h with
  | nil => cases hr
  | cons hs _ ih =>
    rcases List.mem_cons.mp hr with rfl | hr
    · exact ⟨_, .head _, hs⟩
    · obtain ⟨r', hmem, hrr⟩ := ih hr
      exact ⟨r', .tail _ hmem, hrr⟩

theorem forall₂_trans (htrans : ∀ r s q, same r s → same s q → same r q) {as bs cs : List ρ}
    (h : List.Forall₂ same as bs) (h' : List.Forall₂ same bs cs) : List.Forall₂ same as cs := by
  induction h generalizing cs with
  | nil => exact h'
  | cons hab _ ih =>
    cases h' with
    | cons hbc h' => exact .cons (htrans _ _ _ hab hbc) (ih h')

theorem Grown.trans (hkey : ∀ r r', same r r' → key r' = key r) (htrans : ∀ r s q, same r s → same s q → same r q)
    (h : Grown key same t u) (h' : Grown key same u v) : Grown key same t v := by
  obtain ⟨hn, kept, added, hu, hkept, hasc, hadded⟩ := h
  obtain ⟨hn', kept', added', hv, hkept', hasc', hadded'⟩ := h'
  rw [hu] at hkept'
  obtain ⟨ds, es, rfl, hds, hes⟩ := forall₂_append_left hkept'
  have hes_bounds : ∀ r ∈ es, t.next ≤ key r ∧ key r < u.next := by
    intro r hr
    obtain ⟨q, hq, hqr⟩ := mem_of_forall₂ hes hr
    rw [hkey _ _ hqr]
    exact hadded q hq
  refine ⟨Int.le_trans hn hn', ds, es ++ added', by rw [hv, List.append_assoc], ?_, ?_, ?_⟩
  · exact forall₂_trans htrans hkept hds
  · refine List.pairwise_append.mpr ⟨pairwise_of_forall₂ hkey hes hasc, hasc', fun r hr s hs => ?_⟩
    exact Int.lt_of_lt_of_le (hes_bounds r hr).2 (hadded' s hs).1
  · intro r hr
    rcases List.mem_append.mp hr with hr | hr
    · exact ⟨(hes_bounds r hr).1, Int.lt_of_lt_of_le (hes_bounds r hr).2 hn'⟩
    · exact ⟨Int.le_trans hn (hadded' r hr).1, (hadded' r hr).2⟩

/-- A row is added, with the counter as its key. -/
theorem Grown.insert (hsame : ∀ r, same r r) (t : Table ρ) {row : ρ} (hrow : key row = t.next) :
    Grown key same t ⟨t.rows ++ [row], t.next + 1⟩ := by
  refine ⟨by dsimp only; omega, t.rows, [row], rfl, List.forall₂_same.mpr fun r _ => hsame r, List.pairwise_singleton _ _,
    fun r hr => ?_⟩
  rw [List.mem_singleton] at hr
  subst hr
  dsimp only
  omega

/-- Rows are changed in place. -/
theorem Grown.update (t : Table ρ) {f : ρ → ρ} (hf : ∀ r ∈ t.rows, same r (f r)) :
    Grown key same t ⟨t.rows.map f, t.next⟩ := by
  refine ⟨Int.le_refl _, t.rows.map f, [], (List.append_nil _).symm, ?_, .nil, nofun⟩
  exact List.forall₂_map_right_iff.mpr (List.forall₂_same.mpr hf)

theorem Keyed.grown (hkey : ∀ r r', same r r' → key r' = key r) (h : Keyed key t) (hg : Grown key same t u) :
    Keyed key u := by
  obtain ⟨hn, kept, added, hu, hkept, hasc, hadded⟩ := hg
  have hbelow : ∀ r ∈ kept, key r < t.next := by
    intro r hr
    obtain ⟨q, hq, hqr⟩ := mem_of_forall₂ hkept hr
    rw [hkey _ _ hqr]
    exact h.below q hq
  constructor
  · rw [hu]
    refine List.pairwise_append.mpr ⟨pairwise_of_forall₂ hkey hkept h.ascending, hasc, fun r hr s hs => ?_⟩
    exact Int.lt_of_lt_of_le (hbelow r hr) (hadded s hs).1
  · rw [hu]
    intro r hr
    rcases List.mem_append.mp hr with hr | hr
    · exact Int.lt_of_lt_of_le (hbelow r hr) hn
    · exact (hadded r hr).2

/-- The keys of a keyed table are counted up. -/
theorem Keyed.counted (h : Keyed key t) : Rows.Counted key t.next t.rows where
  unique := by
    refine List.pairwise_map.mpr (h.ascending.imp fun hrs => ?_)
    omega
  below := h.below

/-- A row once there stays, but for what changes leave it. -/
theorem Grown.mem (h : Grown key same t u) {r : ρ} (hr : r ∈ t.rows) : ∃ r' ∈ u.rows, same r r' := by
  obtain ⟨-, kept, added, hu, hkept, -, -⟩ := h
  obtain ⟨r', hmem, hrr⟩ := forall₂_mem hkept hr
  exact ⟨r', by rw [hu]; exact List.mem_append_left _ hmem, hrr⟩

end Ledger
