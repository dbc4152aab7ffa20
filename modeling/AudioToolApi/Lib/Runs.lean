/-
Runs of a labelled transition system whose steps may be impossible
(`step s a = none`: the action cannot happen, or never comes back).

`Always P` says `P` of every state a run passes through, `Steps G` says
the guard `G` of every step it takes, read in the state before the step.
`always_iff_steps` is the rule both sides meet in: where guarded steps keep
an invariant that implies `P`, and an unguarded step breaks `P`, a run has
`P` throughout exactly when its steps are all guarded.
-/
import Mathlib.Data.List.Basic

namespace Runs

variable {σ α : Type*} (step : σ → α → Option σ)

/-- `as` takes `s` to `t`. -/
inductive Run : σ → List α → σ → Prop
  | nil {s} : Run s [] s
  | cons {s t u a as} : step s a = some t → Run t as u → Run s (a :: as) u

/-- `P` holds in `s` and in every state reached on the way through `as`. -/
def Always (P : σ → Prop) : σ → List α → Prop
  | s, [] => P s
  | s, a :: as => P s ∧ ∀ t, step s a = some t → Always P t as

/-- Every step taken on the way through `as` meets `G` where it is taken. -/
def Steps (G : σ → α → Prop) : σ → List α → Prop
  | _, [] => True
  | s, a :: as => ∀ t, step s a = some t → G s a ∧ Steps G t as

variable {step}

theorem Run.append {s t u : σ} {as bs : List α} (h : Run step s as t) (h' : Run step t bs u) :
    Run step s (as ++ bs) u := by
  induction h with
  | nil => exact h'
  | cons hs _ ih => exact .cons hs (ih h')

theorem Steps.cons {G : σ → α → Prop} {s t : σ} {a : α} {as : List α} (hs : step s a = some t) (hg : G s a)
    (h : Steps step G t as) : Steps step G s (a :: as) := by
  intro u hu
  rw [hs, Option.some.injEq] at hu
  subst hu
  exact ⟨hg, h⟩

/-- A run can be checked, if the guard can. -/
instance Steps.decidable {G : σ → α → Prop} [∀ s a, Decidable (G s a)] : ∀ s as, Decidable (Steps step G s as)
  | _, [] => .isTrue trivial
  | s, a :: as =>
    match h : step s a with
    | none => .isTrue fun t ht => absurd (h.symm.trans ht) (by simp)
    | some t =>
      have := Steps.decidable (G := G) t as
      decidable_of_iff (G s a ∧ Steps step G t as)
        ⟨fun hg u hu => Option.some.inj (h.symm.trans hu) ▸ hg, fun hs => hs t h⟩

theorem Always.here {P : σ → Prop} {s : σ} {as : List α} (h : Always step P s as) : P s := by
  cases as with
  | nil => exact h
  | cons _ _ => exact h.1

/-- `Always` in terms of the states a run's prefixes end in. -/
theorem always_iff_prefix {P : σ → Prop} {s : σ} {as : List α} :
    Always step P s as ↔ ∀ bs t, bs <+: as → Run step s bs t → P t := by
  induction as generalizing s with
  | nil =>
    refine ⟨fun h bs t hb hr => ?_, fun h => h [] s List.prefix_rfl .nil⟩
    rw [List.prefix_nil] at hb
    subst hb
    cases hr
    exact h
  | cons a as ih =>
    constructor
    · intro h bs t hb hr
      cases hr with
      | nil => exact h.1
      | cons hs hr =>
        obtain ⟨rfl, hb'⟩ := List.cons_prefix_cons.mp hb
        exact ih.mp (h.2 _ hs) _ _ hb' hr
    · refine fun h => ⟨h [] s List.nil_prefix .nil, fun t ht => ih.mpr fun bs u hb hr => ?_⟩
      exact h (a :: bs) u (List.cons_prefix_cons.mpr ⟨rfl, hb⟩) (.cons ht hr)

/-- Guarded steps keep `I`, so a guarded run has `I` throughout. -/
theorem Steps.always {I : σ → Prop} {G : σ → α → Prop}
    (hstep : ∀ s a t, I s → G s a → step s a = some t → I t) :
    ∀ {as : List α} {s : σ}, I s → Steps step G s as → Always step I s as
  | [], _, hs, _ => hs
  | _ :: _, _, hs, h => ⟨hs, fun t ht => Steps.always hstep (hstep _ _ t hs (h t ht).1 ht) (h t ht).2⟩

theorem Always.mono {P Q : σ → Prop} (hPQ : ∀ s, P s → Q s) :
    ∀ {as : List α} {s : σ}, Always step P s as → Always step Q s as
  | [], _, h => hPQ _ h
  | _ :: _, _, h => ⟨hPQ _ h.1, fun t ht => Always.mono hPQ (h.2 t ht)⟩

/-- What every step keeps holds throughout. -/
theorem Always.of_step {I : σ → Prop} (hstep : ∀ s a t, I s → step s a = some t → I t) {as : List α} {s : σ}
    (hs : I s) : Always step I s as := by
  induction as generalizing s with
  | nil => exact hs
  | cons a as ih => exact ⟨hs, fun t ht => ih (hstep s a t hs ht)⟩

/-- **The exact condition.** Guarded steps keep an invariant that implies
`P`, an unguarded step leads out of `P`: a run has `P` throughout if and
only if every step it takes is guarded. -/
theorem always_iff_steps {I P : σ → Prop} {G : σ → α → Prop} (hI : ∀ s, I s → P s)
    (hkeep : ∀ s a t, I s → G s a → step s a = some t → I t)
    (hbreak : ∀ s a t, I s → ¬ G s a → step s a = some t → ¬ P t) {as : List α} {s : σ} (hs : I s) :
    Always step P s as ↔ Steps step G s as := by
  refine ⟨fun h => ?_, fun h => (Steps.always hkeep hs h).mono hI⟩
  induction as generalizing s with
  | nil => trivial
  | cons a as ih =>
    intro t ht
    have hg : G s a := by
      by_contra hg
      exact hbreak s a t hs hg ht (h.2 t ht).here
    exact ⟨hg, ih (hkeep s a t hs hg ht) (h.2 t ht)⟩

end Runs
