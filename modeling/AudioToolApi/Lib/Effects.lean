/-
Programs with a state and exceptions (`EStateM`), whatever they are about.

Inversion: what a program that returned went through (`bind_ok_iff` and its
siblings, a `simp` set). Two runs: `Alike R x Q`, that from states in `R` it
ends the same way, in states in `R`, and returns only what is in `Q`; `Leads R
R' x Q`, that it ends in states in `R'`. One run that keeps an invariant is a
case of that: two runs from the same state (`Diag`).
-/
import Mathlib.Order.Defs.Unbundled

namespace Effects

variable {ε σ τ α β : Type}

/-! ## Running -/

theorem throw_apply (e : ε) (s : σ) : (throw e : EStateM ε σ α) s = .error e s := rfl

theorem modifyGet_apply (f : σ → α × σ) (s : σ) : (modifyGet f : EStateM ε σ α) s = .ok (f s).1 (f s).2 := rfl

theorem bind_apply (x : EStateM ε σ α) (f : α → EStateM ε σ β) (s : σ) :
    (x >>= f) s = match x s with
      | .ok a t => f a t
      | .error e t => .error e t := rfl

theorem bind_ok {x : EStateM ε σ α} {f : α → EStateM ε σ β} {s t : σ} {a : α} (h : x s = .ok a t) :
    (x >>= f) s = f a t := by
  rw [bind_apply, h]

theorem bind_error {x : EStateM ε σ α} {f : α → EStateM ε σ β} {s t : σ} {e : ε} (h : x s = .error e t) :
    (x >>= f) s = .error e t := by
  rw [bind_apply, h]

theorem tryCatch_apply (x : EStateM ε σ α) (f : ε → EStateM ε σ α) (s : σ) :
    tryCatch x f s = match x s with
      | .ok a t => .ok a t
      | .error e t => f e t := by
  change EStateM.tryCatch x f s = _
  delta EStateM.tryCatch
  cases x s <;> rfl

theorem tryCatch_ok {x : EStateM ε σ α} {f : ε → EStateM ε σ α} {s t : σ} {a : α} (h : x s = .ok a t) :
    tryCatch x f s = .ok a t := by
  rw [tryCatch_apply, h]

theorem tryCatch_error {x : EStateM ε σ α} {f : ε → EStateM ε σ α} {s t : σ} {e : ε} (h : x s = .error e t) :
    tryCatch x f s = f e t := by
  rw [tryCatch_apply, h]

/-- What follows a handler goes on after it. -/
theorem tryCatch_bind_error {x : EStateM ε σ α} {f : ε → EStateM ε σ α} {g : α → EStateM ε σ β} {s t : σ} {e : ε}
    (h : x s = .error e t) : (tryCatch x f >>= g) s = (f e >>= g) t := by
  rw [bind_apply, tryCatch_error h]
  rfl

@[simp] theorem bind_ok_iff {x : EStateM ε σ α} {f : α → EStateM ε σ β} {s u : σ} {b : β} :
    (x >>= f) s = .ok b u ↔ ∃ a t, x s = .ok a t ∧ f a t = .ok b u := by
  rw [bind_apply]
  cases x s with
  | ok a t =>
    constructor
    · intro hf
      exact ⟨a, t, rfl, hf⟩
    · intro ⟨a', t', ha, hf⟩
      cases ha
      exact hf
  | error e t =>
    constructor
    · intro hf
      cases hf
    · intro ⟨a', t', ha, _⟩
      cases ha

@[simp] theorem pure_ok_iff {s t : σ} {a b : α} : (pure a : EStateM ε σ α) s = .ok b t ↔ a = b ∧ s = t := by
  simp [pure, EStateM.pure]

@[simp] theorem throw_ok_iff {s t : σ} {a : α} {e : ε} : (throw e : EStateM ε σ α) s = .ok a t ↔ False := by
  simp [throw_apply]

/-- The same end, in states in `R`. -/
inductive Same (R : σ → σ → Prop) (Q : α → Prop) : EStateM.Result ε σ α → EStateM.Result ε σ α → Prop
  | ok {a s t} : Q a → R s t → Same R Q (.ok a s) (.ok a t)
  | error {e s t} : R s t → Same R Q (.error e s) (.error e t)

/-- From states in `R`, `x` ends the same way. -/
def Alike (R : σ → σ → Prop) (x : EStateM ε σ α) (Q : α → Prop) : Prop := ∀ s t, R s t → Same R Q (x s) (x t)

/-- From states in `R`, `x` ends the same way, in states in `R'`. -/
def Leads (R R' : σ → σ → Prop) (x : EStateM ε σ α) (Q : α → Prop) : Prop := ∀ s t, R s t → Same R' Q (x s) (x t)

variable {R R' : σ → σ → Prop} {x : EStateM ε σ α} {f : α → EStateM ε σ β} {P Q : α → Prop} {S : β → Prop}

theorem Alike.pure {a : α} (h : Q a) : Alike R (pure a : EStateM ε σ α) Q := fun _ _ hR => .ok h hR

theorem Alike.throw (e : ε) : Alike R (throw e : EStateM ε σ α) Q := fun _ _ hR => .error hR

theorem Same.bind {s t : σ} (hs : Same R P (x s) (x t)) (hf : ∀ a, P a → Alike R (f a) S) :
    Same R S ((x >>= f) s) ((x >>= f) t) := by
  rw [bind_apply, bind_apply]
  generalize x s = u at hs ⊢
  generalize x t = v at hs ⊢
  cases hs with
  | ok ha hR' => exact hf _ ha _ _ hR'
  | error hR' => exact .error hR'

theorem Alike.bind (hx : Alike R x P) (hf : ∀ a, P a → Alike R (f a) S) : Alike R (x >>= f) S :=
  fun s t hR => (hx s t hR).bind hf

theorem Same.imp {u v : EStateM.Result ε σ α} (h : Same R Q u v) (hR : ∀ s t, R s t → R' s t) :
    Same R' Q u v := by
  cases h with
  | ok ha hst => exact .ok ha (hR _ _ hst)
  | error hst => exact .error (hR _ _ hst)

theorem Alike.mono (hx : Alike R x P) (h : ∀ a, P a → Q a) : Alike R x Q := by
  intro s t hR
  have hs := hx s t hR
  generalize x s = u at hs ⊢
  generalize x t = v at hs ⊢
  cases hs with
  | ok ha hR' => exact .ok (h _ ha) hR'
  | error hR' => exact .error hR'

theorem Alike.modify {g : σ → σ} (h : ∀ s t, R s t → R (g s) (g t)) :
    Alike R (modify g : EStateM ε σ PUnit) fun _ => True := fun s t hR => .ok trivial (h s t hR)

/-! ## Two runs, from one relation to another -/

theorem Alike.leads (hx : Alike R x Q) (hR : ∀ s t, R s t → R' s t) : Leads R R' x Q := fun s t h => (hx s t h).imp hR

/-- What leads on comes last. -/
theorem Leads.bind (hx : Alike R x P) (hf : ∀ a, P a → Leads R R' (f a) S) (hR : ∀ s t, R s t → R' s t) :
    Leads R R' (x >>= f) S := by
  intro s t h
  have hs := hx s t h
  rw [bind_apply, bind_apply]
  generalize x s = u at hs ⊢
  generalize x t = v at hs ⊢
  cases hs with
  | ok ha h' => exact hf _ ha _ _ h'
  | error h' => exact .error (hR _ _ h')

/-- What leads on comes first. -/
theorem Leads.andThen (hx : Leads R R' x P) (hf : ∀ a, P a → Alike R' (f a) S) : Leads R R' (x >>= f) S :=
  fun s t h => (hx s t h).bind hf

theorem Leads.tryCatch {h : ε → EStateM ε σ α} (hx : Leads R R' x Q) (hh : ∀ e, Alike R' (h e) Q) :
    Leads R R' (tryCatch x h) Q := by
  intro s t hR
  have hs := hx s t hR
  generalize hxs : x s = u at hs
  generalize hxt : x t = v at hs
  cases hs with
  | ok ha hR' =>
    rw [tryCatch_ok hxs, tryCatch_ok hxt]
    exact .ok ha hR'
  | error hR' =>
    rw [tryCatch_error hxs, tryCatch_error hxt]
    exact hh _ _ _ hR'

theorem Alike.tryCatch {h : ε → EStateM ε σ α} (hx : Alike R x Q) (hh : ∀ e, Alike R (h e) Q) :
    Alike R (tryCatch x h) Q := Leads.tryCatch hx hh

/-! ## The states they leave -/

/-- The state a run leaves, however it ends. -/
def left : EStateM.Result ε σ α → σ
  | .ok _ s => s
  | .error _ s => s

/-- It returns. -/
def returns : EStateM.Result ε σ α → Bool
  | .ok _ _ => true
  | .error _ _ => false

theorem eq_ok_of_returns {res : EStateM.Result ε σ Unit} (h : returns res = true) : res = .ok () (left res) := by
  cases res with
  | ok _ s => rfl
  | error e s => cases h

theorem Same.left {u v : EStateM.Result ε σ α} (h : Same R Q u v) : R (left u) (left v) := by
  cases h with
  | ok _ hR => exact hR
  | error hR => exact hR

/-- `x` leaves the state as it finds it. -/
def Still (x : EStateM ε σ α) : Prop := ∀ s, left (x s) = s

theorem Still.throw (e : ε) : Still (throw e : EStateM ε σ α) := fun _ => rfl

theorem Still.bind (hx : Still x) (hf : ∀ a, Still (f a)) : Still (x >>= f) := by
  intro s
  have hs := hx s
  rw [bind_apply]
  cases h : x s with
  | ok a t =>
    rw [h] at hs
    exact (hf a t).trans hs
  | error e t =>
    rw [h] at hs
    exact hs

/-- Two runs from one state, in which `I` holds. -/
def Diag (I : σ → Prop) (s t : σ) : Prop := s = t ∧ I s

/-- What is returned. -/
theorem Alike.returned {I : σ → Prop} (h : Alike (Diag I) x Q) {s t : σ} {a : α} (hs : I s) (hx : x s = .ok a t) :
    Q a := by
  have hsame := h s s ⟨rfl, hs⟩
  rw [hx] at hsame
  cases hsame with
  | ok ha _ => exact ha

theorem Alike.kept {I : σ → Prop} (h : Alike (Diag I) x Q) {s : σ} (hs : I s) : I (left (x s)) :=
  (h s s ⟨rfl, hs⟩).left.2

end Effects
