/-
Pre- and postconditions of programs with a state and exceptions (`EStateM`),
whatever they are about. `Triple P x Q E`: started in `P`, the program `x`
ends in `Q` of what it returns, or in `E` if it throws.

The rules follow the programs: one for each way they are put together.
`Keeps I` is the case of an invariant: whatever happens, it is kept. `Says I T`
looks at the exceptions as well, and at what is returned apart from the state.
-/
import AudioToolApi.Lib.Effects

namespace Effects

variable {ε σ α β : Type}

/-- What holds at the end: `Q` of a returned value, `E` of an exception. -/
def Ends (Q : α → σ → Prop) (E : ε → σ → Prop) : EStateM.Result ε σ α → Prop
  | .ok a s => Q a s
  | .error e s => E e s

def Triple (P : σ → Prop) (x : EStateM ε σ α) (Q : α → σ → Prop) (E : ε → σ → Prop) : Prop :=
  ∀ s, P s → Ends Q E (x s)

variable {P P' : σ → Prop} {Q Q' : α → σ → Prop} {S : β → σ → Prop} {E E' : ε → σ → Prop}
  {x : EStateM ε σ α} {f : α → EStateM ε σ β}

theorem Ends.imp {r : EStateM.Result ε σ α} (h : Ends Q E r) (hQ : ∀ a s, Q a s → Q' a s)
    (hE : ∀ e s, E e s → E' e s) : Ends Q' E' r := by
  cases r with
  | ok a s => exact hQ a s h
  | error e s => exact hE e s h

namespace Triple

theorem imp (h : Triple P x Q E) (hP : ∀ s, P' s → P s) (hQ : ∀ a s, Q a s → Q' a s) (hE : ∀ e s, E e s → E' e s) :
    Triple P' x Q' E' := fun s hs => (h s (hP s hs)).imp hQ hE

theorem pre (h : Triple P x Q E) (hP : ∀ s, P' s → P s) : Triple P' x Q E := h.imp hP (fun _ _ => id) fun _ _ => id

theorem post (h : Triple P x Q E) (hQ : ∀ a s, Q a s → Q' a s) : Triple P x Q' E := h.imp (fun _ => id) hQ fun _ _ => id

theorem pure {a : α} (h : ∀ s, P s → Q a s) : Triple P (pure a) Q E := h

theorem throw {e : ε} (h : ∀ s, P s → E e s) : Triple P (throw e : EStateM ε σ α) Q E := h

theorem bind (hx : Triple P x Q E) (hf : ∀ a, Triple (Q a) (f a) S E) : Triple P (x >>= f) S E := by
  intro s hs
  have h := hx s hs
  rw [bind_apply]
  cases hr : x s with
  | ok a t =>
    rw [hr] at h
    exact hf a t h
  | error e t =>
    rw [hr] at h
    exact h

theorem modify {g : σ → σ} {Q : PUnit → σ → Prop} (h : ∀ s, P s → Q ⟨⟩ (g s)) :
    Triple P (modify g : EStateM ε σ PUnit) Q E := h

theorem get {Q : σ → σ → Prop} (h : ∀ s, P s → Q s s) : Triple P (get : EStateM ε σ σ) Q E := h

theorem tryCatch {h : ε → EStateM ε σ α} (hx : Triple P x Q E') (hh : ∀ e, Triple (E' e) (h e) Q E) :
    Triple P (tryCatch x h) Q E := by
  intro s hs
  have hx' := hx s hs
  rw [tryCatch_apply]
  cases hr : x s with
  | ok a t =>
    rw [hr] at hx'
    exact hx'
  | error e t =>
    rw [hr] at hx'
    exact hh e t hx'

/-- What the state says that is not read, the value may. -/
theorem and (h : Triple P x Q E) (h' : Triple P x Q' E) : Triple P x (fun a s => Q a s ∧ Q' a s) E := by
  intro s hs
  have hx := h s hs
  have hx' := h' s hs
  cases hr : x s with
  | ok a t =>
    rw [hr] at hx hx'
    exact ⟨hx, hx'⟩
  | error e t =>
    rw [hr] at hx
    exact hx

end Triple

/-- Whatever happens, `I` is kept, and `Q` holds of what is returned. -/
def Keeps (I : σ → Prop) (x : EStateM ε σ α) (Q : α → σ → Prop) : Prop :=
  Triple I x (fun a s => I s ∧ Q a s) fun _ s => I s

variable {I : σ → Prop}

namespace Keeps

theorem left (h : Keeps I x Q) {s : σ} (hs : I s) : I (left (x s)) := by
  have hx := h s hs
  cases hr : x s with
  | ok a t =>
    rw [hr] at hx
    exact hx.1
  | error e t =>
    rw [hr] at hx
    exact hx

/-- From two runs of one program to one. -/
theorem of_alike {R : α → Prop} (h : Alike (Diag I) x R) : Keeps I x fun a _ => R a := by
  intro s hs
  have hx := h s s ⟨rfl, hs⟩
  generalize x s = r at hx
  cases hx with
  | ok ha hR => exact ⟨hR.2, ha⟩
  | error hR => exact hR.2

theorem of_still (h : Still x) : Keeps I x fun _ _ => True := by
  intro s hs
  have hsame := h s
  cases hr : x s with
  | ok a t =>
    rw [hr] at hsame
    cases hsame
    exact ⟨hs, trivial⟩
  | error e t =>
    rw [hr] at hsame
    cases hsame
    exact hs

theorem pure {a : α} (h : ∀ s, I s → Q a s) : Keeps I (pure a : EStateM ε σ α) Q := fun s hs => ⟨hs, h s hs⟩

theorem throw (e : ε) : Keeps I (throw e : EStateM ε σ α) Q := fun _ hs => hs

theorem bind (hx : Keeps I x Q) (hf : ∀ a, Triple (fun s => I s ∧ Q a s) (f a) (fun b s => I s ∧ S b s) fun _ s => I s) :
    Keeps I (x >>= f) S := Triple.bind hx hf

theorem modify {g : σ → σ} (h : ∀ s, I s → I (g s)) : Keeps I (modify g : EStateM ε σ PUnit) fun _ _ => True :=
  Triple.modify fun s hs => ⟨h s hs, trivial⟩

theorem post (h : Keeps I x Q) (hQ : ∀ a s, I s → Q a s → Q' a s) : Keeps I x Q' :=
  Triple.post h fun a s hs => ⟨hs.1, hQ a s hs.1 hs.2⟩

theorem weak (h : Keeps I x Q) : Keeps I x fun _ _ => True := h.post fun _ _ _ _ => trivial

theorem tryCatch {h : ε → EStateM ε σ α} (hx : Keeps I x Q) (hh : ∀ e, Keeps I (h e) Q) : Keeps I (tryCatch x h) Q :=
  Triple.tryCatch hx hh

end Keeps

/-- `I` is kept, and what is returned is in `Q`, or what is thrown in `T`. -/
def Says (I : σ → Prop) (T : ε → Prop) (x : EStateM ε σ α) (Q : α → Prop) : Prop :=
  Triple I x (fun a s => I s ∧ Q a) fun e s => I s ∧ T e

namespace Says

variable {T : ε → Prop} {Q Q' : α → Prop} {S : β → Prop}

theorem pure {a : α} (h : Q a) : Says I T (pure a : EStateM ε σ α) Q := fun _ hs => ⟨hs, h⟩

theorem throw {e : ε} (h : T e) : Says I T (throw e : EStateM ε σ α) Q := fun _ hs => ⟨hs, h⟩

theorem bind (hx : Says I T x Q) (hf : ∀ a, Q a → Says I T (f a) S) : Says I T (x >>= f) S :=
  Triple.bind hx fun a s hs => hf a hs.2 s hs.1

theorem modify {g : σ → σ} (h : ∀ s, I s → I (g s)) : Says I T (modify g : EStateM ε σ PUnit) fun _ => True :=
  Triple.modify fun s hs => ⟨h s hs, trivial⟩

theorem post (h : Says I T x Q) (hQ : ∀ a, Q a → Q' a) : Says I T x Q' :=
  Triple.post h fun a _ hs => ⟨hs.1, hQ a hs.2⟩

theorem keeps (h : Says I T x Q) : Keeps I x fun a _ => Q a := h.imp (fun _ => id) (fun _ _ => id) fun _ _ hs => hs.1

end Says

end Effects
