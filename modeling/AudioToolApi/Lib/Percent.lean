/-
Percent escapes in byte strings.

`decode` reads them; a `%` that no two hexadecimal digits follow stands for
itself. An encoder writes each byte as a piece of its own. If every piece is
read back whatever follows it (`Reads`), the text is read back
(`decode_flatMap`).
-/
import Mathlib.Data.List.Basic

namespace Percent

/-- The value of a hexadecimal digit. -/
def hexValue (c : UInt8) : Option UInt8 :=
  if 48 ≤ c ∧ c ≤ 57 then some (c - 48)
  else if 65 ≤ c ∧ c ≤ 70 then some (c - 55)
  else if 97 ≤ c ∧ c ≤ 102 then some (c - 87)
  else none

/-- The byte that three bytes are the escape of. -/
def escaped (c a b : UInt8) : Option UInt8 :=
  if c = 37 then (hexValue a).bind fun x => (hexValue b).map fun y => 16 * x + y else none

def decode : List UInt8 → List UInt8
  | c :: a :: b :: s =>
    match escaped c a b with
    | some d => d :: decode s
    | none => c :: decode (a :: b :: s)
  | s => s

variable {c a b d : UInt8} {s xs ys : List UInt8} {f : UInt8 → List UInt8}

theorem decode_cons (h : c ≠ 37) (s : List UInt8) : decode (c :: s) = c :: decode s := by
  match s with
  | [] | [_] => rfl
  | a :: b :: s => rw [decode, escaped, if_neg h]

theorem decode_escaped (h : escaped 37 a b = some d) (s : List UInt8) : decode (37 :: a :: b :: s) = d :: decode s := by
  rw [decode, h]

/-- What is written for `c` is read as `c`, whatever follows. -/
def Reads (f : UInt8 → List UInt8) (c : UInt8) : Prop := ∀ s, decode (f c ++ s) = c :: decode s

theorem reads_self (hf : f c = [c]) (h : c ≠ 37) : Reads f c := by
  intro s
  rw [hf]
  exact decode_cons h s

theorem reads_escaped (hf : f c = [37, a, b]) (h : escaped 37 a b = some c) : Reads f c := by
  intro s
  rw [hf]
  exact decode_escaped h s

theorem decode_flatMap (h : ∀ c ∈ xs, Reads f c) : decode (xs.flatMap f) = xs := by
  induction xs with
  | nil => rfl
  | cons c xs ih =>
    rw [List.flatMap_cons, h c List.mem_cons_self, ih fun d hd => h d (.tail _ hd)]

/-! ## What is written -/

/-- Bytes in `ok` and escapes, and nothing else. -/
inductive Written (ok : UInt8 → Bool) : List UInt8 → Prop
  | nil : Written ok []
  | byte {c : UInt8} {s : List UInt8} : ok c = true → Written ok s → Written ok (c :: s)
  | escape {a b : UInt8} {s : List UInt8} : (escaped 37 a b).isSome → Written ok s → Written ok (37 :: a :: b :: s)

variable {ok : UInt8 → Bool}

theorem Written.append (hxs : Written ok xs) (hys : Written ok ys) : Written ok (xs ++ ys) := by
  induction hxs with
  | nil => exact hys
  | byte hc _ ih => exact .byte hc ih
  | escape he _ ih => exact .escape he ih

theorem Written.flatMap (h : ∀ c ∈ xs, Written ok (f c)) : Written ok (xs.flatMap f) := by
  induction xs with
  | nil => exact .nil
  | cons c xs ih => exact (h c List.mem_cons_self).append (ih fun d hd => h d (.tail _ hd))

theorem hexValue_of_escaped (h : (escaped c a b).isSome) : (hexValue a).isSome ∧ (hexValue b).isSome := by
  rw [escaped] at h
  cases ha : hexValue a with
  | none => simp [ha] at h
  | some x =>
    cases hb : hexValue b with
    | none => simp [ha, hb] at h
    | some y => exact ⟨rfl, rfl⟩

/-- A byte that is neither in `ok` nor part of an escape does not occur. -/
theorem Written.not_mem (h : Written ok s) (hok : ok c = false) (hc : c ≠ 37) (hhex : hexValue c = none) :
    c ∉ s := by
  have hdigit {a : UInt8} (ha : (hexValue a).isSome) : c ≠ a := by
    intro e
    rw [← e, hhex] at ha
    cases ha
  induction h with
  | nil => exact List.not_mem_nil
  | byte hd _ ih =>
    refine List.not_mem_cons_of_ne_of_not_mem (fun e => ?_) ih
    rw [← e, hok] at hd
    cases hd
  | escape he _ ih =>
    obtain ⟨ha, hb⟩ := hexValue_of_escaped he
    exact List.not_mem_cons_of_ne_of_not_mem hc (List.not_mem_cons_of_ne_of_not_mem (hdigit ha)
      (List.not_mem_cons_of_ne_of_not_mem (hdigit hb) ih))

end Percent
