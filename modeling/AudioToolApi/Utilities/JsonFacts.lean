/-
When `dump` returns: exactly when every string of the value, keys included,
is UTF-8 (`dump_ok_iff`). What it throws otherwise is itself ASCII, as is
every `type_error`.
-/
import AudioToolApi.Utilities.Json

namespace AudioToolApi

mutual

/-- The strings of a value, keys included. -/
def Json.texts : Json → List Bytes
  | .string s => [s]
  | .array items => textsOfItems items
  | .object members => textsOfMembers members
  | _ => []

def textsOfItems : List Json → List Bytes
  | [] => []
  | j :: js => j.texts ++ textsOfItems js

def textsOfMembers : List (Bytes × Json) → List Bytes
  | [] => []
  | (k, j) :: js => k :: j.texts ++ textsOfMembers js

end

/-- Every string of the value is UTF-8. -/
def Json.Utf8 (j : Json) : Prop := ∀ s ∈ j.texts, AudioToolApi.Utf8 s

theorem textsOfItems_cons (j : Json) (js : List Json) : textsOfItems (j :: js) = j.texts ++ textsOfItems js := rfl

theorem textsOfMembers_cons (k : Bytes) (j : Json) (js : List (Bytes × Json)) :
    textsOfMembers ((k, j) :: js) = k :: j.texts ++ textsOfMembers js := rfl

/-! ## `dump` -/

/-- The value that was computed, if it was. -/
def Returned {ε α : Type} (x : Except ε α) : Prop := ∃ a, x = .ok a

@[simp] theorem returned_ok {ε α : Type} (a : α) : Returned (.ok a : Except ε α) := ⟨a, rfl⟩

@[simp] theorem not_returned_error {ε α : Type} (e : ε) : ¬ Returned (.error e : Except ε α) := nofun

@[simp] theorem returned_map {ε α β : Type} (x : Except ε α) (f : α → β) : Returned (x.map f) ↔ Returned x := by
  cases x with
  | ok a => simp [Except.map]
  | error e => simp [Except.map]

/-- One computation after another. -/
theorem returned_bind {ε α β : Type} (x : Except ε α) {f : α → Except ε β} {P : Prop}
    (hf : ∀ a, Returned (f a) ↔ P) : Returned (x >>= f) ↔ Returned x ∧ P := by
  cases x with
  | ok a => simpa [bind, Except.bind] using hf a
  | error e => simp [bind, Except.bind]

theorem dumpEscapedFrom_ok (state : Nat) (last : UInt8) (i : Nat) (s : Bytes) :
    Returned (dumpEscapedFrom state last i s) ↔ s.foldl utf8Step state = utf8Accept := by
  induction s generalizing state last i with
  | nil =>
    rw [dumpEscapedFrom]
    by_cases h : state = utf8Accept <;> simp [h]
  | cons c s ih =>
    rw [dumpEscapedFrom, List.foldl_cons]
    by_cases h : utf8Step state c = utf8Reject
    · rw [if_pos h, h, foldl_utf8_reject]
      exact ⟨fun hr => absurd hr (not_returned_error _), nofun⟩
    · rw [if_neg h, returned_map]
      exact ih ..

theorem dumpString_ok (s : Bytes) : Returned (dumpString s) ↔ Utf8 s := by
  rw [dumpString, returned_map]
  exact dumpEscapedFrom_ok ..

mutual

/-- **What `dump` takes**: the values all of whose strings are UTF-8. -/
theorem dump_ok_iff : ∀ j : Json, Returned j.dump ↔ j.Utf8
  | .null | .bool _ | .int _ | .float _ => by simp [Json.dump, Json.Utf8, Json.texts]
  | .string s => by simp [Json.dump, dumpString_ok, Json.Utf8, Json.texts]
  | .array items => by
    rw [Json.dump, returned_bind _ (P := True) (fun _ => by simp [pure, Except.pure]), and_true]
    exact dumpItems_ok items
  | .object members => by
    rw [Json.dump, returned_bind _ (P := True) (fun _ => by simp [pure, Except.pure]), and_true]
    exact dumpMembers_ok members

theorem dumpItems_ok : ∀ js : List Json, Returned (dumpItems js) ↔ ∀ s ∈ textsOfItems js, Utf8 s
  | [] => by simp [dumpItems, textsOfItems]
  | [j] => by
    rw [dumpItems, dump_ok_iff j, textsOfItems, textsOfItems, List.append_nil]
    exact Iff.rfl
  | j :: j' :: js => by
    have ih := dumpItems_ok (j' :: js)
    have hj := dump_ok_iff j
    rw [dumpItems, returned_bind _ (P := Returned (dumpItems (j' :: js))), hj, ih, textsOfItems_cons j]
    · simp only [Json.Utf8, List.mem_append, or_imp, forall_and]
    · intro b
      rw [returned_bind _ (P := True) (fun _ => by simp [pure, Except.pure]), and_true]
    · nofun

theorem dumpMembers_ok : ∀ js : List (Bytes × Json), Returned (dumpMembers js) ↔ ∀ s ∈ textsOfMembers js, Utf8 s
  | [] => by simp [dumpMembers, textsOfMembers]
  | [(k, j)] => by
    have hj := dump_ok_iff j
    rw [dumpMembers, returned_bind _ (P := Returned j.dump), hj, dumpString_ok, textsOfMembers, textsOfMembers,
      List.append_nil]
    · simp only [Json.Utf8, List.mem_cons, or_imp, forall_and, forall_eq]
    · intro b
      rw [returned_bind _ (P := True) (fun _ => by simp [pure, Except.pure]), and_true]
  | (k, j) :: m :: js => by
    have ih := dumpMembers_ok (m :: js)
    have hj := dump_ok_iff j
    rw [dumpMembers, returned_bind _ (P := Returned j.dump ∧ Returned (dumpMembers (m :: js))), hj, ih, dumpString_ok,
      textsOfMembers_cons k]
    · simp only [Json.Utf8, List.cons_append, List.mem_cons, List.mem_append, or_imp, forall_and, forall_eq]
    · intro b
      rw [returned_bind _ (P := Returned (dumpMembers (m :: js)))]
      intro b'
      rw [returned_bind _ (P := True) (fun _ => by simp [pure, Except.pure]), and_true]
    · nofun

end

/-! ## What is written -/

/-- A number is read back from its digits. -/
theorem decimal_injective : Function.Injective decimal := by
  have hback (n : Nat) : (decimal n).map (fun b => Char.ofNat b.toNat) = Nat.toDigits 10 n := by
    rw [decimal, List.map_map]
    refine (List.map_congr_left fun c hc => ?_).trans (List.map_id _)
    have hdigit := Nat.isDigit_of_mem_toDigits (by decide) (by decide) hc
    have hlt : c.toNat < 256 := by
      simp only [Char.isDigit, Bool.and_eq_true, decide_eq_true_eq, UInt32.le_iff_toNat_le] at hdigit
      exact Nat.lt_of_le_of_lt hdigit.2 (by decide)
    simp [Nat.mod_eq_of_lt hlt]
  intro m n h
  have hdigits : Nat.toDigits 10 m = Nat.toDigits 10 n := by
    rw [← hback, ← hback, h]
  rw [← @Nat.ofDigitChars_ten_toDigits m, hdigits, Nat.ofDigitChars_ten_toDigits]

theorem decimal_ne_nil (n : Nat) : decimal n ≠ [] := by
  simp [decimal, Nat.toDigits_ne_nil]

theorem bracketed_ne_nil {x : Except Bytes Bytes} {first last body : Bytes} (hfirst : first ≠ [])
    (h : x.map (first ++ · ++ last) = .ok body) : body ≠ [] := by
  cases x with
  | ok t =>
    cases h
    exact List.append_ne_nil_of_left_ne_nil (List.append_ne_nil_of_left_ne_nil hfirst t) last
  | error e => cases h

/-- No value is written as nothing. -/
theorem dump_ne_nil {j : Json} {body : Bytes} (h : j.dump = .ok body) : body ≠ [] := by
  cases j with
  | null =>
    cases h
    decide
  | bool b => cases b <;> cases h <;> decide
  | int i =>
    cases h
    cases i with
    | ofNat n => exact decimal_ne_nil n
    | negSucc n => exact List.append_ne_nil_of_left_ne_nil (by decide) _
  | float x =>
    cases h
    exact x.digits_ne
  | string s =>
    have hq : text "\"" ≠ [] := by decide
    exact bracketed_ne_nil hq h
  | array items =>
    have hq : text "[" ≠ [] := by decide
    rw [Json.dump] at h
    exact bracketed_ne_nil hq h
  | object members =>
    have hq : text "\x7b" ≠ [] := by decide
    rw [Json.dump] at h
    exact bracketed_ne_nil hq h

end AudioToolApi
