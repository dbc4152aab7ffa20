/-
The UTF-8 decoder of the JSON serializer (utilities/json.hpp,
`serializer::decode`), and the strings it takes (`Utf8`): those after which
it is in its accepting state. It composes: once a string is taken, what
follows is taken or not by itself (`utf8_append`).
-/
import AudioToolApi.Utilities.Text

namespace AudioToolApi

/-- `utf8d[byte]`: the first 256 entries of the table. -/
def utf8Type (byte : UInt8) : Nat :=
  if byte ≤ 0x7F then 0
  else if byte ≤ 0x8F then 1
  else if byte ≤ 0x9F then 9
  else if byte ≤ 0xBF then 7
  else if byte ≤ 0xC1 then 8
  else if byte ≤ 0xDF then 2
  else if byte = 0xE0 then 10
  else if byte = 0xED then 4
  else if byte ≤ 0xEF then 3
  else if byte = 0xF0 then 11
  else if byte ≤ 0xF3 then 6
  else if byte = 0xF4 then 5
  else 8

/-- `utf8d[256 + state * 16 + type]`: the rows of the table, a state each. -/
def utf8Rows : List (List Nat) :=
  [[0, 1, 2, 3, 5, 8, 7, 1, 1, 1, 4, 6, 1, 1, 1, 1],
   [1, 1, 1, 1, 1, 1, 1, 1, 1, 1, 1, 1, 1, 1, 1, 1],
   [1, 0, 1, 1, 1, 1, 1, 0, 1, 0, 1, 1, 1, 1, 1, 1],
   [1, 2, 1, 1, 1, 1, 1, 2, 1, 2, 1, 1, 1, 1, 1, 1],
   [1, 1, 1, 1, 1, 1, 1, 2, 1, 1, 1, 1, 1, 1, 1, 1],
   [1, 2, 1, 1, 1, 1, 1, 1, 1, 2, 1, 1, 1, 1, 1, 1],
   [1, 1, 1, 1, 1, 1, 1, 3, 1, 3, 1, 1, 1, 1, 1, 1],
   [1, 3, 1, 1, 1, 1, 1, 3, 1, 3, 1, 1, 1, 1, 1, 1],
   [1, 3, 1, 1, 1, 1, 1, 1, 1, 1, 1, 1, 1, 1, 1, 1]]

def utf8Accept : Nat := 0
def utf8Reject : Nat := 1

/-- `decode`, as far as the state goes. -/
def utf8Step (state : Nat) (byte : UInt8) : Nat :=
  ((utf8Rows[state]?.getD [])[utf8Type byte]?).getD utf8Reject

/-- The string is UTF-8, as the decoder sees it. -/
def Utf8 (s : Bytes) : Prop := s.foldl utf8Step utf8Accept = utf8Accept

instance : DecidablePred Utf8 := fun _ => inferInstanceAs (Decidable (_ = _))

theorem utf8Step_reject (byte : UInt8) : utf8Step utf8Reject byte = utf8Reject := by
  have row : ∀ k : Fin 16, ((utf8Rows[1]?.getD [])[k.val]?).getD 1 = 1 := by decide
  by_cases hk : utf8Type byte < 16
  · exact row ⟨_, hk⟩
  · have hlen : (utf8Rows[utf8Reject]?.getD []).length = 16 := rfl
    rw [utf8Step, List.getElem?_eq_none (by omega)]
    rfl

/-- No way leads back from the rejecting state. -/
theorem foldl_utf8_reject (s : Bytes) : s.foldl utf8Step utf8Reject = utf8Reject := by
  induction s with
  | nil => rfl
  | cons c s ih => rw [List.foldl_cons, utf8Step_reject, ih]

theorem utf8_append {s t : Bytes} (hs : Utf8 s) : Utf8 (s ++ t) ↔ Utf8 t := by
  rw [Utf8, List.foldl_append, hs]
  exact Iff.rfl

theorem Utf8.append {s t : Bytes} (hs : Utf8 s) (ht : Utf8 t) : Utf8 (s ++ t) := (utf8_append hs).mpr ht

/-- ASCII is UTF-8. -/
theorem utf8_of_ascii {s : Bytes} (h : ∀ c ∈ s, c < 128) : Utf8 s := by
  induction s with
  | nil => rfl
  | cons c s ih =>
    have hc : utf8Step utf8Accept c = utf8Accept := by
      have hle : c ≤ 0x7F := by
        have := UInt8.lt_iff_toNat_lt.mp (h c (.head _))
        simp only [UInt8.le_iff_toNat_le, UInt8.reduceToNat] at this ⊢
        omega
      rw [utf8Step, utf8Type, if_pos hle]
      rfl
    rw [Utf8, List.foldl_cons, hc]
    exact ih fun c hc => h c (.tail _ hc)

end AudioToolApi
