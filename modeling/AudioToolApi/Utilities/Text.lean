/-
Byte strings: what `std::string`, `<cstring>` and `<cctype>` do with them.
-/
import Mathlib.Data.List.TakeWhile

namespace AudioToolApi

abbrev Bytes := List UInt8

/-- The bytes of a literal of the source. -/
def text (s : String) : Bytes := s.toUTF8.data.toList

def CR : UInt8 := 13
def LF : UInt8 := 10

def crlf : Bytes := [CR, LF]

/-- `tolower`, in the C locale. -/
def toLower (c : UInt8) : UInt8 := if 65 ≤ c ∧ c ≤ 90 then c + 32 else c

theorem toLower_toNat (c : UInt8) :
    (toLower c).toNat = if 65 ≤ c.toNat ∧ c.toNat ≤ 90 then c.toNat + 32 else c.toNat := by
  simp only [toLower, UInt8.le_iff_toNat_le, UInt8.reduceToNat]
  split
  · simp only [UInt8.toNat_add, UInt8.reduceToNat]
    omega
  · rfl

/-- The C string that starts with these bytes: up to the first NUL. -/
def cStr (s : Bytes) : Bytes := s.takeWhile (· ≠ 0)

theorem cStr_eq_self {s : Bytes} (h : 0 ∉ s) : cStr s = s :=
  List.takeWhile_eq_self_iff.mpr fun c hc => decide_eq_true fun e : c = 0 => h (e ▸ hc)

/-- `s.find(pat)`; `none` is `npos`. -/
def find (pat : Bytes) : Bytes → Option Nat
  | [] => if pat.isEmpty then some 0 else none
  | c :: s => if pat.isPrefixOf (c :: s) then some 0 else (find pat s).map (· + 1)

/-- Equality of header names. -/
def iequals (a b : Bytes) : Bool := a.map toLower == b.map toLower

end AudioToolApi
