/-
What `Requests::url_encode` writes is read back by percent-decoding, and has
no byte that means something in a form or a URL.
-/
import AudioToolApi.Lib.Percent
import AudioToolApi.Utilities.Requests

namespace AudioToolApi

open Percent

/-- The bytes that `url_encode` leaves as they are. -/
def unreserved (c : UInt8) : Bool := isAlnum c || c = 45 || c = 95 || c = 46 || c = 126

/-- One byte of `url_encode`. -/
def urlEncodeByte (c : UInt8) : Bytes := if unreserved c then [c] else percentEncode c

theorem urlEncode_eq (value : Bytes) : urlEncode value = value.flatMap urlEncodeByte := rfl

/-- The digit that `uppercase << hex` writes. -/
def hexDigit (n : Nat) : UInt8 := (upperHex[n]?).getD 0

theorem hexDigit_spec : ∀ n < 16,
    (upperHex.drop n).take 1 = [hexDigit n] ∧ hexValue (hexDigit n) = some n.toUInt8 := by
  decide

/-- Two digits, also where the first is zero. -/
theorem percentEncode_escaped (c : UInt8) :
    percentEncode c = [37, hexDigit (c.toNat / 16), hexDigit (c.toNat % 16)] ∧
      escaped 37 (hexDigit (c.toNat / 16)) (hexDigit (c.toNat % 16)) = some c := by
  have hc := c.toNat_lt
  obtain ⟨hhigh, hhighValue⟩ := hexDigit_spec (c.toNat / 16) (by omega)
  obtain ⟨hlow, hlowValue⟩ := hexDigit_spec (c.toNat % 16) (by omega)
  have hpercent : text "%" = [37] := by decide
  refine ⟨by rw [percentEncode, hpercent, hhigh, hlow]; rfl, ?_⟩
  have hvalue : 16 * (c.toNat / 16).toUInt8 + (c.toNat % 16).toUInt8 = c := by
    apply UInt8.toNat_inj.mp
    simp only [UInt8.toNat_add, UInt8.toNat_mul, UInt8.reduceToNat, Nat.toUInt8_eq, UInt8.toNat_ofNat']
    omega
  rw [escaped, if_pos rfl, hhighValue, hlowValue]
  exact congrArg some hvalue

theorem urlEncodeByte_reads (c : UInt8) : Reads urlEncodeByte c := by
  by_cases hc : unreserved c
  · refine reads_self (if_pos hc) fun h => ?_
    rw [h] at hc
    exact absurd hc (by decide)
  · obtain ⟨hwritten, hescaped⟩ := percentEncode_escaped c
    exact reads_escaped ((if_neg hc).trans hwritten) hescaped

theorem urlEncodeByte_written (c : UInt8) : Written unreserved (urlEncodeByte c) := by
  rw [urlEncodeByte]
  split
  next hc => exact .byte hc .nil
  next =>
    obtain ⟨hwritten, hescaped⟩ := percentEncode_escaped c
    rw [hwritten]
    exact .escape (by rw [hescaped]; rfl) .nil

theorem decode_urlEncode (value : Bytes) : decode (urlEncode value) = value := by
  rw [urlEncode_eq]
  exact decode_flatMap fun c _ => urlEncodeByte_reads c

theorem urlEncode_written (value : Bytes) : Written unreserved (urlEncode value) := by
  rw [urlEncode_eq]
  exact .flatMap fun c _ => urlEncodeByte_written c

end AudioToolApi
