/-
`Requests::url_encode` (utilities/requests.h).
-/
import AudioToolApi.Utilities.Text

namespace AudioToolApi

/-- `isalnum`, in the C locale. -/
def isAlnum (c : UInt8) : Bool := 48 ≤ c && c ≤ 57 || 65 ≤ c && c ≤ 90 || 97 ≤ c && c ≤ 122

def upperHex : Bytes := text "0123456789ABCDEF"

/-- `%` and two hexadecimal digits. -/
def percentEncode (c : UInt8) : Bytes :=
  text "%" ++ (upperHex.drop (c.toNat / 16)).take 1 ++ (upperHex.drop (c.toNat % 16)).take 1

def urlEncode (value : Bytes) : Bytes :=
  value.flatMap fun c => if isAlnum c || c = 45 || c = 95 || c = 46 || c = 126 then [c] else percentEncode c

end AudioToolApi
