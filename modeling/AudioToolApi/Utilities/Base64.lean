/-
`base64_encode` (utilities/base64.cpp).
-/
import AudioToolApi.Utilities.Text

namespace AudioToolApi

def base64Chars : Bytes := text "ABCDEFGHIJKLMNOPQRSTUVWXYZabcdefghijklmnopqrstuvwxyz0123456789+/"

/-- `base64_chars[k]`. -/
def base64Char (k : UInt8) : UInt8 := (base64Chars[k.toNat]?).getD 0

/-- `char_array_4` of three bytes. -/
def base64Group (a b c : UInt8) : Bytes :=
  [(a &&& 0xfc) >>> 2, ((a &&& 0x03) <<< 4) + ((b &&& 0xf0) >>> 4), ((b &&& 0x0f) <<< 2) + ((c &&& 0xc0) >>> 6),
    c &&& 0x3f].map base64Char

/-- Three bytes at a time; a last group of one or two is filled up with
zeroes, and what they make is written as `=`. -/
def base64Encode : Bytes → Bytes
  | a :: b :: c :: rest => base64Group a b c ++ base64Encode rest
  | [a, b] => (base64Group a b 0).take 3 ++ text "="
  | [a] => (base64Group a 0 0).take 2 ++ text "=="
  | [] => []

end AudioToolApi
