/-
`nlohmann::json` (utilities/json.hpp), as far as the program uses it: how it
finds members and converts them, and how `dump` writes it. `dump` is strict:
a string that is not UTF-8 makes it throw. Parsing is a parameter
(`Env.parse`).
-/
import AudioToolApi.Utilities.Utf8
import Mathlib.Algebra.GroupWithZero.Nat

namespace AudioToolApi

/-- A `double`, as far as the program sees it: what a cast to `int` gives,
and the digits that `dump` writes. -/
structure Double where
  toInt : Int
  digits : Bytes
  digits_ne : digits ≠ []
  deriving DecidableEq, Repr

inductive Json
  | null
  | bool (b : Bool)
  | int (i : Int)
  | float (x : Double)
  | string (s : Bytes)
  | array (items : List Json)
  /-- The members of a `std::map`, by key. -/
  | object (members : List (Bytes × Json))
  deriving Repr

/-- `type_name`. -/
def Json.typeName : Json → Bytes
  | .null => text "null"
  | .bool _ => text "boolean"
  | .int _ | .float _ => text "number"
  | .string _ => text "string"
  | .array _ => text "array"
  | .object _ => text "object"

/-- `j.find(key)`; `none` is `end()`. -/
def Json.find : Json → Bytes → Option Json
  | .object members, key => members.lookup key
  | _, _ => none

/-- `what()` of a `type_error`. -/
def typeError (id : String) (what : Bytes) : Bytes := text "[json.exception.type_error." ++ text id ++ text "] " ++ what

/-- `j[key]`: null becomes an object, and a member that is missing is null. -/
def Json.at (j : Json) (key : Bytes) : Except Bytes Json :=
  match j with
  | .object members => .ok ((members.lookup key).getD .null)
  | .null => .ok .null
  | j => .error (typeError "305" (text "cannot use operator[] with a string argument with " ++ j.typeName))

/-- The conversion to `string`. -/
def Json.toString : Json → Except Bytes Bytes
  | .string s => .ok s
  | j => .error (typeError "302" (text "type must be string, but is " ++ j.typeName))

/-- The conversion to `int`. -/
def Json.toInt : Json → Except Bytes Int
  | .int i => .ok (i.bmod (2 ^ 32))
  | .float x => .ok x.toInt
  | .bool b => .ok (if b then 1 else 0)
  | j => .error (typeError "302" (text "type must be number, but is " ++ j.typeName))

/-! ## Objects -/

/-- `m[key] = value` of a `std::map`. -/
def insertMember (key : Bytes) (value : Json) : List (Bytes × Json) → List (Bytes × Json)
  | [] => [(key, value)]
  | (k, v) :: rest =>
    if key = k then (key, value) :: rest
    else if key < k then (key, value) :: (k, v) :: rest
    else (k, v) :: insertMember key value rest

/-- `serialize::jsonify`. -/
def jsonify (members : List (Bytes × Json)) : Json :=
  .object (members.foldl (fun m (k, v) => insertMember k v m) [])

/-! ## `dump` -/

def hexDigits : Bytes := text "0123456789abcdef"

/-- `\u00xx`. -/
def escapeControl (c : UInt8) : Bytes :=
  text "\\u00" ++ (hexDigits.drop (c.toNat / 16)).take 1 ++ (hexDigits.drop (c.toNat % 16)).take 1

/-- What is written for a byte that the decoder does not reject. Only a code
point of one byte is escaped. -/
def escapeByte (c : UInt8) : Bytes :=
  if c = 8 then text "\\b"
  else if c = 9 then text "\\t"
  else if c = 10 then text "\\n"
  else if c = 12 then text "\\f"
  else if c = 13 then text "\\r"
  else if c = 34 then text "\\\""
  else if c = 92 then text "\\\\"
  else if c ≤ 0x1F then escapeControl c
  else [c]

/-- `%.2X`. -/
def hexByte (c : UInt8) : Bytes :=
  let digits := text "0123456789ABCDEF"
  (digits.drop (c.toNat / 16)).take 1 ++ (digits.drop (c.toNat % 16)).take 1

def decimal (n : Nat) : Bytes := (Nat.toDigits 10 n).map fun c => c.toNat.toUInt8

/-- The loop of `dump_escaped`: `last` is the byte before, and `i` the index. -/
def dumpEscapedFrom (state : Nat) (last : UInt8) (i : Nat) : Bytes → Except Bytes Bytes
  | [] =>
    if state = utf8Accept then .ok []
    else .error (typeError "316" (text "incomplete UTF-8 string; last byte: 0x" ++ hexByte last))
  | c :: s =>
    let state := utf8Step state c
    if state = utf8Reject then
      .error (typeError "316" (text "invalid UTF-8 byte at index " ++ decimal i ++ text ": 0x" ++ hexByte c))
    else (dumpEscapedFrom state c (i + 1) s).map (escapeByte c ++ ·)

def dumpEscaped (s : Bytes) : Except Bytes Bytes := dumpEscapedFrom utf8Accept 0 0 s

/-- `"s"`. -/
def dumpString (s : Bytes) : Except Bytes Bytes := (dumpEscaped s).map (text "\"" ++ · ++ text "\"")

def dumpInteger : Int → Bytes
  | .ofNat n => decimal n
  | .negSucc n => text "-" ++ decimal (n + 1)

mutual

/-- `dump()`; the error is the `what()` of the `type_error` it throws. -/
def Json.dump : Json → Except Bytes Bytes
  | .null => .ok (text "null")
  | .bool b => .ok (if b then text "true" else text "false")
  | .int i => .ok (dumpInteger i)
  | .float x => .ok x.digits
  | .string s => dumpString s
  | .array items => do return text "[" ++ (← dumpItems items) ++ text "]"
  | .object members => do return text "\x7b" ++ (← dumpMembers members) ++ text "\x7d"

def dumpItems : List Json → Except Bytes Bytes
  | [] => .ok []
  | [j] => j.dump
  | j :: js => do return (← j.dump) ++ text "," ++ (← dumpItems js)

def dumpMembers : List (Bytes × Json) → Except Bytes Bytes
  | [] => .ok []
  | [(k, j)] => do return (← dumpString k) ++ text ":" ++ (← j.dump)
  | (k, j) :: js => do return (← dumpString k) ++ text ":" ++ (← j.dump) ++ text "," ++ (← dumpMembers js)

end

end AudioToolApi
