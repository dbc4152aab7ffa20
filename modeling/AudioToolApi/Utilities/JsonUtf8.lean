/-
UTF-8 through a value: what `dump` takes, and what is read by `parse`, looked
up, converted and put together again. The texts of the errors on the way are UTF-8 as well, but
for what `parse` quotes.
-/
import AudioToolApi.Utilities.JsonErrors
import AudioToolApi.Utilities.JsonFacts
import AudioToolApi.Utilities.JsonValid

namespace AudioToolApi

theorem Ascii.utf8 {s : Bytes} (h : Ascii s) : Utf8 s := utf8_of_ascii h

/-- **The decoder is right**: it takes what encodes a string of characters.
These are the strings that `dump` takes, and the values all of whose strings
are such. -/
theorem utf8_iff (s : Bytes) (j : Json) :
    (Utf8 s ↔ ∃ cs : List Char, s = cs.flatMap String.utf8EncodeChar) ∧
      (Returned (dumpString s) ↔ ∃ cs : List Char, s = cs.flatMap String.utf8EncodeChar) ∧
      (Returned j.dump ↔ ∀ t ∈ j.texts, ∃ cs : List Char, t = cs.flatMap String.utf8EncodeChar) :=
  ⟨utf8_chars_iff s, (dumpString_ok s).trans (utf8_chars_iff s),
    (dump_ok_iff j).trans (forall₂_congr fun t _ => utf8_chars_iff t)⟩

theorem text_eq (s : String) : text s = s.toList.flatMap String.utf8EncodeChar := by
  rw [text, String.toUTF8_eq_toByteArray, ← String.utf8Encode_toList, List.utf8Encode, List.toList_data_toByteArray]

/-- What the source says is UTF-8. -/
theorem utf8_text (s : String) : Utf8 (text s) := by
  rw [text_eq]
  induction s.toList with
  | nil => exact Lexer.utf8_nil
  | cons c cs ih =>
    rw [List.flatMap_cons, utf8EncodeChar_eq]
    exact Lexer.utf8_codepoint (isScalar_char c) ih

/-! ## Parts -/

theorem mem_textsOfItems {items : List Json} {s : Bytes} : s ∈ textsOfItems items ↔ ∃ j ∈ items, s ∈ j.texts := by
  induction items with
  | nil => simp [textsOfItems]
  | cons j items ih => simp [textsOfItems, ih]

theorem mem_textsOfMembers {members : List (Bytes × Json)} {s : Bytes} :
    s ∈ textsOfMembers members ↔ ∃ m ∈ members, s = m.1 ∨ s ∈ m.2.texts := by
  induction members with
  | nil => simp [textsOfMembers]
  | cons m members ih => simp [textsOfMembers, ih, or_assoc]

namespace Json

@[simp] theorem utf8_null : Json.null.Utf8 := by simp [Json.Utf8, texts]

@[simp] theorem utf8_bool (b : Bool) : (Json.bool b).Utf8 := by simp [Json.Utf8, texts]

@[simp] theorem utf8_int (i : Int) : (Json.int i).Utf8 := by simp [Json.Utf8, texts]

@[simp] theorem utf8_float (x : Double) : (Json.float x).Utf8 := by simp [Json.Utf8, texts]

@[simp] theorem utf8_string (s : Bytes) : (Json.string s).Utf8 ↔ AudioToolApi.Utf8 s := by simp [Json.Utf8, texts]

@[simp] theorem utf8_array (items : List Json) : (Json.array items).Utf8 ↔ ∀ j ∈ items, j.Utf8 := by
  simp only [Json.Utf8, texts, mem_textsOfItems]
  constructor
  · intro h j hj s hs
    exact h s ⟨j, hj, hs⟩
  · rintro h s ⟨j, hj, hs⟩
    exact h j hj s hs

@[simp] theorem utf8_object (members : List (Bytes × Json)) :
    (Json.object members).Utf8 ↔ ∀ m ∈ members, AudioToolApi.Utf8 m.1 ∧ m.2.Utf8 := by
  simp only [Json.Utf8, texts, mem_textsOfMembers]
  constructor
  · intro h m hm
    exact ⟨h _ ⟨m, hm, .inl rfl⟩, fun s hs => h s ⟨m, hm, .inr hs⟩⟩
  · rintro h s ⟨m, hm, rfl | hs⟩
    · exact (h m hm).1
    · exact (h m hm).2 s hs

theorem jsonify_eq (members : List (Bytes × Json)) :
    jsonify members = .object (members.foldl (fun ms m => insertMember m.1 m.2 ms) []) := rfl

/-- What is put together of UTF-8. -/
theorem utf8_jsonify {members : List (Bytes × Json)} (h : ∀ m ∈ members, AudioToolApi.Utf8 m.1 ∧ m.2.Utf8) :
    (jsonify members).Utf8 := by
  rw [jsonify_eq, utf8_object]
  refine List.foldlRecOn members _ (motive := fun ms : List (Bytes × Json) => ∀ m ∈ ms, AudioToolApi.Utf8 m.1 ∧ m.2.Utf8)
    (by simp) ?_
  intro ms hms m' hm' m hm
  rcases mem_insertMember hm with rfl | hm
  · exact h m' hm'
  · exact hms m hm

/-! ## Members -/

theorem mem_insertMember_iff {key : Bytes} {j : Json} {members : List (Bytes × Json)} (hkey : key ∉ members.map Prod.fst)
    {m : Bytes × Json} : m ∈ insertMember key j members ↔ m = (key, j) ∨ m ∈ members := by
  induction members with
  | nil => simp [insertMember]
  | cons m' members ih =>
    obtain ⟨k, v⟩ := m'
    simp only [List.map_cons, List.mem_cons, not_or] at hkey
    rw [insertMember, if_neg hkey.1]
    split
    · exact List.mem_cons
    · simp [ih hkey.2, or_left_comm]

/-- Where no key is given twice, all that is given is there. -/
theorem mem_insertMembers {members : List (Bytes × Json)} : ∀ {init : List (Bytes × Json)},
    (members.map Prod.fst).Nodup → (∀ m ∈ members, m.1 ∉ init.map Prod.fst) → ∀ m,
      m ∈ members.foldl (fun ms m => insertMember m.1 m.2 ms) init ↔ m ∈ init ∨ m ∈ members := by
  induction members with
  | nil => simp
  | cons m' members ih =>
    obtain ⟨k, v⟩ := m'
    intro init hkeys hfresh m
    obtain ⟨hk, hkeys⟩ := List.nodup_cons.mp hkeys
    obtain ⟨hnew, hfresh⟩ := List.forall_mem_cons.mp hfresh
    have hlater : ∀ m ∈ members, m.1 ∉ (insertMember k v init).map Prod.fst := by
      intro m hm hin
      obtain ⟨m', hm', heq⟩ := List.mem_map.mp hin
      rcases (mem_insertMember_iff hnew).mp hm' with rfl | hm'
      · exact hk (heq ▸ List.mem_map_of_mem hm)
      · exact hfresh m hm (heq ▸ List.mem_map_of_mem hm')
    rw [List.foldl_cons, ih hkeys hlater, mem_insertMember_iff hnew, List.mem_cons, or_assoc, or_left_comm]

theorem utf8_jsonify_iff {members : List (Bytes × Json)} (hkeys : (members.map Prod.fst).Nodup) :
    (jsonify members).Utf8 ↔ ∀ m ∈ members, AudioToolApi.Utf8 m.1 ∧ m.2.Utf8 := by
  rw [jsonify_eq, utf8_object]
  refine forall_congr' fun m => ?_
  rw [mem_insertMembers hkeys (by simp) m]
  simp

theorem Utf8.member {members : List (Bytes × Json)} (h : (Json.object members).Utf8) {key : Bytes} {j : Json}
    (hkey : members.lookup key = some j) : j.Utf8 := by
  obtain ⟨before, after, hsplit, -⟩ := List.lookup_eq_some_iff.mp hkey
  exact ((utf8_object members).mp h (key, j) (by simp [hsplit])).2

theorem Utf8.find {j j' : Json} (h : j.Utf8) {key : Bytes} (hkey : j.find key = some j') : j'.Utf8 := by
  cases j with
  | object members => exact Utf8.member h hkey
  | null | bool | int | float | string | array => cases hkey

end Json

/-! ## Conversions -/

/-- What is returned is in `P`, and what is thrown is UTF-8. -/
def Speaks {α : Type} (x : Except Bytes α) (P : α → Prop) : Prop :=
  match x with
  | .ok a => P a
  | .error what => Utf8 what

theorem typeError_speaks {id : String} {what : Bytes} (hid : Ascii (text id)) (hwhat : Ascii what) :
    Utf8 (typeError id what) := by
  have hstart : Ascii (text "[json.exception.type_error.") := by decide
  have hend : Ascii (text "] ") := by decide
  exact Ascii.utf8 (((hstart.append hid).append hend).append hwhat)

theorem jsonTypeName_ascii (j : Json) : Ascii j.typeName := by
  have hnames : ∀ name ∈ ["null", "boolean", "number", "string", "array", "object"], Ascii (text name) := by decide
  cases j with
  | null => exact hnames "null" (by simp)
  | bool => exact hnames "boolean" (by simp)
  | int | float => exact hnames "number" (by simp)
  | string => exact hnames "string" (by simp)
  | array => exact hnames "array" (by simp)
  | object => exact hnames "object" (by simp)

theorem at_speaks {j : Json} (h : j.Utf8) (key : Bytes) : Speaks (j.at key) Json.Utf8 := by
  have herror : Utf8 (typeError "305" (text "cannot use operator[] with a string argument with " ++ j.typeName)) :=
    typeError_speaks (by decide) (Ascii.append (by decide) (jsonTypeName_ascii j))
  cases j with
  | object members =>
    show ((members.lookup key).getD .null).Utf8
    cases hkey : members.lookup key with
    | none => exact Json.utf8_null
    | some j => exact Json.Utf8.member h hkey
  | null => exact Json.utf8_null
  | bool | int | float | string | array => exact herror

theorem toString_speaks {j : Json} (h : j.Utf8) : Speaks j.toString Utf8 := by
  have herror : Utf8 (typeError "302" (text "type must be string, but is " ++ j.typeName)) :=
    typeError_speaks (by decide) (Ascii.append (by decide) (jsonTypeName_ascii j))
  cases j with
  | string s => exact (Json.utf8_string s).mp h
  | null | bool | int | float | array | object => exact herror

theorem toInt_speaks (j : Json) : Speaks j.toInt fun _ => True := by
  have herror : Utf8 (typeError "302" (text "type must be number, but is " ++ j.typeName)) :=
    typeError_speaks (by decide) (Ascii.append (by decide) (jsonTypeName_ascii j))
  cases j with
  | int | float | bool => trivial
  | null | string | array | object => exact herror

/-! ## `parse` -/

/-- A string that is read is UTF-8. -/
def Token.Utf8 : Token → Prop
  | .valueString s => AudioToolApi.Utf8 s
  | _ => True

namespace Lexer

variable {strtod : Bytes → Option Double} {l l' : Lexer}

theorem utf8_of_fits {t : Token} (h : t.Fits strtod) : t.Utf8 := by
  cases t with
  | valueString s => exact h
  | _ => trivial

theorem numberToken_utf8 (type : NumberType) (buffer : Bytes) : (numberToken strtod type buffer).Utf8 := by
  unfold numberToken
  split <;> first | trivial | (split <;> trivial)

theorem numberLoop_utf8 {s : NumberState} {type : NumberType} {buffer : Bytes} {t : Token}
    (h : numberLoop strtod s type buffer l = (t, l')) : t.Utf8 := by
  fun_induction numberLoop strtod s type buffer l with
  | case1 | case5 =>
    cases h
    trivial
  | case2 | case4 =>
    cases h
    exact numberToken_utf8 ..
  | case3 _ _ _ _ _ _ _ _ _ ih => exact ih h

theorem scan_utf8 (l : Lexer) : (l.scan strtod).1.Utf8 :=
  have hplain {t : Token} (h : t.isPlain = true) : t.Utf8 := @utf8_of_fits strtod t (fits_of_isPlain h)
  scan_elim (P := fun r => r.1.Utf8) (fun _ => trivial) (fun _ _ h => hplain h)
    (fun _ literal _ h => hplain (scanLiteral_isPlain h literal _))
    (fun _ => @utf8_of_fits strtod _ (scanString_fits utf8_nil rfl)) fun _ _ => numberLoop_utf8 rfl

end Lexer

theorem kept_utf8 (strtod : Bytes → Option Double) :
    Kept strtod (fun _ => True) Token.Utf8 Json.Utf8 fun _ => True where
  scan {l l' t} _ h := by
    have hutf8 : (l.scan strtod).1.Utf8 := Lexer.scan_utf8 l
    rw [h] at hutf8
    exact ⟨trivial, hutf8⟩
  null := Json.utf8_null
  bool := Json.utf8_bool
  unsigned _ := Json.utf8_int _
  integer _ := Json.utf8_int _
  float _ := Json.utf8_float _
  string ht := (Json.utf8_string _).mpr ht
  array := (Json.utf8_array _).mpr
  object _ := (Json.utf8_object _).mpr
  syntaxError _ _ := fun _ => trivial
  overflow _ := trivial

/-- **All that `parse` returns is UTF-8**, whatever it is given. -/
theorem parse_utf8 {strtod : Bytes → Option Double} {input : Bytes} {j : Json}
    (h : Json.parse strtod input = .ok j) : j.Utf8 := by
  have hfirst : (Lexer.scanFirst strtod { rest := input }).1.Utf8 := by
    unfold Lexer.scanFirst
    split
    · exact Lexer.scan_utf8 _
    · trivial
  have hkeeps := parse_keeps (kept_utf8 strtod) input trivial hfirst
  rw [h] at hkeeps
  exact hkeeps

/-- A text that is rejected, but for ASCII only. -/
theorem parse_speaks {strtod : Bytes → Option Double} {input : Bytes}
    (h : ∀ what, Json.parse strtod input = .error what → Ascii input) : Speaks (Json.parse strtod input) Json.Utf8 := by
  cases hparse : Json.parse strtod input with
  | ok j => exact parse_utf8 hparse
  | error what =>
    obtain ⟨piece, hpiece, hquotes⟩ := quotes_of_parse hparse
    exact hquotes.utf8.mpr (Ascii.utf8 fun c hc => h what hparse c (hpiece.subset hc))

end AudioToolApi
