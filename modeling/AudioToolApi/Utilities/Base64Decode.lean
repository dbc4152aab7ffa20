/-
`base64_decode` (utilities/base64.cpp), which nothing calls yet, and what it
makes of any string: the characters up to the first that is not of the
alphabet are six bits each, and of these bits the whole bytes are returned.
What `base64_encode` writes is so many bits too, so it is read back.

The characters left are counted in an `int`, so all of this is about strings
of less than 2^31 bytes: beyond them the count overflows.
-/
import AudioToolApi.Lib.Bits
import AudioToolApi.Utilities.Requests
import AudioToolApi.Utilities.Base64Facts

namespace AudioToolApi.Base64

open Bits

/-- `is_base64`. -/
def isBase64 (c : UInt8) : Bool := isAlnum c || c = 43 || c = 47

/-- `base64_chars.find(c)`, as an `unsigned char`. -/
def index (c : UInt8) : UInt8 :=
  match find [c] base64Chars with
  | some k => UInt8.ofNat k
  | none => 255

/-- `char_array_3` of `char_array_4`. -/
def bytesOf (a b c d : UInt8) : Bytes :=
  [(a <<< 2) + ((b &&& 0x30) >>> 4), ((b &&& 0xf) <<< 4) + ((c &&& 0x3c) >>> 2), ((c &&& 0x3) <<< 6) + d]

/-- What is made of the characters in `char_array_4`. Where there are fewer
than four the others are not set; they are zero here, and what is returned
does not depend on them. -/
def groupBytes (group : Bytes) : Bytes :=
  let indices := group.map index
  bytesOf (indices.getD 0 0) (indices.getD 1 0) (indices.getD 2 0) (indices.getD 3 0)

/-- What is left in `char_array_4` at the end. -/
def lastGroup (group : Bytes) : Bytes :=
  if group.isEmpty then [] else (groupBytes group).take (group.length - 1)

/-- The loop, with `in_len` and what `char_array_4` holds. Past its end a string
reads as NUL, which is not of the alphabet. -/
def decodeLoop (inLen : Int) (group : Bytes) : Bytes → Bytes
  | [] => lastGroup group
  | c :: rest =>
    if inLen ≠ 0 && c ≠ 61 && isBase64 c then
      if (group ++ [c]).length = 4 then groupBytes (group ++ [c]) ++ decodeLoop (inLen - 1) [] rest
      else decodeLoop (inLen - 1) (group ++ [c]) rest
    else lastGroup group

def base64Decode (encoded : Bytes) : Bytes := decodeLoop (Int.bmod encoded.length (2 ^ 32)) [] encoded

/-! ## One group -/

theorem index_lt : ∀ c, isBase64 c = true → (index c).toNat < 64 := by
  have hall : ∀ i : Fin 256, isBase64 (UInt8.ofFin i) = true → (index (UInt8.ofFin i)).toNat < 64 := by decide +kernel
  exact fun c => hall c.toFin

/-- What the masks and shifts take of an index. -/
theorem index_bits (c : UInt8) :
    c <<< 2 = UInt8.ofNat (c.toNat * 4) ∧ (c &&& 0x30) >>> 4 = UInt8.ofNat (c.toNat / 16 % 4) ∧
      (c &&& 0xf) <<< 4 = UInt8.ofNat (c.toNat % 16 * 16) ∧ (c &&& 0x3c) >>> 2 = UInt8.ofNat (c.toNat / 4 % 16) ∧
        (c &&& 0x3) <<< 6 = UInt8.ofNat (c.toNat % 4 * 64) := by
  have hall : ∀ i : Fin 256, UInt8.ofFin i <<< 2 = UInt8.ofNat (i.val * 4) ∧
      (UInt8.ofFin i &&& 0x30) >>> 4 = UInt8.ofNat (i.val / 16 % 4) ∧
      (UInt8.ofFin i &&& 0xf) <<< 4 = UInt8.ofNat (i.val % 16 * 16) ∧
      (UInt8.ofFin i &&& 0x3c) >>> 2 = UInt8.ofNat (i.val / 4 % 16) ∧
      (UInt8.ofFin i &&& 0x3) <<< 6 = UInt8.ofNat (i.val % 4 * 64) := by
    decide +kernel
  exact hall c.toFin

theorem bytesOf_toNat {a b c d : UInt8} (ha : a.toNat < 64) (hb : b.toNat < 64) (hc : c.toNat < 64) (hd : d.toNat < 64) :
    (bytesOf a b c d).map UInt8.toNat =
      [a.toNat * 4 + b.toNat / 16, b.toNat % 16 * 16 + c.toNat / 4, c.toNat % 4 * 64 + d.toNat] := by
  obtain ⟨ha', -⟩ := index_bits a
  obtain ⟨-, hb', hb'', -⟩ := index_bits b
  obtain ⟨-, -, -, hc', hc''⟩ := index_bits c
  simp only [bytesOf, ha', hb', hb'', hc', hc'', List.map_cons, List.map_nil, UInt8.toNat_add, UInt8.toNat_ofNat',
    Nat.reducePow, List.cons.injEq, and_true]
  omega

/-- Four times six bits are three times eight, if they are of one number. -/
theorem spell_alike {n a b c d x y z : Nat} (hsix : n = ((a * 64 + b) * 64 + c) * 64 + d)
    (height : n = (x * 256 + y) * 256 + z) (hb : b < 64) (hc : c < 64) (hd : d < 64) (hy : y < 256) (hz : z < 256) :
    string 6 [a, b, c, d] = string 8 [x, y, z] := by
  have ha : bits 6 (n / 2 ^ 6 / 2 ^ 6 / 2 ^ 6) = bits 6 a := bits_congr (by omega)
  have hb : bits 6 (n / 2 ^ 6 / 2 ^ 6) = bits 6 b := bits_congr (by omega)
  have hc : bits 6 (n / 2 ^ 6) = bits 6 c := bits_congr (by omega)
  have hd : bits 6 n = bits 6 d := bits_congr (by omega)
  have hx : bits 8 (n / 2 ^ 8 / 2 ^ 8) = bits 8 x := bits_congr (by omega)
  have hy : bits 8 (n / 2 ^ 8) = bits 8 y := bits_congr (by omega)
  have hz : bits 8 n = bits 8 z := bits_congr (by omega)
  have hsixes : bits (6 + 6 + 6 + 6) n = bits 6 a ++ bits 6 b ++ bits 6 c ++ bits 6 d := by
    rw [bits_add, bits_add, bits_add, ha, hb, hc, hd]
  have heights : bits (8 + 8 + 8) n = bits 8 x ++ bits 8 y ++ bits 8 z := by
    rw [bits_add, bits_add, hx, hy, hz]
  simpa using hsixes.symm.trans heights

/-- Three bytes are the bits of four indices. -/
theorem bytesOf_bits {a b c d : UInt8} (ha : a.toNat < 64) (hb : b.toNat < 64) (hc : c.toNat < 64) (hd : d.toNat < 64) :
    string 8 ((bytesOf a b c d).map UInt8.toNat) = string 6 [a.toNat, b.toNat, c.toNat, d.toNat] := by
  rw [bytesOf_toNat ha hb hc hd]
  exact (spell_alike rfl (by omega) hb hc hd (by omega) (by omega)).symm

/-! ## Decoding -/

/-- The indices of the characters that are read. -/
def letters (encoded : Bytes) : List Nat := (encoded.takeWhile isBase64).map fun c => (index c).toNat

/-- The whole bytes of `6 * n` bits. -/
def wholeBytes (n : Nat) : Nat := 8 * (6 * n / 8)

theorem isBase64_pad : isBase64 61 = false := by decide

theorem letters_cons {c : UInt8} (h : isBase64 c = true) (rest : Bytes) :
    letters (c :: rest) = (index c).toNat :: letters rest := by
  simp [letters, h]

theorem groupBytes_bits {group : Bytes} (hlength : group.length ≤ 4) (hgroup : ∀ c ∈ group, isBase64 c = true) :
    string 8 (((groupBytes group).take (group.length - 1)).map UInt8.toNat) =
      (string 6 (group.map fun c => (index c).toNat)).take (wholeBytes group.length) := by
  have hat : ∀ k, ((group.map index).getD k 0).toNat < 64 := by
    intro k
    rw [List.getD_eq_getElem?_getD, List.getElem?_map]
    cases hk : group[k]? with
    | none => simp
    | some c => simpa using index_lt c (hgroup c (List.mem_of_getElem? hk))
  rw [List.map_take, string_take, groupBytes, bytesOf_bits (hat 0) (hat 1) (hat 2) (hat 3)]
  match group, hlength with
  | [], _ => simp [wholeBytes]
  | [a], _ => simp [wholeBytes]
  | [a, b], _ => simp [wholeBytes, List.take_append]
  | [a, b, c], _ => simp [wholeBytes, List.take_append]
  | [a, b, c, d], _ => simp [wholeBytes]

theorem lastGroup_bits {group : Bytes} (hlength : group.length ≤ 4) (hgroup : ∀ c ∈ group, isBase64 c = true) :
    string 8 ((lastGroup group).map UInt8.toNat) =
      (string 6 (group.map fun c => (index c).toNat)).take (wholeBytes group.length) := by
  rw [← groupBytes_bits hlength hgroup, lastGroup]
  split
  · simp_all
  · rfl

/-- A turn of the loop, where the size is an `int`. -/
theorem decodeLoop_cons {group : Bytes} {c : UInt8} (h : isBase64 c = true) (rest : Bytes) :
    decodeLoop (c :: rest).length group (c :: rest) =
      if (group ++ [c]).length = 4 then groupBytes (group ++ [c]) ++ decodeLoop rest.length [] rest
      else decodeLoop rest.length (group ++ [c]) rest := by
  have hlength : ((c :: rest).length : Int) ≠ 0 := by
    rw [List.length_cons]
    omega
  have hpad : c ≠ 61 := by
    rintro rfl
    simp [isBase64_pad] at h
  have hnext : ((c :: rest).length : Int) - 1 = rest.length := by
    rw [List.length_cons]
    omega
  have hguard : (((c :: rest).length : Int) ≠ 0 && c ≠ 61 && isBase64 c) = true := by
    rw [decide_eq_true hlength, decide_eq_true hpad, h]
    rfl
  rw [decodeLoop, if_pos hguard, hnext]

theorem decodeLoop_bits (encoded : Bytes) : ∀ group : Bytes, group.length < 4 → (∀ c ∈ group, isBase64 c = true) →
    string 8 ((decodeLoop encoded.length group encoded).map UInt8.toNat) =
      (string 6 (group.map (fun c => (index c).toNat) ++ letters encoded)).take
        (wholeBytes (group.length + (letters encoded).length)) := by
  induction encoded with
  | nil =>
    intro group hlength hgroup
    simpa [decodeLoop, letters] using lastGroup_bits (by omega) hgroup
  | cons c rest ih =>
    intro group hlength hgroup
    cases hc : isBase64 c with
    | false => simpa [decodeLoop, letters, hc] using lastGroup_bits (by omega) hgroup
    | true =>
      have hgroup' : ∀ d ∈ group ++ [c], isBase64 d = true := by simpa [hc, or_imp, forall_and] using hgroup
      have hletters : group.map (fun c => (index c).toNat) ++ letters (c :: rest) =
          (group ++ [c]).map (fun c => (index c).toNat) ++ letters rest := by
        simp [letters_cons hc]
      have hcount : group.length + (letters (c :: rest)).length = (group ++ [c]).length + (letters rest).length := by
        simp [letters_cons hc]
        omega
      rw [hletters, hcount]
      by_cases hfull : (group ++ [c]).length = 4
      · have hstep : decodeLoop (c :: rest).length group (c :: rest) =
            groupBytes (group ++ [c]) ++ decodeLoop rest.length [] rest := by
          rw [decodeLoop_cons hc, if_pos hfull]
        have hbits : string 8 ((groupBytes (group ++ [c])).map UInt8.toNat) =
            string 6 ((group ++ [c]).map fun c => (index c).toNat) := by
          have hgroup := groupBytes_bits (Nat.le_of_eq hfull) hgroup'
          rw [hfull, List.take_of_length_le (by simp [groupBytes, bytesOf])] at hgroup
          rw [hgroup, List.take_of_length_le (by simp [wholeBytes] at hfull ⊢; omega)]
        have hwhole : wholeBytes ((group ++ [c]).length + (letters rest).length) =
            (string 6 ((group ++ [c]).map fun c => (index c).toNat)).length + wholeBytes (letters rest).length := by
          rw [length_string, List.length_map, hfull, wholeBytes, wholeBytes]
          omega
        have hrest : string 8 ((decodeLoop rest.length [] rest).map UInt8.toNat) =
            (string 6 (letters rest)).take (wholeBytes (letters rest).length) := by
          simpa using ih [] (by simp) (by simp)
        rw [hstep, List.map_append, string_append, hbits, hrest, string_append, hwhole, List.take_length_add_append]
      · have hstep : decodeLoop (c :: rest).length group (c :: rest) = decodeLoop rest.length (group ++ [c]) rest := by
          rw [decodeLoop_cons hc, if_neg hfull]
        rw [hstep]
        exact ih (group ++ [c]) (by simp at hfull ⊢; omega) hgroup'

/-- A string whose size is an `int`. -/
theorem base64Decode_bits {encoded : Bytes} (hlength : encoded.length < 2 ^ 31) :
    string 8 ((base64Decode encoded).map UInt8.toNat) =
      (string 6 (letters encoded)).take (wholeBytes (letters encoded).length) := by
  have hinLen : Int.bmod encoded.length (2 ^ 32) = encoded.length := Int.bmod_eq_of_le (by omega) (by omega)
  rw [base64Decode, hinLen]
  simpa using decodeLoop_bits encoded [] (by simp) (by simp)

/-! ## Decoding what was encoded -/

theorem base64Char_letter : ∀ k < 64, isBase64 (base64Char (UInt8.ofNat k)) = true ∧
    (index (base64Char (UInt8.ofNat k))).toNat = k := by
  decide +kernel

/-- Characters of the alphabet, and what follows them. -/
theorem letters_append (ks : List Nat) (hks : ∀ k ∈ ks, k < 64) (rest : Bytes) :
    letters (ks.map (fun k => base64Char (UInt8.ofNat k)) ++ rest) = ks ++ letters rest := by
  induction ks with
  | nil => simp
  | cons k ks ih =>
    obtain ⟨hletter, hindex⟩ := base64Char_letter k (hks k (by simp))
    rw [List.map_cons, List.cons_append, letters_cons hletter, hindex, ih fun j hj => hks j (by simp [hj]), List.cons_append]

/-- How many bits fill up the last character. -/
def filling (n : Nat) : Nat := 2 * ((3 - n % 3) % 3)

theorem sextets_bits (a b c : UInt8) : string 6 (sextets a b c) = string 8 [a.toNat, b.toNat, c.toNat] := by
  have hb := b.toNat_lt
  have hc := c.toNat_lt
  exact spell_alike rfl (by omega) (by omega) (by omega) (by omega) hb hc

theorem base64Group_letters (a b c : UInt8) (n : Nat) (rest : Bytes) :
    letters ((base64Group a b c).take n ++ rest) = (sextets a b c).take n ++ letters rest := by
  rw [base64Group_eq, ← List.map_take]
  exact letters_append _ (fun k hk => sextets_lt a b c k (List.mem_of_mem_take hk)) rest

theorem letters_pad : letters (text "=") = [] ∧ letters (text "==") = [] := by decide

theorem encode_bits : ∀ bytes : Bytes,
    string 6 (letters (base64Encode bytes)) =
      string 8 (bytes.map UInt8.toNat) ++ List.replicate (filling bytes.length) false
  | a :: b :: c :: rest => by
    have hfilling : filling (a :: b :: c :: rest).length = filling rest.length := by
      simp only [filling, List.length_cons]
      omega
    have hgroup := base64Group_letters a b c 4 (base64Encode rest)
    rw [List.take_of_length_le (by simp [base64Group_length]), List.take_of_length_le (by simp [sextets])] at hgroup
    rw [base64Encode, hgroup, string_append, sextets_bits, encode_bits rest, hfilling]
    simp
  | [a, b] => by
    rw [base64Encode, base64Group_letters, string_append, string_take, sextets_bits, letters_pad.1]
    simp [List.take_append, filling]
  | [a] => by
    rw [base64Encode, base64Group_letters, string_append, string_take, sextets_bits, letters_pad.2]
    simp [List.take_append, filling]
  | [] => rfl

/-- **`base64_decode` is right about any string** whose size is an `int`: of the
bits that its characters stand for, six each up to the first that is not of
the alphabet, the whole bytes. **What was encoded is read back**, where it is
such a string: encoding spells the bits of the bytes, filled up with zeroes. -/
theorem base64_spells {encoded bytes : Bytes} (hencoded : encoded.length < 2 ^ 31)
    (hbytes : bytes.length ≤ 3 * (2 ^ 29 - 1)) :
    string 8 ((base64Decode encoded).map UInt8.toNat) =
        (string 6 (letters encoded)).take (wholeBytes (letters encoded).length) ∧
      string 6 (letters (base64Encode bytes)) =
        string 8 (bytes.map UInt8.toNat) ++ List.replicate (filling bytes.length) false ∧
      base64Decode (base64Encode bytes) = bytes := by
  refine ⟨base64Decode_bits hencoded, encode_bits bytes, ?_⟩
  have hlength : (base64Encode bytes).length < 2 ^ 31 := by
    rw [base64Encode_length]
    omega
  have hbits := base64Decode_bits hlength
  have hcount := congrArg List.length (encode_bits bytes)
  simp only [length_string, List.length_append, List.length_map, List.length_replicate] at hcount
  have hwhole : wholeBytes (letters (base64Encode bytes)).length = (string 8 (bytes.map UInt8.toNat)).length := by
    rw [wholeBytes, hcount, length_string, List.length_map, filling]
    omega
  rw [encode_bits, hwhole, List.take_left'] at hbits
  · have hsame := congrArg List.length hbits
    simp only [length_string] at hsame
    have hbytes : (base64Decode (base64Encode bytes)).map UInt8.toNat = bytes.map UInt8.toNat := by
      refine string_inj (by omega) ?_ ?_ hbits <;>
      · intro k hk
        obtain ⟨c, -, rfl⟩ := List.mem_map.mp hk
        exact c.toNat_lt
    exact (List.map_inj_right fun _ _ => UInt8.toNat_inj.mp).mp hbytes
  · rfl

/-- Six characters before the stray one, of which the last two are a byte and
four bits more; and two bytes, which are filled up with two bits. -/
theorem stray_spelled :
    string 8 ((base64Decode (text "TWFuTQ?TQ")).map UInt8.toNat) = string 8 [77, 97, 110, 77] ∧
      string 6 (letters (base64Encode (text "Ma"))) = string 8 [77, 97] ++ [false, false] ∧
      base64Decode (base64Encode (text "Ma")) = text "Ma" := by
  obtain ⟨hdecoded, hencoded, hback⟩ := @base64_spells (text "TWFuTQ?TQ") (text "Ma") (by decide) (by decide)
  refine ⟨hdecoded.trans ?_, hencoded, hback⟩
  decide

end AudioToolApi.Base64
