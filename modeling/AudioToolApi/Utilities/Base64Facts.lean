/-
`base64_encode` is one to one on inputs of one length: each group of four
characters gives back the three bytes that it was made of.
-/
import AudioToolApi.Utilities.Base64

namespace AudioToolApi

/-! ## One character -/

/-- The characters that `base64_encode` writes. -/
def isEncoded (c : UInt8) : Bool := base64Chars.contains c || c = 61

/-- Where a character is in the alphabet. -/
theorem base64Char_index : ∀ k < 64, base64Chars.idxOf (base64Char (UInt8.ofNat k)) = k := by
  decide

theorem base64Char_isEncoded : ∀ k < 64, isEncoded (base64Char (UInt8.ofNat k)) = true := by
  decide

/-! ## One group -/

/-- What the masks and shifts take of a byte. -/
theorem byte_bits (c : UInt8) :
    (c &&& 0xfc) >>> 2 = UInt8.ofNat (c.toNat / 4) ∧ (c &&& 0x03) <<< 4 = UInt8.ofNat (c.toNat % 4 * 16) ∧
      (c &&& 0xf0) >>> 4 = UInt8.ofNat (c.toNat / 16) ∧ (c &&& 0x0f) <<< 2 = UInt8.ofNat (c.toNat % 16 * 4) ∧
        (c &&& 0xc0) >>> 6 = UInt8.ofNat (c.toNat / 64) ∧ c &&& 0x3f = UInt8.ofNat (c.toNat % 64) := by
  have hall : ∀ i : Fin 256, (UInt8.ofFin i &&& 0xfc) >>> 2 = UInt8.ofNat (i.val / 4) ∧
      (UInt8.ofFin i &&& 0x03) <<< 4 = UInt8.ofNat (i.val % 4 * 16) ∧
      (UInt8.ofFin i &&& 0xf0) >>> 4 = UInt8.ofNat (i.val / 16) ∧
      (UInt8.ofFin i &&& 0x0f) <<< 2 = UInt8.ofNat (i.val % 16 * 4) ∧
      (UInt8.ofFin i &&& 0xc0) >>> 6 = UInt8.ofNat (i.val / 64) ∧
      UInt8.ofFin i &&& 0x3f = UInt8.ofNat (i.val % 64) := by
    decide +kernel
  exact hall c.toFin

/-- The four numbers below 64 that three bytes make. -/
def sextets (a b c : UInt8) : List Nat :=
  [a.toNat / 4, a.toNat % 4 * 16 + b.toNat / 16, b.toNat % 16 * 4 + c.toNat / 64, c.toNat % 64]

theorem sextets_lt (a b c : UInt8) : ∀ k ∈ sextets a b c, k < 64 := by
  have ha := a.toNat_lt
  have hb := b.toNat_lt
  have hc := c.toNat_lt
  intro k hk
  simp only [sextets, List.mem_cons, List.not_mem_nil, or_false] at hk
  omega

theorem base64Group_eq (a b c : UInt8) :
    base64Group a b c = (sextets a b c).map fun k => base64Char (UInt8.ofNat k) := by
  obtain ⟨ha, ha', -⟩ := byte_bits a
  obtain ⟨-, -, hb, hb', -⟩ := byte_bits b
  obtain ⟨-, -, -, -, hc, hc'⟩ := byte_bits c
  rw [base64Group, ha, ha', hb, hb', hc, hc', ← UInt8.ofNat_add, ← UInt8.ofNat_add]
  rfl

theorem base64Group_isEncoded (a b c : UInt8) : ∀ d ∈ base64Group a b c, isEncoded d = true := by
  rw [base64Group_eq]
  intro d hd
  obtain ⟨k, hk, rfl⟩ := List.mem_map.mp hd
  exact base64Char_isEncoded k (sextets_lt a b c k hk)

theorem base64Group_index (a b c : UInt8) : (base64Group a b c).map base64Chars.idxOf = sextets a b c := by
  rw [base64Group_eq, List.map_map]
  exact (List.map_congr_left fun k hk => base64Char_index k (sextets_lt a b c k hk)).trans (List.map_id _)

/-- Two characters of a group tell its first byte, three its second, four its
third. -/
theorem base64Group_take {a b c a' b' c' : UInt8} {n : Nat}
    (h : (base64Group a b c).take n = (base64Group a' b' c').take n) :
    (2 ≤ n → a = a') ∧ (3 ≤ n → b = b') ∧ (4 ≤ n → c = c') := by
  have hindex : (sextets a b c).take n = (sextets a' b' c').take n := by
    rw [← base64Group_index, ← base64Group_index, ← List.map_take, ← List.map_take, h]
  have hat (k : Nat) (hk : k < n) : (sextets a b c)[k]? = (sextets a' b' c')[k]? := by
    rw [← List.getElem?_take_of_lt hk, hindex, List.getElem?_take_of_lt hk]
  have hb := b.toNat_lt
  have hc := c.toNat_lt
  have hb' := b'.toNat_lt
  have hc' := c'.toNat_lt
  refine ⟨fun hn => ?_, fun hn => ?_, fun hn => ?_⟩ <;> refine UInt8.toNat_inj.mp ?_
  · have h0 : a.toNat / 4 = a'.toNat / 4 := Option.some.inj (hat 0 (by omega))
    have h1 : a.toNat % 4 * 16 + b.toNat / 16 = a'.toNat % 4 * 16 + b'.toNat / 16 := Option.some.inj (hat 1 (by omega))
    omega
  · have h1 : a.toNat % 4 * 16 + b.toNat / 16 = a'.toNat % 4 * 16 + b'.toNat / 16 := Option.some.inj (hat 1 (by omega))
    have h2 : b.toNat % 16 * 4 + c.toNat / 64 = b'.toNat % 16 * 4 + c'.toNat / 64 := Option.some.inj (hat 2 (by omega))
    omega
  · have h2 : b.toNat % 16 * 4 + c.toNat / 64 = b'.toNat % 16 * 4 + c'.toNat / 64 := Option.some.inj (hat 2 (by omega))
    have h3 : c.toNat % 64 = c'.toNat % 64 := Option.some.inj (hat 3 (by omega))
    omega

/-! ## The whole input -/

theorem base64Group_length (a b c : UInt8) : (base64Group a b c).length = 4 := rfl

theorem padding_isEncoded : (∀ c ∈ text "=", isEncoded c = true) ∧ ∀ c ∈ text "==", isEncoded c = true := by
  decide +kernel

theorem base64Encode_isEncoded : ∀ bytes, ∀ c ∈ base64Encode bytes, isEncoded c = true
  | a :: b :: c :: rest => by
    intro d hd
    rcases List.mem_append.mp hd with hd | hd
    · exact base64Group_isEncoded a b c d hd
    · exact base64Encode_isEncoded rest d hd
  | [a, b] => by
    intro d hd
    rcases List.mem_append.mp hd with hd | hd
    · exact base64Group_isEncoded a b 0 d (List.mem_of_mem_take hd)
    · exact padding_isEncoded.1 d hd
  | [a] => by
    intro d hd
    rcases List.mem_append.mp hd with hd | hd
    · exact base64Group_isEncoded a 0 0 d (List.mem_of_mem_take hd)
    · exact padding_isEncoded.2 d hd
  | [] => fun _ hd => absurd hd List.not_mem_nil

/-- Four characters for each three bytes. -/
theorem base64Encode_length : ∀ bytes, (base64Encode bytes).length = 4 * ((bytes.length + 2) / 3)
  | a :: b :: c :: rest => by
    rw [base64Encode, List.length_append, base64Group_length, base64Encode_length rest]
    simp only [List.length_cons]
    omega
  | [a, b] => by
    have hpad : (text "=").length = 1 := by decide
    simp [base64Encode, base64Group_length, hpad]
  | [a] => by
    have hpad : (text "==").length = 2 := by decide
    simp [base64Encode, base64Group_length, hpad]
  | [] => rfl

theorem base64Encode_inj : ∀ {xs ys : Bytes}, xs.length = ys.length → base64Encode xs = base64Encode ys → xs = ys
  | a :: b :: c :: xs, a' :: b' :: c' :: ys, hlen, h => by
    obtain ⟨hgroup, hrest⟩ := List.append_inj h (by rw [base64Group_length, base64Group_length])
    obtain ⟨ha, hb, hc⟩ := base64Group_take (congrArg (List.take 4) hgroup)
    rw [ha (by omega), hb (by omega), hc (by omega), base64Encode_inj (by simpa using hlen) hrest]
  | [a, b], [a', b'], _, h => by
    obtain ⟨ha, hb, -⟩ := base64Group_take (List.append_cancel_right h)
    rw [ha (by omega), hb (by omega)]
  | [a], [a'], _, h => by
    obtain ⟨ha, -⟩ := base64Group_take (List.append_cancel_right h)
    rw [ha (by omega)]
  | [], [], _, _ => rfl

end AudioToolApi
