/-
The characters of UTF-8: what may follow a first byte is a list of ranges
(`tailRanges`, the switch of `lexer::scan_string`). The table of the
serializer's decoder says the same, state by state, so the decoder takes a
string exactly when it is made of such characters: `utf8_chars_iff`, where they
are those that Lean itself encodes.
-/
import AudioToolApi.Utilities.Utf8
import Mathlib.Data.List.Forall2

namespace AudioToolApi

/-- The ranges of the bytes that follow `c` in a character; `none` where no
character starts with it. -/
def tailRanges (c : Nat) : Option (List (Nat × Nat)) :=
  if c ≤ 0x7F then some []
  else if c < 0xC2 then none
  else if c ≤ 0xDF then some [(0x80, 0xBF)]
  else if c = 0xE0 then some [(0xA0, 0xBF), (0x80, 0xBF)]
  else if c = 0xED then some [(0x80, 0x9F), (0x80, 0xBF)]
  else if c ≤ 0xEF then some [(0x80, 0xBF), (0x80, 0xBF)]
  else if c = 0xF0 then some [(0x90, 0xBF), (0x80, 0xBF), (0x80, 0xBF)]
  else if c ≤ 0xF3 then some [(0x80, 0xBF), (0x80, 0xBF), (0x80, 0xBF)]
  else if c = 0xF4 then some [(0x80, 0x8F), (0x80, 0xBF), (0x80, 0xBF)]
  else none

def InRange (range : Nat × Nat) (c : UInt8) : Prop := range.1 ≤ c.toNat ∧ c.toNat ≤ range.2

instance (range : Nat × Nat) (c : UInt8) : Decidable (InRange range c) := inferInstanceAs (Decidable (_ ∧ _))

/-! ## The table of the decoder -/

/-- What is to come in a state; `none` where nothing helps any more. -/
def stateRanges (state : Nat) : Option (List (Nat × Nat)) :=
  if state = 0 then some []
  else if state = 2 then some [(0x80, 0xBF)]
  else if state = 3 then some [(0x80, 0xBF), (0x80, 0xBF)]
  else if state = 4 then some [(0xA0, 0xBF), (0x80, 0xBF)]
  else if state = 5 then some [(0x80, 0x9F), (0x80, 0xBF)]
  else if state = 6 then some [(0x90, 0xBF), (0x80, 0xBF), (0x80, 0xBF)]
  else if state = 7 then some [(0x80, 0xBF), (0x80, 0xBF), (0x80, 0xBF)]
  else if state = 8 then some [(0x80, 0x8F), (0x80, 0xBF), (0x80, 0xBF)]
  else none

theorem stateRanges_first (c : UInt8) : stateRanges (utf8Step utf8Accept c) = tailRanges c.toNat := by
  have hall : ∀ i : Fin 256, stateRanges (utf8Step utf8Accept (UInt8.ofFin i)) = tailRanges i.val := by decide +kernel
  exact hall c.toFin

theorem stateRanges_large {state : Nat} (h : 9 ≤ state) : stateRanges state = none := by
  unfold stateRanges
  simp (disch := omega) only [if_neg]

theorem stateRanges_cases {state : Nat} {ranges : List (Nat × Nat)} (h : stateRanges state = some ranges) :
    state < 9 ∧ (ranges = [] → state = utf8Accept) := by
  have hall : ∀ q : Fin 9, stateRanges q.val = some [] → q.val = utf8Accept := by decide
  have hlt : state < 9 := by
    by_contra hlarge
    simp [stateRanges_large (Nat.not_lt.mp hlarge)] at h
  refine ⟨hlt, ?_⟩
  rintro rfl
  exact hall ⟨state, hlt⟩ h

theorem stateRanges_next {state : Nat} {range : Nat × Nat} {ranges : List (Nat × Nat)}
    (h : stateRanges state = some (range :: ranges)) (c : UInt8) :
    stateRanges (utf8Step state c) = if InRange range c then some ranges else none := by
  have hall : ∀ q : Fin 9, ∀ i : Fin 256, ∀ r ∈ (stateRanges q.val).toList, ∀ first ∈ r.head?.toList,
      stateRanges (utf8Step q.val (UInt8.ofFin i)) = if InRange first (UInt8.ofFin i) then some r.tail else none := by
    decide +kernel
  have hq := (stateRanges_cases h).1
  exact hall ⟨state, hq⟩ c.toFin (range :: ranges) (by simp [h]) range (by simp)

theorem stateRanges_none_next {state : Nat} (h : stateRanges state = none) (c : UInt8) :
    stateRanges (utf8Step state c) = none := by
  have hall : ∀ q : Fin 9, stateRanges q.val = none → q.val = utf8Reject := by decide
  have hreject : utf8Step state c = utf8Reject := by
    by_cases hlt : state < 9
    · have hq : state = utf8Reject := hall ⟨state, hlt⟩ h
      rw [hq, utf8Step_reject]
    · have hrow : utf8Rows[state]? = none := List.getElem?_eq_none (Nat.not_lt.mp hlt)
      simp [utf8Step, hrow]
  rw [hreject]
  rfl

theorem stateRanges_none {s : Bytes} : ∀ {state : Nat}, stateRanges state = none → s.foldl utf8Step state ≠ utf8Accept := by
  induction s with
  | nil =>
    rintro state h rfl
    cases h
  | cons c s ih => exact fun h => ih (stateRanges_none_next h c)

/-- The rest of a character, and what follows it. -/
theorem foldl_utf8_iff {ranges : List (Nat × Nat)} : ∀ {state : Nat}, stateRanges state = some ranges → ∀ s : Bytes,
    (s.foldl utf8Step state = utf8Accept ↔ ∃ tail rest, s = tail ++ rest ∧ List.Forall₂ InRange ranges tail ∧ Utf8 rest) := by
  induction ranges with
  | nil =>
    intro state h s
    rw [(stateRanges_cases h).2 rfl]
    exact ⟨fun hs => ⟨[], s, rfl, .nil, hs⟩, by rintro ⟨_, rest, rfl, ⟨⟩, hrest⟩; exact hrest⟩
  | cons range ranges ih =>
    intro state h s
    cases s with
    | nil =>
      refine iff_of_false ?_ ?_
      · rintro rfl
        cases h
      · rintro ⟨tail, rest, hs, hranges, -⟩
        cases hranges
        simp at hs
    | cons c s =>
      have hnext := stateRanges_next h c
      rw [List.foldl_cons]
      by_cases hc : InRange range c
      · rw [if_pos hc] at hnext
        rw [ih hnext s]
        constructor
        · rintro ⟨tail, rest, rfl, hranges, hrest⟩
          exact ⟨c :: tail, rest, rfl, .cons hc hranges, hrest⟩
        · rintro ⟨tail, rest, hs, hranges, hrest⟩
          obtain ⟨d, tail', -, htail, rfl⟩ := List.forall₂_cons_left_iff.mp hranges
          cases hs
          exact ⟨tail', rest, rfl, htail, hrest⟩
      · rw [if_neg hc] at hnext
        refine iff_of_false (stateRanges_none hnext) ?_
        rintro ⟨tail, rest, hs, hranges, -⟩
        obtain ⟨d, tail', hd, -, rfl⟩ := List.forall₂_cons_left_iff.mp hranges
        cases hs
        exact hc hd

/-- A string that is not empty begins with a character. -/
theorem utf8_cons_iff (c : UInt8) (s : Bytes) : Utf8 (c :: s) ↔ ∃ ranges tail rest,
    tailRanges c.toNat = some ranges ∧ List.Forall₂ InRange ranges tail ∧ s = tail ++ rest ∧ Utf8 rest := by
  have hfirst := stateRanges_first c
  rw [Utf8, List.foldl_cons]
  cases hranges : tailRanges c.toNat with
  | none =>
    rw [hranges] at hfirst
    exact iff_of_false (stateRanges_none hfirst) (by simp)
  | some ranges =>
    rw [hranges] at hfirst
    rw [foldl_utf8_iff hfirst s]
    constructor
    · rintro ⟨tail, rest, hs, htail, hrest⟩
      exact ⟨ranges, tail, rest, rfl, htail, hs, hrest⟩
    · rintro ⟨_, tail, rest, ⟨⟩, htail, hs, hrest⟩
      exact ⟨tail, rest, hs, htail, hrest⟩

/-! ## Characters -/

/-- A code point, as `scan_string` writes it. -/
def codepointBytes (codepoint : Nat) : Bytes :=
  if codepoint < 0x80 then [UInt8.ofNat codepoint]
  else if codepoint ≤ 0x7FF then
    [UInt8.ofNat (0xC0 ||| (codepoint >>> 6)), UInt8.ofNat (0x80 ||| (codepoint &&& 0x3F))]
  else if codepoint ≤ 0xFFFF then
    [UInt8.ofNat (0xE0 ||| (codepoint >>> 12)), UInt8.ofNat (0x80 ||| ((codepoint >>> 6) &&& 0x3F)),
      UInt8.ofNat (0x80 ||| (codepoint &&& 0x3F))]
  else
    [UInt8.ofNat (0xF0 ||| (codepoint >>> 18)), UInt8.ofNat (0x80 ||| ((codepoint >>> 12) &&& 0x3F)),
      UInt8.ofNat (0x80 ||| ((codepoint >>> 6) &&& 0x3F)), UInt8.ofNat (0x80 ||| (codepoint &&& 0x3F))]

theorem or_high : (∀ n < 32, 0xC0 ||| n = n + 0xC0) ∧ (∀ n < 16, 0xE0 ||| n = n + 0xE0) ∧
    (∀ n < 8, 0xF0 ||| n = n + 0xF0) ∧ ∀ n < 64, 0x80 ||| n = n + 0x80 := by decide

theorem and_low (n : Nat) : n &&& 0x3F = n % 64 := Nat.and_two_pow_sub_one_eq_mod n 6

/-- The bytes that are written, as sums. -/
theorem codepointBytes_cases {v : Nat} (hv : v < 0x110000) :
    (v < 0x80 ∧ codepointBytes v = [UInt8.ofNat v]) ∨
    (0x80 ≤ v ∧ v ≤ 0x7FF ∧ codepointBytes v = [UInt8.ofNat (v / 64 + 0xC0), UInt8.ofNat (v % 64 + 0x80)]) ∨
    (0x7FF < v ∧ v ≤ 0xFFFF ∧ codepointBytes v =
      [UInt8.ofNat (v / 4096 + 0xE0), UInt8.ofNat (v / 64 % 64 + 0x80), UInt8.ofNat (v % 64 + 0x80)]) ∨
    (0xFFFF < v ∧ codepointBytes v =
      [UInt8.ofNat (v / 262144 + 0xF0), UInt8.ofNat (v / 4096 % 64 + 0x80), UInt8.ofNat (v / 64 % 64 + 0x80),
        UInt8.ofNat (v % 64 + 0x80)]) := by
  obtain ⟨h2, h3, h4, htail⟩ := or_high
  unfold codepointBytes
  simp only [and_low, Nat.shiftRight_eq_div_pow, Nat.reducePow]
  by_cases hone : v < 0x80
  · exact .inl ⟨hone, if_pos hone⟩
  by_cases htwo : v ≤ 0x7FF
  · refine .inr (.inl ⟨by omega, htwo, ?_⟩)
    rw [if_neg hone, if_pos htwo, h2 _ (by omega), htail _ (by omega)]
  by_cases hthree : v ≤ 0xFFFF
  · refine .inr (.inr (.inl ⟨by omega, hthree, ?_⟩))
    rw [if_neg hone, if_neg htwo, if_pos hthree, h3 _ (by omega), htail _ (by omega), htail _ (by omega)]
  · refine .inr (.inr (.inr ⟨by omega, ?_⟩))
    rw [if_neg hone, if_neg htwo, if_neg hthree, h4 _ (by omega), htail _ (by omega), htail _ (by omega),
      htail _ (by omega)]

/-- The code points that are characters. -/
def IsScalar (v : Nat) : Prop := v < 0xD800 ∨ 0xDFFF < v ∧ v < 0x110000

theorem IsScalar.lt {v : Nat} (h : IsScalar v) : v < 0x110000 := by
  unfold IsScalar at h
  omega

theorem isScalar_char (c : Char) : IsScalar c.toNat := c.valid

/-- Lean writes the same. -/
theorem utf8EncodeChar_eq (c : Char) : String.utf8EncodeChar c = codepointBytes c.toNat := by
  have hc : c.val.toNat = c.toNat := rfl
  have hlt := (isScalar_char c).lt
  unfold String.utf8EncodeChar
  simp only [hc]
  rcases codepointBytes_cases hlt with ⟨h, hb⟩ | ⟨h, h', hb⟩ | ⟨h, h', hb⟩ | ⟨h, hb⟩
  · rw [hb, if_pos (by omega)]
  · rw [hb, if_neg (by omega), if_pos (by omega), Nat.mod_eq_of_lt (by omega)]
  · rw [hb, if_neg (by omega), if_neg (by omega), if_pos (by omega), Nat.mod_eq_of_lt (by omega)]
  · rw [hb, if_neg (by omega), if_neg (by omega), if_neg (by omega), Nat.mod_eq_of_lt (by omega)]

/-! ## Characters and ranges -/

/-- What `tailRanges` gives. -/
theorem tailRanges_eq_some {c : Nat} {ranges : List (Nat × Nat)} : tailRanges c = some ranges ↔
    (c ≤ 0x7F ∧ ranges = []) ∨
    (0xC2 ≤ c ∧ c ≤ 0xDF ∧ ranges = [(0x80, 0xBF)]) ∨
    (0xE0 ≤ c ∧ c ≤ 0xEF ∧ ranges = [(if c = 0xE0 then 0xA0 else 0x80, if c = 0xED then 0x9F else 0xBF), (0x80, 0xBF)]) ∨
    (0xF0 ≤ c ∧ c ≤ 0xF4 ∧
      ranges = [(if c = 0xF0 then 0x90 else 0x80, if c = 0xF4 then 0x8F else 0xBF), (0x80, 0xBF), (0x80, 0xBF)]) := by
  unfold tailRanges
  grind

theorem ofNat_eq {n : Nat} {c : UInt8} (h : n = c.toNat) : UInt8.ofNat n = c := by
  rw [h, UInt8.ofNat_toNat]

/-- What is written for a character is a first byte and its ranges. -/
theorem codepointBytes_ranges {v : Nat} (hv : IsScalar v) : ∃ first tail ranges,
    codepointBytes v = first :: tail ∧ tailRanges first.toNat = some ranges ∧ List.Forall₂ InRange ranges tail := by
  have hlt := hv.lt
  unfold IsScalar at hv
  rcases codepointBytes_cases hlt with ⟨h, hb⟩ | ⟨h, h', hb⟩ | ⟨h, h', hb⟩ | ⟨h, hb⟩
  · refine ⟨_, _, _, hb, tailRanges_eq_some.mpr (.inl ⟨?_, rfl⟩), .nil⟩
    simp
    omega
  · refine ⟨_, _, _, hb, tailRanges_eq_some.mpr (.inr (.inl ⟨?_, ?_, rfl⟩)), .cons ?_ .nil⟩ <;> simp [InRange] <;> omega
  · refine ⟨_, _, _, hb, tailRanges_eq_some.mpr (.inr (.inr (.inl ⟨?_, ?_, rfl⟩))), .cons ?_ (.cons ?_ .nil)⟩ <;>
      simp [InRange] <;> grind
  · refine ⟨_, _, _, hb, tailRanges_eq_some.mpr (.inr (.inr (.inr ⟨?_, ?_, rfl⟩))), .cons ?_ (.cons ?_ (.cons ?_ .nil))⟩ <;>
      simp [InRange] <;> grind

/-- A first byte and its ranges are written for a character. -/
theorem exists_codepoint {c : UInt8} {tail : Bytes} {ranges : List (Nat × Nat)} (h : tailRanges c.toNat = some ranges)
    (htail : List.Forall₂ InRange ranges tail) : ∃ v, IsScalar v ∧ codepointBytes v = c :: tail := by
  unfold IsScalar
  rcases tailRanges_eq_some.mp h with ⟨hc, rfl⟩ | ⟨hc, hc', rfl⟩ | ⟨hc, hc', rfl⟩ | ⟨hc, hc', rfl⟩
  · cases htail
    refine ⟨c.toNat, by omega, ?_⟩
    rw [codepointBytes, if_pos (by omega), UInt8.ofNat_toNat]
  · obtain ⟨d, _, hd, ⟨⟩, rfl⟩ := List.forall₂_cons_left_iff.mp htail
    simp only [InRange] at hd
    obtain ⟨v, hv⟩ : ∃ v, v = (c.toNat - 0xC0) * 64 + (d.toNat - 0x80) := ⟨_, rfl⟩
    refine ⟨v, by omega, ?_⟩
    rcases codepointBytes_cases (v := v) (by omega) with ⟨_, hb⟩ | ⟨_, _, hb⟩ | ⟨_, _, hb⟩ | ⟨_, hb⟩
    · omega
    · rw [hb, List.cons.injEq, List.cons.injEq]
      exact ⟨ofNat_eq (by omega), ofNat_eq (by omega), rfl⟩
    · omega
    · omega
  · obtain ⟨d, _, hd, htail₁, rfl⟩ := List.forall₂_cons_left_iff.mp htail
    obtain ⟨e, _, he, ⟨⟩, rfl⟩ := List.forall₂_cons_left_iff.mp htail₁
    simp only [InRange] at hd he
    obtain ⟨v, hv⟩ : ∃ v, v = (c.toNat - 0xE0) * 4096 + (d.toNat - 0x80) * 64 + (e.toNat - 0x80) := ⟨_, rfl⟩
    have hd' : 0x80 ≤ d.toNat ∧ d.toNat ≤ 0xBF ∧ (c.toNat = 0xE0 → 0xA0 ≤ d.toNat) ∧ (c.toNat = 0xED → d.toNat ≤ 0x9F) := by
      grind
    refine ⟨v, by omega, ?_⟩
    rcases codepointBytes_cases (v := v) (by omega) with ⟨_, hb⟩ | ⟨_, _, hb⟩ | ⟨_, _, hb⟩ | ⟨_, hb⟩
    · omega
    · omega
    · rw [hb, List.cons.injEq, List.cons.injEq, List.cons.injEq]
      exact ⟨ofNat_eq (by omega), ofNat_eq (by omega), ofNat_eq (by omega), rfl⟩
    · omega
  · obtain ⟨d, _, hd, htail₁, rfl⟩ := List.forall₂_cons_left_iff.mp htail
    obtain ⟨e, _, he, htail₂, rfl⟩ := List.forall₂_cons_left_iff.mp htail₁
    obtain ⟨f, _, hf, ⟨⟩, rfl⟩ := List.forall₂_cons_left_iff.mp htail₂
    simp only [InRange] at hd he hf
    obtain ⟨v, hv⟩ : ∃ v, v =
      (c.toNat - 0xF0) * 262144 + (d.toNat - 0x80) * 4096 + (e.toNat - 0x80) * 64 + (f.toNat - 0x80) := ⟨_, rfl⟩
    have hd' : 0x80 ≤ d.toNat ∧ d.toNat ≤ 0xBF ∧ (c.toNat = 0xF0 → 0x90 ≤ d.toNat) ∧ (c.toNat = 0xF4 → d.toNat ≤ 0x8F) := by
      grind
    refine ⟨v, by omega, ?_⟩
    rcases codepointBytes_cases (v := v) (by omega) with ⟨_, hb⟩ | ⟨_, _, hb⟩ | ⟨_, _, hb⟩ | ⟨_, hb⟩
    · omega
    · omega
    · omega
    · rw [hb, List.cons.injEq, List.cons.injEq, List.cons.injEq, List.cons.injEq]
      exact ⟨ofNat_eq (by omega), ofNat_eq (by omega), ofNat_eq (by omega), ofNat_eq (by omega), rfl⟩

theorem exists_char {v : Nat} (hv : IsScalar v) : ∃ c : Char, c.toNat = v :=
  ⟨Char.ofNatAux v hv, UInt32.toNat_ofNatLT ..⟩

/-- What the decoder takes is what encodes a string of characters. -/
theorem utf8_chars_iff (s : Bytes) : Utf8 s ↔ ∃ cs : List Char, s = cs.flatMap String.utf8EncodeChar := by
  constructor
  · generalize hn : s.length = n
    induction n using Nat.strong_induction_on generalizing s with
    | _ n ih =>
      intro h
      cases s with
      | nil => exact ⟨[], rfl⟩
      | cons c s =>
        obtain ⟨ranges, tail, rest, hranges, htail, rfl, hrest⟩ := (utf8_cons_iff c s).mp h
        obtain ⟨v, hv, hbytes⟩ := exists_codepoint hranges htail
        obtain ⟨first, rfl⟩ := exists_char hv
        obtain ⟨cs, rfl⟩ := ih rest.length (by simp at hn; omega) rest rfl hrest
        exact ⟨first :: cs, by simp [utf8EncodeChar_eq, hbytes]⟩
  · rintro ⟨cs, rfl⟩
    induction cs with
    | nil => rfl
    | cons first cs ih =>
      obtain ⟨c, tail, ranges, hbytes, hranges, htail⟩ := codepointBytes_ranges (isScalar_char first)
      rw [List.flatMap_cons, utf8EncodeChar_eq, hbytes, List.cons_append]
      exact (utf8_cons_iff ..).mpr ⟨ranges, tail, _, hranges, htail, rfl, ih⟩

end AudioToolApi
