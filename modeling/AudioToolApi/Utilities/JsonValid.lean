/-
What `parse` returns is a value the program can hold (`parse_valid`):
integers that fit, strings that are UTF-8, whatever escapes they were written
with, and members by ascending key. So it can be written, and what is written
is read as the same value.
-/
import AudioToolApi.Utilities.JsonParsed

namespace AudioToolApi

/-- What `strtod` returns, `dump` writes as a number that it reads back. -/
def RereadsDoubles (strtod : Bytes → Option Double) : Prop :=
  ∀ digits x, strtod digits = some x → Lexer.isFloatLiteral x.digits = true ∧ strtod x.digits = some x

/-- The value of a token fits. -/
def Token.Fits (strtod : Bytes → Option Double) : Token → Prop
  | .valueString s => Utf8 s
  | .valueUnsigned n => n < 2 ^ 64
  | .valueInteger i => -2 ^ 63 ≤ i ∧ i < 2 ^ 64
  | .valueFloat (some x) => Lexer.isFloatLiteral x.digits = true ∧ strtod x.digits = some x
  | _ => True

namespace Lexer

variable {strtod : Bytes → Option Double} {l l' : Lexer}

/-! ## Strings -/

theorem hexValue_lt {c : UInt8} {d : Nat} (h : hexValue c = some d) : d < 16 := by
  unfold hexValue at h
  simp only [UInt8.le_iff_toNat_le, UInt8.reduceToNat] at h
  grind

theorem codepointLoop_le (factors : List Nat) : ∀ {codepoint v : Nat} {l : Lexer},
    codepointLoop codepoint factors l = (some v, l') → v ≤ codepoint + (factors.map fun f => 15 * 2 ^ f).sum := by
  induction factors with
  | nil =>
    intro codepoint v l h
    cases h
    simp
  | cons factor factors ih =>
    intro codepoint v l h
    rw [codepointLoop] at h
    split at h
    · split at h
      · rename_i hd
        have hle := ih h
        have hdigit := Nat.mul_le_mul_right (2 ^ factor) (Nat.le_of_lt_succ (hexValue_lt hd))
        rw [Nat.shiftLeft_eq] at hle
        rw [List.map_cons, List.sum_cons]
        omega
      · cases h
    · cases h

theorem getCodepoint_lt {v : Nat} (h : l.getCodepoint = (some v, l')) : v < 0x10000 :=
  Nat.lt_of_le_of_lt (codepointLoop_le _ h) (by decide)

theorem utf8_nil : Utf8 [] := rfl

/-- A code point is UTF-8, and leaves what follows as it is. -/
theorem utf8_codepoint {v : Nat} (hv : IsScalar v) {rest : Bytes} (hrest : Utf8 rest) : Utf8 (codepointBytes v ++ rest) := by
  obtain ⟨first, tail, ranges, hbytes, hranges, htail⟩ := codepointBytes_ranges hv
  rw [hbytes, List.cons_append]
  exact (utf8_cons_iff ..).mpr ⟨ranges, tail, rest, hranges, htail, rfl, hrest⟩

theorem utf8_codepointBytes {v : Nat} (hv : IsScalar v) : Utf8 (codepointBytes v) := by
  simpa using utf8_codepoint hv utf8_nil

/-- Two surrogates make a character. -/
theorem surrogates_scalar {high low : Nat} (hhigh : 0xD800 ≤ high ∧ high ≤ 0xDBFF) (hlow : 0xDC00 ≤ low ∧ low ≤ 0xDFFF) :
    IsScalar ((high <<< 10) + low - 0x35FDC00) := by
  rw [Nat.shiftLeft_eq]
  unfold IsScalar
  omega

theorem scanUnicode_utf8 {bytes : Bytes} (h : l.scanUnicode = (.ok bytes, l')) : Utf8 bytes := by
  unfold scanUnicode at h
  split at h
  · cases h
  · rename_i hfirst
    have hlt := getCodepoint_lt hfirst
    split at h
    · rename_i hhigh
      split at h
      · split at h
        · split at h
          · cases h
          · split at h
            · rename_i hlow
              rw [Prod.mk.injEq, Except.ok.injEq] at h
              rw [← h.1]
              exact utf8_codepointBytes (surrogates_scalar hhigh hlow)
            · cases h
        · cases h
      · cases h
    · split at h
      · cases h
      · cases h
        exact utf8_codepointBytes (by unfold IsScalar; omega)

theorem scanEscape_utf8 {bytes : Bytes} (h : l.scanEscape = (.ok bytes, l')) : Utf8 bytes := by
  unfold scanEscape at h
  split at h
  · repeat (split at h; · cases h; decide)
    split at h
    · exact scanUnicode_utf8 h
    · cases h
  · cases h

theorem nextByteInRange_forall {ranges : List (Nat × Nat)} : ∀ {bytes : Bytes} {l : Lexer},
    nextByteInRange ranges l = (some bytes, l') → List.Forall₂ InRange ranges bytes := by
  induction ranges with
  | nil =>
    intro bytes l h
    cases h
    exact .nil
  | cons range ranges ih =>
    intro bytes l h
    rw [nextByteInRange] at h
    split at h
    · split at h
      · rename_i hc
        split at h
        · rename_i hnext
          cases h
          exact .cons hc (ih hnext)
        · cases h
      · cases h
    · cases h

/-- The buffer stays UTF-8. -/
theorem scanString_fits {buffer : Bytes} {t : Token} (hbuffer : Utf8 buffer) (h : scanString buffer l = (t, l')) :
    t.Fits strtod := by
  fun_induction scanString buffer l with
  | case1 | case4 | case5 | case6 | case8 =>
    cases h
    trivial
  | case2 =>
    cases h
    exact hbuffer
  | case3 _ _ _ _ _ hescape _ _ ih => exact ih (hbuffer.append (scanEscape_utf8 hescape)) h
  | case7 _ _ c _ _ _ _ _ ranges hranges bytes _ hnext ih =>
    have hcharacter : Utf8 (c :: bytes) :=
      (utf8_cons_iff c bytes).mpr ⟨ranges, bytes, [], hranges, nextByteInRange_forall hnext, by simp, rfl⟩
    exact ih (hbuffer.append hcharacter) h

/-! ## Tokens -/

theorem numberToken_fits (hstrtod : RereadsDoubles strtod) (type : NumberType) (buffer : Bytes) :
    (numberToken strtod type buffer).Fits strtod := by
  have hfloat : (Token.valueFloat (strtod buffer)).Fits strtod := by
    cases hx : strtod buffer with
    | none => trivial
    | some x => exact hstrtod buffer x hx
  unfold numberToken
  split
  · split
    · assumption
    · exact hfloat
  · split
    · rename_i hle
      simp only [Token.Fits]
      omega
    · exact hfloat
  · exact hfloat

theorem numberLoop_fits (hstrtod : RereadsDoubles strtod) {s : NumberState} {type : NumberType} {buffer : Bytes} {t : Token}
    (h : numberLoop strtod s type buffer l = (t, l')) : t.Fits strtod := by
  fun_induction numberLoop strtod s type buffer l with
  | case1 | case5 =>
    cases h
    trivial
  | case2 | case4 =>
    cases h
    exact numberToken_fits hstrtod ..
  | case3 _ _ _ _ _ _ _ _ _ ih => exact ih h

theorem fits_of_isPlain {t : Token} (h : t.isPlain = true) : t.Fits strtod := by
  cases t <;> trivial

/-- Every token fits. -/
theorem scan_fits (hstrtod : RereadsDoubles strtod) (l : Lexer) : (l.scan strtod).1.Fits strtod :=
  scan_elim (P := fun r => r.1.Fits strtod) (fun _ => trivial) (fun _ _ hplain => fits_of_isPlain hplain)
    (fun _ literal _ hplain => fits_of_isPlain (scanLiteral_isPlain hplain literal _))
    (fun _ => scanString_fits utf8_nil rfl) fun _ _ => numberLoop_fits hstrtod rfl

end Lexer

/-! ## Values -/

variable {strtod : Bytes → Option Double}

theorem kept_valid (hstrtod : RereadsDoubles strtod) :
    Kept strtod (fun _ => True) (Token.Fits strtod) (Json.Valid strtod) fun _ => True where
  scan {l l' t} _ h := by
    have hfits := Lexer.scan_fits hstrtod l
    rw [h] at hfits
    exact ⟨trivial, hfits⟩
  null := .null
  bool := .bool
  unsigned ht := .int (by omega) (Int.ofNat_lt.mpr ht)
  integer ht := .int ht.1 ht.2
  float ht := .float ht.1 ht.2
  string := .string
  array := .array
  object hascending hmembers := .object hascending (fun m hm => (hmembers m hm).1) fun m hm => (hmembers m hm).2
  syntaxError _ _ := fun _ => trivial
  overflow _ := trivial

theorem scanFirst_fits (hstrtod : RereadsDoubles strtod) (l : Lexer) : (l.scanFirst strtod).1.Fits strtod := by
  unfold Lexer.scanFirst
  split
  · exact Lexer.scan_fits hstrtod _
  · trivial

theorem parse_valid (hstrtod : RereadsDoubles strtod) {input : Bytes} {j : Json}
    (h : Json.parse strtod input = .ok j) : j.Valid strtod := by
  have hkeeps := parse_keeps (kept_valid hstrtod) input trivial (scanFirst_fits hstrtod _)
  rw [h] at hkeeps
  exact hkeeps

/-- **What `parse` returns** is what the program can hold: each such value is
returned for what `dump` writes of it, and no other for any text. -/
theorem parse_returns_iff (hstrtod : RereadsDoubles strtod) (j : Json) :
    (∃ input, Json.parse strtod input = .ok j) ↔ j.Valid strtod := by
  constructor
  · rintro ⟨input, h⟩
    exact parse_valid hstrtod h
  · intro hj
    obtain ⟨t, hdump, hread⟩ := rereads_value hj
    exact ⟨t, parse_of_rereads hdump hread⟩

theorem oneHalf_returned : (∃ input, Json.parse readOneHalf input = .ok (.float oneHalf)) ↔
    (Json.float oneHalf).Valid readOneHalf := by
  refine parse_returns_iff (fun digits x h => ?_) _
  unfold readOneHalf at h
  split at h
  · cases h
    exact ⟨by decide, if_pos rfl⟩
  · cases h

end AudioToolApi
