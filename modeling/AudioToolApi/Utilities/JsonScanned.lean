/-
Strings and tokens, and the grammar: a token is scanned if and only if its text is
next (after whitespace), a number as far as it goes.
-/
import AudioToolApi.Utilities.JsonNumbers
import AudioToolApi.Utilities.JsonValid

namespace AudioToolApi

open Grammar

namespace Lexer

variable {strtod : Bytes → Option Double} {l l' : Lexer} {rest : Bytes}

/-! ## Strings -/

theorem fourDigits_eq (d₁ d₂ d₃ d₄ : Nat) :
    0 + d₁ <<< 12 + d₂ <<< 8 + d₃ <<< 4 + d₄ <<< 0 = d₁ * 16 ^ 3 + d₂ * 16 ^ 2 + d₃ * 16 + d₄ := by
  simp only [Nat.shiftLeft_eq]
  omega

theorem getCodepoint_sound {v : Nat} (h : l.getCodepoint = (some v, l')) :
    ∃ t, FourHex t v ∧ l.rest = t ++ l'.rest := by
  have hdigit : ∀ {n factor : Nat} {factors : List Nat} {l : Lexer},
      codepointLoop n (factor :: factors) l = (some v, l') → ∃ c d l₁, l.rest = c :: l₁.rest ∧ hexValue c = some d ∧
        codepointLoop (n + (d <<< factor)) factors l₁ = (some v, l') := by
    intro n factor factors l h
    rw [codepointLoop] at h
    split at h
    · rename_i c l₁ hget
      split at h
      · rename_i d hd
        exact ⟨c, d, l₁, (get_some hget).1, hd, h⟩
      · cases h
    · cases h
  obtain ⟨c₁, d₁, l₁, hrest₁, hd₁, h⟩ := hdigit h
  obtain ⟨c₂, d₂, l₂, hrest₂, hd₂, h⟩ := hdigit h
  obtain ⟨c₃, d₃, l₃, hrest₃, hd₃, h⟩ := hdigit h
  obtain ⟨c₄, d₄, l₄, hrest₄, hd₄, h⟩ := hdigit h
  cases h
  refine ⟨[c₁, c₂, c₃, c₄], ?_, by simp [hrest₁, hrest₂, hrest₃, hrest₄]⟩
  rw [fourDigits_eq]
  exact .digits hd₁ hd₂ hd₃ hd₄

theorem getCodepoint_of {t : Bytes} {v : Nat} (ht : FourHex t v) (h : l.rest = t ++ rest) :
    ∃ l', l.getCodepoint = (some v, l') ∧ l'.rest = rest := by
  obtain ⟨h₁, h₂, h₃, h₄⟩ := ht
  rename_i d₁ d₂ d₃ d₄
  obtain ⟨l₁, hloop₁, hrest₁⟩ := codepointLoop_digit h h₁ 0 12 [8, 4, 0]
  obtain ⟨l₂, hloop₂, hrest₂⟩ := codepointLoop_digit hrest₁ h₂ (0 + (d₁ <<< 12)) 8 [4, 0]
  obtain ⟨l₃, hloop₃, hrest₃⟩ := codepointLoop_digit hrest₂ h₃ (0 + (d₁ <<< 12) + (d₂ <<< 8)) 4 [0]
  obtain ⟨l₄, hloop₄, hrest₄⟩ := codepointLoop_digit hrest₃ h₄ (0 + (d₁ <<< 12) + (d₂ <<< 8) + (d₃ <<< 4)) 0 []
  exact ⟨l₄, by rw [getCodepoint, hloop₁, hloop₂, hloop₃, hloop₄, codepointLoop, fourDigits_eq], hrest₄⟩

theorem surrogates_eq {high low : Nat} (hhigh : 0xD800 ≤ high) (hlow : 0xDC00 ≤ low) :
    (high <<< 10) + low - 0x35FDC00 = 0x10000 + (high - 0xD800) * 0x400 + (low - 0xDC00) := by
  rw [Nat.shiftLeft_eq]
  omega

theorem scanUnicode_sound {bytes : Bytes} (h : l.scanUnicode = (.ok bytes, l')) :
    ∃ t, Escape (117 :: t) bytes ∧ l.rest = t ++ l'.rest := by
  unfold scanUnicode at h
  split at h
  · cases h
  · rename_i hfirst
    obtain ⟨t, ht, hrest⟩ := getCodepoint_sound hfirst
    have hlt := getCodepoint_lt hfirst
    split at h
    · rename_i hhigh
      split at h
      · rename_i hslash
        split at h
        · rename_i hu
          split at h
          · cases h
          · rename_i hsecond
            obtain ⟨t', ht', hrest'⟩ := getCodepoint_sound hsecond
            split at h
            · rename_i hlow
              rw [Prod.mk.injEq, Except.ok.injEq] at h
              obtain ⟨rfl, rfl⟩ := h
              refine ⟨t ++ 92 :: 117 :: t', ?_, by simp [hrest, (get_some hslash).1, (get_some hu).1, hrest']⟩
              rw [surrogates_eq hhigh.1 hlow.1]
              exact .surrogates ht hhigh ht' hlow
            · cases h
        · cases h
      · cases h
    · split at h
      · cases h
      · cases h
        exact ⟨t, .unicode ht (by unfold IsScalar; omega), hrest⟩

theorem scanEscape_sound {bytes : Bytes} (h : l.scanEscape = (.ok bytes, l')) :
    ∃ e, Escape e bytes ∧ l.rest = e ++ l'.rest := by
  unfold scanEscape at h
  split at h
  · rename_i c l₁ hget
    have hrest := (get_some hget).1
    have hshort {b : UInt8} (hc : (c, b) ∈ [((34 : UInt8), (34 : UInt8)), (92, 92), (47, 47), (98, 8), (102, 12), (110, 10),
        (114, 13), (116, 9)]) (h : (Except.ok [b], l₁) = ((.ok bytes, l') : Except Bytes Bytes × Lexer)) :
        ∃ e, Escape e bytes ∧ l.rest = e ++ l'.rest := by
      cases h
      exact ⟨[c], .short hc, hrest⟩
    repeat (split at h; · exact hshort (by simp [*]) h)
    split at h
    · rename_i hu
      obtain ⟨t, ht, hrest'⟩ := scanUnicode_sound h
      exact ⟨117 :: t, ht, by rw [hrest, hrest', hu]; rfl⟩
    · cases h
  · cases h

theorem scanEscape_of {e bytes : Bytes} (he : Escape e bytes) (h : l.rest = e ++ rest) :
    ∃ l', l.scanEscape = (.ok bytes, l') ∧ l'.rest = rest := by
  cases he with
  | short hc =>
    obtain ⟨l₁, hget, hrest⟩ := get_cons h
    refine ⟨l₁, ?_, hrest⟩
    simp only [List.mem_cons, Prod.mk.injEq, List.not_mem_nil, or_false] at hc
    rw [scanEscape, hget]
    rcases hc with ⟨rfl, rfl⟩ | ⟨rfl, rfl⟩ | ⟨rfl, rfl⟩ | ⟨rfl, rfl⟩ | ⟨rfl, rfl⟩ | ⟨rfl, rfl⟩ | ⟨rfl, rfl⟩ | ⟨rfl, rfl⟩ <;>
      rfl
  | @unicode t v ht hv =>
    obtain ⟨l₁, hget, hrest₁⟩ := get_cons h
    obtain ⟨l₂, hcodepoint, hrest₂⟩ := getCodepoint_of ht hrest₁
    refine ⟨l₂, ?_, hrest₂⟩
    unfold IsScalar at hv
    have hunicode : l₁.scanUnicode = (.ok (codepointBytes v), l₂) := by
      rw [scanUnicode, hcodepoint]
      dsimp only
      rw [if_neg (by omega), if_neg (by omega)]
    rw [scanEscape, hget]
    exact hunicode
  | @surrogates _ _ high low ht hhigh ht' hlow =>
    rw [List.cons_append, List.append_assoc] at h
    obtain ⟨l₁, hget₁, hrest₁⟩ := get_cons h
    obtain ⟨l₂, hfirst, hrest₂⟩ := getCodepoint_of ht hrest₁
    obtain ⟨l₃, hslash, hrest₃⟩ := get_cons hrest₂
    obtain ⟨l₄, hu, hrest₄⟩ := get_cons hrest₃
    obtain ⟨l₅, hsecond, hrest₅⟩ := getCodepoint_of ht' hrest₄
    refine ⟨l₅, ?_, hrest₅⟩
    have hunicode : l₁.scanUnicode = (.ok (codepointBytes (0x10000 + (high - 0xD800) * 0x400 + (low - 0xDC00))), l₅) := by
      rw [scanUnicode, hfirst]
      simp only [if_pos hhigh, hslash, hu, hsecond, if_pos hlow, surrogates_eq hhigh.1 hlow.1]
    rw [scanEscape, hget₁]
    exact hunicode

/-- A character that stands for itself. -/
theorem codepoint_plain {v : Nat} {c : UInt8} {tail : Bytes} (hv : codepointBytes v = c :: tail) (hscalar : IsScalar v) :
    (0x20 ≤ v ∧ v ≠ 34 ∧ v ≠ 92) ↔ c ≠ 34 ∧ c ≠ 92 ∧ ¬ c ≤ 0x1F := by
  have hlt := hscalar.lt
  simp only [UInt8.le_iff_toNat_le, ne_eq, ← UInt8.toNat_inj, UInt8.reduceToNat]
  rcases codepointBytes_cases hlt with ⟨h, hb⟩ | ⟨h, h', hb⟩ | ⟨h, h', hb⟩ | ⟨h, hb⟩ <;>
    obtain ⟨rfl, -⟩ := List.cons.inj (hv.symm.trans hb) <;> simp only [UInt8.toNat_ofNat'] <;> omega

theorem nextByteInRange_rest (ranges : List (Nat × Nat)) : ∀ {bytes : Bytes} {l : Lexer},
    nextByteInRange ranges l = (some bytes, l') → l.rest = bytes ++ l'.rest := by
  induction ranges with
  | nil =>
    intro bytes l h
    cases h
    rfl
  | cons range ranges ih =>
    intro bytes l h
    rw [nextByteInRange] at h
    split at h
    · rename_i hget
      split at h
      · split at h
        · rename_i hnext
          cases h
          rw [(get_some hget).1, ih hnext]
          rfl
        · cases h
      · cases h
    · cases h

theorem scanString_sound {buffer : Bytes} {token : Token} (h : scanString buffer l = (token, l')) :
    (∃ message, token = .parseError message) ∨
      ∃ t added, token = .valueString (buffer ++ added) ∧ Chars t added ∧ l.rest = t ++ 34 :: l'.rest := by
  fun_induction scanString buffer l with
  | case1 | case4 | case5 | case6 | case8 =>
    cases h
    exact .inl ⟨_, rfl⟩
  | case2 _ _ _ hget =>
    cases h
    exact .inr ⟨[], [], by simp, .nil, (get_some hget).1⟩
  | case3 buffer l l₁ bytes l₂ hescape hget _ ih =>
    obtain ⟨e, he, hrest₁⟩ := scanEscape_sound hescape
    rcases ih h with herror | ⟨t, added, htoken, ht, hrest₂⟩
    · exact .inl herror
    refine .inr ⟨92 :: (e ++ t), bytes ++ added, by simp [htoken], .escape he ht, ?_⟩
    simp [(get_some hget).1, hrest₁, hrest₂]
  | case7 buffer l c l₁ hget hquote hslash hcontrol ranges hranges bytes l₂ hnext ih =>
    have htail := nextByteInRange_forall hnext
    have hrest₁ : l₁.rest = bytes ++ l₂.rest := nextByteInRange_rest ranges hnext
    obtain ⟨v, hv, hbytes⟩ := exists_codepoint hranges htail
    obtain ⟨hspace, hquote, hslash⟩ := (codepoint_plain hbytes hv).mpr ⟨hquote, hslash, hcontrol⟩
    rcases ih h with herror | ⟨t, added, htoken, ht, hrest₂⟩
    · exact .inl herror
    refine .inr ⟨codepointBytes v ++ t, codepointBytes v ++ added, by simp [htoken, hbytes],
      .char hv hspace hquote hslash ht, ?_⟩
    simp [(get_some hget).1, hbytes, hrest₁, hrest₂]

theorem scanString_of {t s : Bytes} (hs : Chars t s) (buffer : Bytes) (h : l.rest = t ++ 34 :: rest) :
    ∃ l', scanString buffer l = (.valueString (buffer ++ s), l') ∧ l'.rest = rest := by
  induction hs generalizing buffer l with
  | nil =>
    obtain ⟨l', hget, hrest⟩ := get_cons h
    exact ⟨l', by rw [scanString_quote hget, List.append_nil], hrest⟩
  | @char v t s hv hspace hquote hslash _ ih =>
    obtain ⟨c, tail, ranges, hbytes, hranges, htail⟩ := codepointBytes_ranges hv
    rw [hbytes, List.append_assoc, List.cons_append] at h
    obtain ⟨l₁, hget, hrest₁⟩ := get_cons h
    obtain ⟨l₂, hnext, hrest₂⟩ := nextByteInRange_tail htail hrest₁
    obtain ⟨l₃, hscan, hrest₃⟩ := ih (buffer ++ codepointBytes v) hrest₂
    have hplain := (codepoint_plain hbytes hv).mp ⟨hspace, hquote, hslash⟩
    exact ⟨l₃, by rw [scanString_char hget hplain hranges hnext, ← hbytes, hscan, List.append_assoc], hrest₃⟩
  | @escape e b t s he _ ih =>
    rw [List.cons_append, List.append_assoc] at h
    obtain ⟨l₁, hget, hrest₁⟩ := get_cons h
    obtain ⟨l₂, hescape, hrest₂⟩ := scanEscape_of he hrest₁
    obtain ⟨l₃, hscan, hrest₃⟩ := ih (buffer ++ b) hrest₂
    exact ⟨l₃, by rw [scanString_escape hget hescape, hscan, List.append_assoc], hrest₃⟩

/-! ## Tokens -/

/-- The characters that are tokens. -/
def structuralTokens : List (UInt8 × Token) :=
  [(91, .beginArray), (93, .endArray), (123, .beginObject), (125, .endObject), (58, .nameSeparator), (44, .valueSeparator)]

/-- What a token takes off an input, and what it leaves. -/
inductive Scanned (strtod : Bytes → Option Double) : Bytes → Token → Bytes → Prop
  | error {input rest message : Bytes} : Scanned strtod input (.parseError message) rest
  | overflow {input rest : Bytes} : Scanned strtod input (.valueFloat none) rest
  | endOfInput {input rest : Bytes} : input = [] ∨ input.head? = some 0 → Scanned strtod input .endOfInput rest
  | structural {c : UInt8} {token : Token} {rest : Bytes} : (c, token) ∈ structuralTokens → Scanned strtod (c :: rest) token rest
  | string {t s rest : Bytes} : Chars t s → Scanned strtod (34 :: t ++ 34 :: rest) (.valueString s) rest
  | value {t rest : Bytes} {token : Token} {j : Json} : token.value = some j → Value strtod t j →
    Scanned strtod (t ++ rest) token rest

theorem skipSpaces_sound {r : Option UInt8} (h : l.skipSpaces = (r, l')) :
    ∃ w, Spaces w ∧ l.rest = w ++ r.toList ++ l'.rest ∧ (r = none → l'.rest = []) := by
  fun_induction skipSpaces l with
  | case1 l l₁ hget =>
    cases h
    obtain ⟨hrest, hrest', -⟩ := get_none hget
    exact ⟨[], by simp [Spaces], by simp [hrest, hrest'], fun _ => hrest'⟩
  | case2 l c l₁ hget hspace ih =>
    obtain ⟨w, hw, hrest, hnone⟩ := ih h
    have hc : c ∈ [(32 : UInt8), 9, 10, 13] := by simpa [isSpace, or_assoc] using hspace
    exact ⟨c :: w, List.forall_mem_cons.mpr ⟨hc, hw⟩, by simp [(get_some hget).1, hrest], hnone⟩
  | case3 l c l₁ hget =>
    cases h
    exact ⟨[], by simp [Spaces], (get_some hget).1, fun h => by cases h⟩

theorem scanLiteral_sound {token t : Token} (literal : Bytes) : ∀ {l : Lexer}, scanLiteral token literal l = (t, l') →
    (∃ message, t = .parseError message) ∨ t = token ∧ l.rest = literal ++ l'.rest := by
  induction literal with
  | nil =>
    intro l h
    cases h
    exact .inr ⟨rfl, rfl⟩
  | cons c literal ih =>
    intro l h
    rw [scanLiteral] at h
    split at h
    rename_i current l₁ hget
    split at h
    · rename_i hc
      subst hc
      rcases ih h with herror | ⟨ht, hrest⟩
      · exact .inl herror
      refine .inr ⟨ht, ?_⟩
      rw [(get_some hget).1, hrest]
      rfl
    · cases h
      exact .inl ⟨_, rfl⟩

theorem numberToken_scanned {sign unsigned : Bytes} (hsign : sign ∈ [[], [(45 : UInt8)]])
    (hunsigned : Unsigned (if sign = [] then .unsigned else .integer) unsigned out) :
    Scanned strtod (sign ++ unsigned ++ rest) (numberToken strtod out (sign ++ unsigned)) rest := by
  cases hvalue : (numberToken strtod out (sign ++ unsigned)).value with
  | some j => exact .value hvalue (.number (number_iff.mpr ⟨sign, unsigned, out, rfl, hsign, hunsigned, hvalue⟩))
  | none =>
    have hoverflow : numberToken strtod out (sign ++ unsigned) = .valueFloat none := by
      revert hvalue
      unfold numberToken
      have hfloat : (Token.valueFloat (strtod (sign ++ unsigned))).value = none →
          Token.valueFloat (strtod (sign ++ unsigned)) = .valueFloat none := by
        cases strtod (sign ++ unsigned) <;> simp [Token.value]
      split
      · split
        · exact fun h => by cases h
        · exact hfloat
      · split
        · exact fun h => by cases h
        · exact hfloat
      · exact hfloat
    rw [hoverflow]
    exact .overflow

theorem scanNumber_sound {token : Token} (hc : c = 45 ∨ Digit c) (h : scanNumber strtod c l = (token, l')) :
    Scanned strtod (c :: l.rest) token l'.rest := by
  rcases numberLoop_sound h with ⟨message, rfl⟩ | ⟨t, out, hfinishes, rfl, hrest⟩
  · exact .error
  · obtain ⟨sign, unsigned, hsplit, hsign, hunsigned⟩ := (finishes_start hc).mp hfinishes
    rw [hrest, ← List.cons_append, List.singleton_append, hsplit]
    exact numberToken_scanned hsign hunsigned

/-- **What is scanned** is what comes after the whitespace. -/
theorem scan_sound (strtod : Bytes → Option Double) (l : Lexer) :
    ∃ w input, Spaces w ∧ l.rest = w ++ input ∧ Scanned strtod input (l.scan strtod).1 (l.scan strtod).2.rest := by
  unfold scan
  split
  · rename_i hskip
    obtain ⟨w, hw, hrest, hnone⟩ := skipSpaces_sound hskip
    exact ⟨w, [], hw, by simpa [hnone rfl] using hrest, .endOfInput (.inl rfl)⟩
  rename_i c l₁ hskip
  obtain ⟨w, hw, hrest, -⟩ := skipSpaces_sound hskip
  refine ⟨w, c :: l₁.rest, hw, by simpa using hrest, ?_⟩
  have hliteral {token : Token} {j : Json} {literal : Bytes} (hvalue : token.value = some j)
      (hj : Value strtod (c :: literal) j) :
      Scanned strtod (c :: l₁.rest) (scanLiteral token literal l₁).1 (scanLiteral token literal l₁).2.rest := by
    rcases h : scanLiteral token literal l₁ with ⟨t, l₂⟩
    rcases scanLiteral_sound literal h with ⟨message, rfl⟩ | ⟨rfl, hrest⟩
    · exact .error
    · rw [hrest, ← List.cons_append]
      exact .value hvalue hj
  have hstring (hc : c = 34) :
      Scanned strtod (c :: l₁.rest) (scanString [] (l₁.reset c)).1 (scanString [] (l₁.reset c)).2.rest := by
    subst hc
    rcases h : scanString [] (l₁.reset 34) with ⟨t, l₂⟩
    rcases scanString_sound h with ⟨message, rfl⟩ | ⟨t, s, rfl, ht, hrest⟩
    · exact .error
    · rw [show l₁.rest = (l₁.reset 34).rest from rfl, hrest]
      exact .string ht
  let P : Token × Lexer → Prop := fun r => Scanned strtod (c :: l₁.rest) r.1 r.2.rest
  have hone {token : Token} (h : (c, token) ∈ structuralTokens) : P (token, l₁) := .structural h
  show P _
  iterate 6 refine iteInduction (fun hc => hone (by rw [hc]; decide)) fun _ => ?_
  refine iteInduction (fun hc => hliteral rfl (by rw [hc]; exact .true)) fun _ => ?_
  refine iteInduction (fun hc => hliteral rfl (by rw [hc]; exact .false)) fun _ => ?_
  refine iteInduction (fun hc => hliteral rfl (by rw [hc]; exact .null)) fun _ => ?_
  refine iteInduction hstring fun _ => ?_
  refine iteInduction (fun hc => ?_) fun _ => ?_
  · have hc : c = 45 ∨ isDigit c = true := by simpa using hc
    exact scanNumber_sound (l := l₁.reset c) (hc.imp_right isDigit_iff.mp) rfl
  refine iteInduction (fun hc => .endOfInput (.inr (by rw [hc]; rfl))) fun _ => ?_
  exact Scanned.error

theorem structural_value {token : Token} (h : (c, token) ∈ structuralTokens) : token.value = none := by
  simp only [structuralTokens, List.mem_cons, Prod.mk.injEq, List.not_mem_nil, or_false] at h
  rcases h with ⟨-, rfl⟩ | ⟨-, rfl⟩ | ⟨-, rfl⟩ | ⟨-, rfl⟩ | ⟨-, rfl⟩ | ⟨-, rfl⟩ <;> rfl

theorem structural_char {token : Token} {c' : UInt8} (h : (c, token) ∈ structuralTokens)
    (h' : (c', token) ∈ structuralTokens) : c = c' := by
  simp only [structuralTokens, List.mem_cons, Prod.mk.injEq, List.not_mem_nil, or_false] at h
  rcases h with ⟨rfl, rfl⟩ | ⟨rfl, rfl⟩ | ⟨rfl, rfl⟩ | ⟨rfl, rfl⟩ | ⟨rfl, rfl⟩ | ⟨rfl, rfl⟩ <;>
    simpa [structuralTokens, eq_comm] using h'

variable {input : Bytes} {token : Token}

/-- A token that is a value is scanned off its text. -/
theorem Scanned.value_of {j : Json} (h : Scanned strtod input token rest) (hvalue : token.value = some j) :
    ∃ t, input = t ++ rest ∧ Value strtod t j := by
  cases h with
  | error | overflow | endOfInput => cases hvalue
  | structural hc => cases (structural_value hc).symm.trans hvalue
  | @string t s _ ht =>
    cases hvalue
    exact ⟨34 :: t ++ [34], by simp, .string ht⟩
  | value hvalue' hj =>
    cases hvalue.symm.trans hvalue'
    exact ⟨_, rfl, hj⟩

theorem Scanned.structural_of (h : Scanned strtod input token rest) (hc : (c, token) ∈ structuralTokens) :
    input = c :: rest := by
  have hnone := structural_value hc
  cases h with
  | error | overflow | endOfInput => simp [structuralTokens] at hc
  | structural hc' => rw [structural_char hc hc']
  | string => cases hnone
  | value hvalue => cases hnone.symm.trans hvalue

theorem value_string {s : Bytes} (h : Value strtod t (.string s)) : ∃ u, t = 34 :: u ++ [34] ∧ Chars u s := by
  generalize hj : Json.string s = j at h
  cases h with
  | number h => cases h <;> cases hj
  | string hu =>
    cases hj
    exact ⟨_, rfl, hu⟩
  | object => simp [jsonify] at hj
  | _ => cases hj

theorem Scanned.string_of {s : Bytes} (h : Scanned strtod input (.valueString s) rest) :
    ∃ t, input = 34 :: t ++ 34 :: rest ∧ Chars t s := by
  obtain ⟨t, rfl, ht⟩ := h.value_of rfl
  obtain ⟨u, rfl, hu⟩ := value_string ht
  exact ⟨u, by simp, hu⟩

/-! ## Texts are scanned -/

/-- Whitespace makes no difference to what is scanned. -/
theorem scan_spaces (strtod : Bytes → Option Double) {w : Bytes} (hw : Spaces w) (h : l.rest = w ++ rest) :
    ∃ l' : Lexer, l'.rest = rest ∧ l.scan strtod = l'.scan strtod := by
  suffices hskip : ∃ l' : Lexer, l'.rest = rest ∧ l.skipSpaces = l'.skipSpaces by
    obtain ⟨l', hrest, hskip⟩ := hskip
    exact ⟨l', hrest, by rw [scan, scan, hskip]⟩
  induction w generalizing l with
  | nil => exact ⟨l, h, rfl⟩
  | cons c w ih =>
    obtain ⟨hc, hw⟩ := List.forall_mem_cons.mp hw
    obtain ⟨l₁, hget, hrest₁⟩ := get_cons h
    obtain ⟨l₂, hrest₂, hskip⟩ := ih hw hrest₁
    refine ⟨l₂, hrest₂, ?_⟩
    have hspace : isSpace c = true := by simpa [isSpace, or_assoc] using hc
    rw [skipSpaces]
    split
    · rename_i h
      cases hget.symm.trans h
    · rename_i h
      cases hget.symm.trans h
      rw [hspace]
      exact hskip

theorem scan_chars (strtod : Bytes → Option Double) {t s : Bytes} (hs : Chars t s) (h : l.rest = 34 :: t ++ 34 :: rest) :
    ∃ l', l.scan strtod = (.valueString s, l') ∧ l'.rest = rest := by
  obtain ⟨l₁, hget, hrest₁⟩ := get_cons h
  obtain ⟨l₂, hscan, hrest₂⟩ := scanString_of hs [] (l := l₁.reset 34) hrest₁
  refine ⟨l₂, ?_, hrest₂⟩
  rw [scan, skipSpaces_of hget (by decide)]
  exact hscan

theorem scan_numberText {j : Json} (hj : Number strtod t j) (hends : EndsNumber rest) (h : l.rest = t ++ rest) :
    ∃ token l', l.scan strtod = (token, l') ∧ token.value = some j ∧ l'.rest = rest := by
  obtain ⟨sign, unsigned, out, rfl, hsign, hunsigned, hvalue⟩ := number_iff.mp hj
  obtain ⟨c, t', hfirst, hc⟩ : ∃ c t', sign ++ unsigned = c :: t' ∧ (c = 45 ∨ Digit c) := by
    obtain ⟨int, tail, rfl, hint, -⟩ := hunsigned
    obtain ⟨d, t', rfl, hd⟩ := intPart_first hint
    simp only [List.mem_cons, List.not_mem_nil, or_false] at hsign
    rcases hsign with rfl | rfl
    · exact ⟨d, t' ++ tail, rfl, .inr hd⟩
    · exact ⟨45, d :: (t' ++ tail), rfl, .inl rfl⟩
  obtain ⟨s, type, hrun, hdone, rfl⟩ := (finishes_start hc).mpr ⟨sign, unsigned, hfirst.symm, hsign, hunsigned⟩
  rw [hfirst] at h hvalue
  obtain ⟨l', hscan, hrest⟩ := scan_run strtod (hc.imp_right isDigit_iff.mpr) hrun hdone hends h
  exact ⟨_, l', hscan, hvalue, hrest⟩

end Lexer

end AudioToolApi
