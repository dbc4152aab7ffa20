/-
What the scanner makes of what `dump` writes: each text gives its token back,
whatever follows it (a number must not be followed by what could belong to
it).
-/
import AudioToolApi.Utilities.JsonParser
import AudioToolApi.Utilities.JsonFacts

namespace AudioToolApi.Lexer

variable {strtod : Bytes → Option Double} {l l' : Lexer} {rest : Bytes}

theorem get_cons {c : UInt8} (h : l.rest = c :: rest) : ∃ l', l.get = (some c, l') ∧ l'.rest = rest := by
  unfold get
  rw [h]
  by_cases hc : c = LF
  · exact ⟨_, if_pos hc, rfl⟩
  · exact ⟨_, if_neg hc, rfl⟩

/-! ## Strings -/

theorem scanString_quote {buffer : Bytes} (hget : l.get = (some 34, l')) :
    scanString buffer l = (.valueString buffer, l') := by
  rw [scanString]
  split
  · rename_i h
    cases hget.symm.trans h
  · rename_i h
    cases hget.symm.trans h
    rfl

theorem scanString_escape {buffer bytes : Bytes} {l'' : Lexer} (hget : l.get = (some 92, l'))
    (hescape : l'.scanEscape = (.ok bytes, l'')) : scanString buffer l = scanString (buffer ++ bytes) l'' := by
  rw [scanString]
  split
  · rename_i h
    cases hget.symm.trans h
  · rename_i h
    cases hget.symm.trans h
    rw [if_neg (by decide), if_pos rfl]
    split
    · rename_i h
      cases hescape.symm.trans h
      rfl
    · rename_i h
      cases hescape.symm.trans h

theorem scanString_char {buffer bytes : Bytes} {c : UInt8} {ranges : List (Nat × Nat)} {l'' : Lexer}
    (hget : l.get = (some c, l')) (hc : c ≠ 34 ∧ c ≠ 92 ∧ ¬ c ≤ 0x1F) (hranges : tailRanges c.toNat = some ranges)
    (hnext : nextByteInRange ranges l' = (some bytes, l'')) :
    scanString buffer l = scanString (buffer ++ c :: bytes) l'' := by
  rw [scanString]
  split
  · rename_i h
    cases hget.symm.trans h
  · rename_i h
    cases hget.symm.trans h
    rw [if_neg hc.1, if_neg hc.2.1, if_neg hc.2.2, hranges]
    simp only
    split
    · rename_i h
      cases hnext.symm.trans h
      rfl
    · rename_i h
      cases hnext.symm.trans h

theorem nextByteInRange_tail {ranges : List (Nat × Nat)} {tail : Bytes} (htail : List.Forall₂ InRange ranges tail) :
    ∀ {l : Lexer}, l.rest = tail ++ rest → ∃ l', nextByteInRange ranges l = (some tail, l') ∧ l'.rest = rest := by
  induction htail with
  | nil => exact fun hrest => ⟨_, rfl, hrest⟩
  | cons hc htail ih =>
    intro l hrest
    obtain ⟨l₁, hget, hrest₁⟩ := get_cons hrest
    obtain ⟨l₂, hnext, hrest₂⟩ := ih hrest₁
    exact ⟨l₂, by simp [nextByteInRange, hget, hc, hnext], hrest₂⟩

theorem codepointLoop_digit {c : UInt8} {d : Nat} (h : l.rest = c :: rest) (hc : hexValue c = some d) (n factor : Nat)
    (factors : List Nat) : ∃ l', codepointLoop n (factor :: factors) l = codepointLoop (n + (d <<< factor)) factors l' ∧
      l'.rest = rest := by
  obtain ⟨l', hget, hrest⟩ := get_cons h
  exact ⟨l', by simp [codepointLoop, hget, hc], hrest⟩

theorem hexDigits_spec {n : Nat} (hn : n < 16) : ∃ c, (hexDigits.drop n).take 1 = [c] ∧ hexValue c = some n := by
  have hall : ∀ i : Fin 16, ∃ c ∈ (hexDigits.drop i.val).head?, (hexDigits.drop i.val).take 1 = [c] ∧ hexValue c = some i.val := by
    decide
  obtain ⟨c, -, hc⟩ := hall ⟨n, hn⟩
  exact ⟨c, hc⟩

/-- The four digits that are written for a control character. -/
theorem scanUnicode_control {c : UInt8} (hc : c ≤ 0x1F)
    (h : l.rest = text "00" ++ (hexDigits.drop (c.toNat / 16)).take 1 ++ (hexDigits.drop (c.toNat % 16)).take 1 ++ rest) :
    ∃ l', l.scanUnicode = (.ok [c], l') ∧ l'.rest = rest := by
  have hlt : c.toNat < 32 := Nat.lt_succ_of_le hc
  obtain ⟨high, hhigh, hhighValue⟩ := hexDigits_spec (n := c.toNat / 16) (by omega)
  obtain ⟨low, hlow, hlowValue⟩ := hexDigits_spec (n := c.toNat % 16) (by omega)
  rw [hhigh, hlow] at h
  obtain ⟨l₁, hloop₁, hrest₁⟩ := codepointLoop_digit h (d := 0) rfl 0 12 [8, 4, 0]
  obtain ⟨l₂, hloop₂, hrest₂⟩ := codepointLoop_digit hrest₁ (d := 0) rfl 0 8 [4, 0]
  obtain ⟨l₃, hloop₃, hrest₃⟩ := codepointLoop_digit hrest₂ hhighValue 0 4 [0]
  obtain ⟨l₄, hloop₄, hrest₄⟩ := codepointLoop_digit hrest₃ hlowValue (0 + (c.toNat / 16) <<< 4) 0 []
  have hvalue : 0 + (c.toNat / 16) <<< 4 + (c.toNat % 16) <<< 0 = c.toNat := by
    simp only [Nat.shiftLeft_eq]
    omega
  have hcodepoint : l.getCodepoint = (some c.toNat, l₄) := by
    rw [getCodepoint, hloop₁, Nat.zero_shiftLeft, Nat.add_zero, hloop₂, Nat.zero_shiftLeft, Nat.add_zero, hloop₃, hloop₄,
      hvalue, codepointLoop]
  refine ⟨l₄, ?_, hrest₄⟩
  rw [scanUnicode, hcodepoint]
  simp only
  rw [if_neg (by omega), if_neg (by omega), codepointBytes, if_pos (by omega), UInt8.ofNat_toNat]

/-- The escapes of two characters that `dump` writes. -/
theorem scanEscape_short {x b : UInt8} (hget : l.get = (some x, l'))
    (hx : (x, b) ∈ [((98 : UInt8), (8 : UInt8)), (116, 9), (110, 10), (102, 12), (114, 13), (34, 34), (92, 92)]) :
    l.scanEscape = (.ok [b], l') := by
  rw [scanEscape, hget]
  simp only [List.mem_cons, Prod.mk.injEq, List.not_mem_nil, or_false] at hx
  rcases hx with ⟨rfl, rfl⟩ | ⟨rfl, rfl⟩ | ⟨rfl, rfl⟩ | ⟨rfl, rfl⟩ | ⟨rfl, rfl⟩ | ⟨rfl, rfl⟩ | ⟨rfl, rfl⟩ <;> rfl

/-- What is written for a byte: itself, or an escape. -/
theorem escapeByte_cases (c : UInt8) :
    (∃ x, escapeByte c = [92, x] ∧
      (x, c) ∈ [((98 : UInt8), (8 : UInt8)), (116, 9), (110, 10), (102, 12), (114, 13), (34, 34), (92, 92)]) ∨
    (c ≤ 0x1F ∧ escapeByte c = escapeControl c) ∨ (c ≠ 34 ∧ c ≠ 92 ∧ ¬ c ≤ 0x1F ∧ escapeByte c = [c]) := by
  unfold escapeByte
  by_cases h8 : c = 8
  · exact .inl ⟨98, by rw [if_pos h8]; rfl, by simp [h8]⟩
  rw [if_neg h8]
  by_cases h9 : c = 9
  · exact .inl ⟨116, by rw [if_pos h9]; rfl, by simp [h9]⟩
  rw [if_neg h9]
  by_cases h10 : c = 10
  · exact .inl ⟨110, by rw [if_pos h10]; rfl, by simp [h10]⟩
  rw [if_neg h10]
  by_cases h12 : c = 12
  · exact .inl ⟨102, by rw [if_pos h12]; rfl, by simp [h12]⟩
  rw [if_neg h12]
  by_cases h13 : c = 13
  · exact .inl ⟨114, by rw [if_pos h13]; rfl, by simp [h13]⟩
  rw [if_neg h13]
  by_cases h34 : c = 34
  · exact .inl ⟨34, by rw [if_pos h34]; rfl, by simp [h34]⟩
  rw [if_neg h34]
  by_cases h92 : c = 92
  · exact .inl ⟨92, by rw [if_pos h92]; rfl, by simp [h92]⟩
  rw [if_neg h92]
  by_cases hcontrol : c ≤ 0x1F
  · exact .inr (.inl ⟨hcontrol, if_pos hcontrol⟩)
  · exact .inr (.inr ⟨h34, h92, hcontrol, if_neg hcontrol⟩)

/-- One byte of ASCII. -/
theorem scanString_ascii {c : UInt8} (hc : c.toNat < 0x80) (buffer : Bytes) (h : l.rest = escapeByte c ++ rest) :
    ∃ l', scanString buffer l = scanString (buffer ++ [c]) l' ∧ l'.rest = rest := by
  rcases escapeByte_cases c with ⟨x, hx, hmem⟩ | ⟨hcontrol, hx⟩ | ⟨hquote, hslash, hcontrol, hx⟩
  · rw [hx] at h
    obtain ⟨l₁, hget₁, hrest₁⟩ := get_cons h
    obtain ⟨l₂, hget₂, hrest₂⟩ := get_cons hrest₁
    exact ⟨l₂, scanString_escape hget₁ (scanEscape_short hget₂ hmem), hrest₂⟩
  · rw [hx] at h
    obtain ⟨l₁, hget₁, hrest₁⟩ := get_cons h
    obtain ⟨l₂, hget₂, hrest₂⟩ := get_cons hrest₁
    obtain ⟨l₃, hscan, hrest₃⟩ := scanUnicode_control hcontrol hrest₂
    have hescape : l₁.scanEscape = (.ok [c], l₃) := by
      rw [scanEscape, hget₂]
      exact hscan
    exact ⟨l₃, scanString_escape hget₁ hescape, hrest₃⟩
  · rw [hx] at h
    obtain ⟨l₁, hget, hrest₁⟩ := get_cons h
    have hranges : tailRanges c.toNat = some [] := tailRanges_eq_some.mpr (.inl ⟨by omega, rfl⟩)
    exact ⟨l₁, scanString_char hget ⟨hquote, hslash, hcontrol⟩ hranges rfl, hrest₁⟩

/-- A character of more than one byte is written as it is. -/
theorem escapeByte_high {c : UInt8} (hc : 0x80 ≤ c.toNat) : escapeByte c = [c] := by
  rcases escapeByte_cases c with ⟨x, -, hmem⟩ | ⟨hcontrol, -⟩ | ⟨-, -, -, hx⟩
  · simp only [List.mem_cons, Prod.mk.injEq, List.not_mem_nil, or_false] at hmem
    rcases hmem with ⟨-, rfl⟩ | ⟨-, rfl⟩ | ⟨-, rfl⟩ | ⟨-, rfl⟩ | ⟨-, rfl⟩ | ⟨-, rfl⟩ | ⟨-, rfl⟩ <;> simp at hc
  · have : c.toNat ≤ 31 := hcontrol
    omega
  · exact hx

theorem flatMap_escapeByte_high {s : Bytes} (hs : ∀ c ∈ s, 0x80 ≤ c.toNat) : s.flatMap escapeByte = s := by
  induction s with
  | nil => rfl
  | cons c s ih =>
    rw [List.flatMap_cons, escapeByte_high (hs c (by simp)), ih fun d hd => hs d (by simp [hd])]
    rfl

/-- What follows the first byte of a character is not ASCII. -/
theorem tailRanges_high {c : Nat} {ranges : List (Nat × Nat)} {tail : Bytes} (hranges : tailRanges c = some ranges)
    (htail : List.Forall₂ InRange ranges tail) : ∀ d ∈ tail, 0x80 ≤ d.toNat := by
  have hlow : ∀ range ∈ ranges, 0x80 ≤ range.1 := by
    rcases tailRanges_eq_some.mp hranges with ⟨-, rfl⟩ | ⟨-, -, rfl⟩ | ⟨-, -, rfl⟩ | ⟨-, -, rfl⟩ <;> simp <;> split <;> decide
  clear hranges
  induction htail with
  | nil => simp
  | cons hc _ ih =>
    intro d hd
    rcases List.mem_cons.mp hd with rfl | hd
    · exact Nat.le_trans (hlow _ (by simp)) hc.1
    · exact ih (fun range hrange => hlow range (by simp [hrange])) d hd

/-- One character. -/
theorem scanString_character {c : UInt8} {tail : Bytes} {ranges : List (Nat × Nat)}
    (hranges : tailRanges c.toNat = some ranges) (htail : List.Forall₂ InRange ranges tail) (buffer : Bytes)
    (h : l.rest = (c :: tail).flatMap escapeByte ++ rest) :
    ∃ l', scanString buffer l = scanString (buffer ++ c :: tail) l' ∧ l'.rest = rest := by
  by_cases hc : c.toNat < 0x80
  · have hnil : ranges = [] := by
      rcases tailRanges_eq_some.mp hranges with ⟨-, h⟩ | ⟨h, -⟩ | ⟨h, -⟩ | ⟨h, -⟩
      · exact h
      all_goals omega
    subst hnil
    cases htail
    exact scanString_ascii hc buffer (by simpa using h)
  · have hhigh := Nat.not_lt.mp hc
    rw [List.flatMap_cons, escapeByte_high hhigh, flatMap_escapeByte_high (tailRanges_high hranges htail)] at h
    obtain ⟨l₁, hget, hrest₁⟩ := get_cons h
    obtain ⟨l₂, hnext, hrest₂⟩ := nextByteInRange_tail htail hrest₁
    have hplain : c ≠ 34 ∧ c ≠ 92 ∧ ¬ c ≤ 0x1F := by
      refine ⟨?_, ?_, fun hle => ?_⟩
      · rintro rfl
        simp at hhigh
      · rintro rfl
        simp at hhigh
      · have : c.toNat ≤ 31 := hle
        omega
    exact ⟨l₂, scanString_char hget hplain hranges hnext, hrest₂⟩

/-- A string is read back: one character after the other. -/
theorem scanString_escaped {s : Bytes} (hs : Utf8 s) (buffer : Bytes) (h : l.rest = s.flatMap escapeByte ++ 34 :: rest) :
    ∃ l', scanString buffer l = (.valueString (buffer ++ s), l') ∧ l'.rest = rest := by
  generalize hn : s.length = n
  induction n using Nat.strong_induction_on generalizing s buffer l with
  | _ n ih =>
    cases s with
    | nil =>
      obtain ⟨l', hget, hrest⟩ := get_cons h
      exact ⟨l', by rw [scanString_quote hget, List.append_nil], hrest⟩
    | cons c s =>
      obtain ⟨ranges, tail, after, hranges, htail, rfl, hafter⟩ := (utf8_cons_iff c s).mp hs
      rw [← List.cons_append, List.flatMap_append, List.append_assoc] at h
      obtain ⟨l₁, hscan₁, hrest₁⟩ := scanString_character hranges htail buffer h
      obtain ⟨l₂, hscan₂, hrest₂⟩ := ih after.length (by simp at hn; omega) hafter (buffer ++ c :: tail) hrest₁ rfl
      exact ⟨l₂, by simp [hscan₁, hscan₂], hrest₂⟩

/-! ## Numbers -/

/-- The labels of `scan_number` on the way through these characters. -/
def NumberState.run (s : NumberState) (type : NumberType) : Bytes → Option (NumberState × NumberType)
  | [] => some (s, type)
  | c :: cs =>
    match s.next (some c) with
    | .state s' => s'.run (s.type type) cs
    | _ => none

/-- The number that was read would not go on with what follows. -/
def EndsNumber (rest : Bytes) : Prop := ∀ c ∈ rest.head?, isDigit c = false ∧ c ≠ 46 ∧ c ≠ 101 ∧ c ≠ 69

theorem next_of_ends {s : NumberState} (hdone : s.next none = .done) {c : UInt8}
    (hc : isDigit c = false ∧ c ≠ 46 ∧ c ≠ 101 ∧ c ≠ 69) : s.next (some c) = .done := by
  obtain ⟨hdigit, hpoint, he, hE⟩ := hc
  cases s <;> simp_all [NumberState.next]

variable (strtod) in
theorem numberLoop_run (buffer : Bytes) {s s' : NumberState} {type type' : NumberType} {digits : Bytes}
    (hrun : s.run type digits = some (s', type')) (hdone : s'.next none = .done) (hends : EndsNumber rest)
    (h : l.rest = digits ++ rest) :
    ∃ l', numberLoop strtod s type buffer l = (numberToken strtod (s'.type type') (buffer ++ digits), l') ∧ l'.rest = rest := by
  induction digits generalizing s type buffer l with
  | nil =>
    cases hrun
    refine ⟨l.unget, ?_, by simpa using h⟩
    rw [numberLoop, List.append_nil]
    split
    · rw [hdone]
    · rename_i c l₁ hget
      have hhead : c ∈ rest.head? := by
        rw [List.nil_append, (get_some hget).1] at h
        rw [← h]
        rfl
      rw [next_of_ends hdone (hends c hhead)]
  | cons c digits ih =>
    obtain ⟨l₁, hget, hrest₁⟩ := get_cons h
    rw [NumberState.run] at hrun
    split at hrun
    · rename_i next hnext
      obtain ⟨l₂, hloop, hrest₂⟩ := ih (buffer ++ [c]) hrun hrest₁
      refine ⟨l₂, ?_, hrest₂⟩
      rw [numberLoop]
      split
      · rename_i hget'
        cases hget.symm.trans hget'
      · rename_i hget'
        cases hget.symm.trans hget'
        rw [hnext]
        simpa using hloop
    · cases hrun

theorem run_digits {digits : Bytes} (h : ∀ c ∈ digits, isDigit c = true) (type : NumberType) :
    NumberState.any1.run type digits = some (.any1, type) := by
  induction digits with
  | nil => rfl
  | cons c digits ih =>
    rw [NumberState.run, NumberState.next, if_pos (h c (by simp))]
    exact ih fun d hd => h d (by simp [hd])

/-! ## Decimal digits -/

theorem decimal_eq (n : Nat) : decimal n =
    if n < 10 then [UInt8.ofNat (n + 48)] else decimal (n / 10) ++ [UInt8.ofNat (n % 10 + 48)] := by
  have hdigit : ∀ i : Fin 10, (Nat.digitChar i.val).toNat.toUInt8 = UInt8.ofNat (i.val + 48) := by decide
  unfold decimal
  rw [Nat.toDigits_eq_if (by decide)]
  split
  · exact congrArg ([·]) (hdigit ⟨n, by assumption⟩)
  · rw [List.map_append]
    exact congrArg (_ ++ [·]) (hdigit ⟨n % 10, Nat.mod_lt n (by decide)⟩)

theorem digit_toNat {d : Nat} (hd : d < 10) : (UInt8.ofNat (d + 48)).toNat = d + 48 := by
  simp
  omega

theorem isDigit_digit {d : Nat} (hd : d < 10) : isDigit (UInt8.ofNat (d + 48)) = true := by
  have hall : ∀ i : Fin 10, isDigit (UInt8.ofNat (i.val + 48)) = true := by decide
  exact hall ⟨d, hd⟩

/-- What `decimal` writes: digits, of which the first is no zero unless it is
the only one, and whose value is `n`. -/
theorem decimal_spec (n : Nat) : ∃ c digits, decimal n = c :: digits ∧ isDigit c = true ∧
    (∀ d ∈ digits, isDigit d = true) ∧ (c = 48 → n = 0) ∧ (n = 0 → digits = []) ∧ digitsValue (c :: digits) = n := by
  induction n using Nat.strong_induction_on with
  | _ n ih =>
    rw [decimal_eq]
    by_cases hn : n < 10
    · rw [if_pos hn]
      have hvalue : digitsValue [UInt8.ofNat (n + 48)] = n := by
        rw [digitsValue, List.foldl_cons, List.foldl_nil, digit_toNat hn]
        omega
      have hzero : UInt8.ofNat (n + 48) = 48 → n = 0 := by
        intro h
        have h' := congrArg UInt8.toNat h
        rw [digit_toNat hn] at h'
        exact Nat.add_right_cancel h'
      exact ⟨_, [], rfl, isDigit_digit hn, by simp, hzero, fun _ => rfl, hvalue⟩
    · rw [if_neg hn]
      obtain ⟨c, digits, hdecimal, hc, hdigits, hzero, -, hvalue⟩ := ih (n / 10) (by omega)
      have hmod : n % 10 < 10 := Nat.mod_lt n (by decide)
      refine ⟨c, digits ++ [UInt8.ofNat (n % 10 + 48)], by rw [hdecimal]; rfl, hc, ?_, ?_, by omega, ?_⟩
      · intro d hd
        rcases List.mem_append.mp hd with hd | hd
        · exact hdigits d hd
        · rw [List.mem_singleton.mp hd]
          exact isDigit_digit hmod
      · intro h
        have := hzero h
        omega
      · rw [digitsValue] at hvalue ⊢
        rw [← List.cons_append, List.foldl_append, hvalue, List.foldl_cons, List.foldl_nil, digit_toNat hmod]
        omega

/-- A number that is no integer, as `scan_number` takes it. -/
def isFloatLiteral (digits : Bytes) : Bool :=
  match digits with
  | [] => false
  | c :: cs =>
    (c = 45 || isDigit c) &&
      match (numberStart c).run .unsigned cs with
      | some (s, type) => s.next none = .done && s.type type = .float
      | none => false

/-! ## Tokens -/

variable (strtod)

theorem skipSpaces_of {c : UInt8} (hget : l.get = (some c, l')) (hc : isSpace c = false) : l.skipSpaces = (some c, l') := by
  rw [skipSpaces]
  split
  · rename_i h
    cases hget.symm.trans h
  · rename_i h
    cases hget.symm.trans h
    rw [hc]
    rfl

/-- The tokens of one character. -/
theorem scan_structural {c : UInt8} (token : Token)
    (hc : (c, token) ∈ [((91 : UInt8), Token.beginArray), (93, .endArray), (123, .beginObject), (125, .endObject),
      (58, .nameSeparator), (44, .valueSeparator)])
    (h : l.rest = c :: rest) : ∃ l', l.scan strtod = (token, l') ∧ l'.rest = rest := by
  obtain ⟨l₁, hget, hrest⟩ := get_cons h
  refine ⟨l₁, ?_, hrest⟩
  simp only [List.mem_cons, Prod.mk.injEq, List.not_mem_nil, or_false] at hc
  rcases hc with ⟨rfl, rfl⟩ | ⟨rfl, rfl⟩ | ⟨rfl, rfl⟩ | ⟨rfl, rfl⟩ | ⟨rfl, rfl⟩ | ⟨rfl, rfl⟩ <;>
    rw [scan, skipSpaces_of hget (by decide)] <;> rfl

theorem scanLiteral_of (token : Token) (literal : Bytes) : ∀ {l : Lexer}, l.rest = literal ++ rest →
    ∃ l', scanLiteral token literal l = (token, l') ∧ l'.rest = rest := by
  induction literal with
  | nil => exact fun h => ⟨_, rfl, h⟩
  | cons c literal ih =>
    intro l h
    obtain ⟨l₁, hget, hrest₁⟩ := get_cons h
    obtain ⟨l₂, hscan, hrest₂⟩ := ih hrest₁
    exact ⟨l₂, by simp [scanLiteral, hget, hscan], hrest₂⟩

/-- The three literals. -/
theorem scan_literal {literal : String} {token : Token}
    (hl : (literal, token) ∈ [("true", Token.literalTrue), ("false", .literalFalse), ("null", .literalNull)])
    (h : l.rest = text literal ++ rest) : ∃ l', l.scan strtod = (token, l') ∧ l'.rest = rest := by
  have hstep : ∀ {c : UInt8} (tail : Bytes), l.rest = c :: (tail ++ rest) → isSpace c = false →
      (∀ l₁, l.skipSpaces = (some c, l₁) → l.scan strtod = scanLiteral token tail l₁) →
      ∃ l', l.scan strtod = (token, l') ∧ l'.rest = rest := by
    intro c tail h hc hscan
    obtain ⟨l₁, hget, hrest₁⟩ := get_cons h
    obtain ⟨l₂, hliteral, hrest₂⟩ := scanLiteral_of token tail hrest₁
    exact ⟨l₂, by rw [hscan l₁ (skipSpaces_of hget hc), hliteral], hrest₂⟩
  simp only [List.mem_cons, Prod.mk.injEq, List.not_mem_nil, or_false] at hl
  rcases hl with ⟨rfl, rfl⟩ | ⟨rfl, rfl⟩ | ⟨rfl, rfl⟩
  · exact hstep (text "rue") h (by decide) fun l₁ hskip => by rw [scan, hskip]; rfl
  · exact hstep (text "alse") h (by decide) fun l₁ hskip => by rw [scan, hskip]; rfl
  · exact hstep (text "ull") h (by decide) fun l₁ hskip => by rw [scan, hskip]; rfl

/-- A string, between its quotes. -/
theorem scan_string {s : Bytes} (hs : Utf8 s) (h : l.rest = 34 :: (s.flatMap escapeByte ++ 34 :: rest)) :
    ∃ l', l.scan strtod = (.valueString s, l') ∧ l'.rest = rest := by
  obtain ⟨l₁, hget, hrest₁⟩ := get_cons h
  obtain ⟨l₂, hscan, hrest₂⟩ := scanString_escaped hs [] (l := l₁.reset 34) hrest₁
  refine ⟨l₂, ?_, hrest₂⟩
  rw [scan, skipSpaces_of hget (by decide)]
  exact hscan

/-- The first character of a number leads to `scan_number`. -/
theorem scan_number {c : UInt8} (hget : l.get = (some c, l')) (hc : c = 45 ∨ isDigit c = true) :
    l.scan strtod = scanNumber strtod c (l'.reset c) := by
  have hspace : isSpace c = false := by
    rcases hc with rfl | hc
    · decide
    · simp only [isDigit, Bool.and_eq_true, decide_eq_true_eq, UInt8.le_iff_toNat_le, UInt8.reduceToNat] at hc
      have hne : ∀ k : UInt8, k.toNat < 48 → c ≠ k := by
        rintro k hk rfl
        omega
      simp [isSpace, hne]
  have hne : ∀ k : UInt8, k ≠ 45 → isDigit k = false → c ≠ k := by
    rintro k hk hdigit rfl
    rcases hc with rfl | hc
    · exact hk rfl
    · rw [hdigit] at hc
      cases hc
  have hnumber : (decide (c = 45) || isDigit c) = true := by simpa using hc
  rw [scan, skipSpaces_of hget hspace]
  simp only
  rw [if_neg (hne 91 (by decide) (by decide)), if_neg (hne 93 (by decide) (by decide)),
    if_neg (hne 123 (by decide) (by decide)), if_neg (hne 125 (by decide) (by decide)),
    if_neg (hne 58 (by decide) (by decide)), if_neg (hne 44 (by decide) (by decide)),
    if_neg (hne 116 (by decide) (by decide)), if_neg (hne 102 (by decide) (by decide)),
    if_neg (hne 110 (by decide) (by decide)), if_neg (hne 34 (by decide) (by decide)), if_pos hnumber]

/-- A number is read as far as its labels go. -/
theorem scan_run {c : UInt8} {digits : Bytes} {s : NumberState} {type : NumberType} (hc : c = 45 ∨ isDigit c = true)
    (hrun : (numberStart c).run .unsigned digits = some (s, type)) (hdone : s.next none = .done) (hends : EndsNumber rest)
    (h : l.rest = c :: digits ++ rest) :
    ∃ l', l.scan strtod = (numberToken strtod (s.type type) (c :: digits), l') ∧ l'.rest = rest := by
  obtain ⟨l₁, hget, hrest₁⟩ := get_cons h
  obtain ⟨l₂, hloop, hrest₂⟩ := numberLoop_run strtod [c] hrun hdone hends (l := l₁.reset c) hrest₁
  exact ⟨l₂, by rw [scan_number strtod hget hc]; exact hloop, hrest₂⟩

theorem scan_unsigned {n : Nat} (hn : n < 2 ^ 64) (hends : EndsNumber rest) (h : l.rest = decimal n ++ rest) :
    ∃ l', l.scan strtod = (.valueUnsigned n, l') ∧ l'.rest = rest := by
  obtain ⟨c, digits, hdecimal, hc, hdigits, hzero, hnil, hvalue⟩ := decimal_spec n
  have hne : c ≠ 45 := by
    rintro rfl
    cases hc
  rw [hdecimal] at h
  have htoken : numberToken strtod .unsigned (c :: digits) = .valueUnsigned n := by
    rw [numberToken, hvalue, if_pos hn]
  by_cases h48 : c = 48
  · obtain rfl := hnil (hzero h48)
    obtain ⟨l', hscan, hrest⟩ := scan_run strtod (.inr hc)
      (show (numberStart c).run .unsigned [] = some (.zero, .unsigned) by
        rw [numberStart, if_neg hne, if_pos h48]
        rfl) rfl hends h
    exact ⟨l', hscan.trans (congrArg (·, l') htoken), hrest⟩
  · obtain ⟨l', hscan, hrest⟩ := scan_run strtod (.inr hc)
      (show (numberStart c).run .unsigned digits = some (.any1, .unsigned) by
        rw [numberStart, if_neg hne, if_neg h48, run_digits hdigits]) rfl hends h
    exact ⟨l', hscan.trans (congrArg (·, l') htoken), hrest⟩

theorem scan_negative {n : Nat} (hn : n < 2 ^ 63) (hends : EndsNumber rest) (h : l.rest = text "-" ++ decimal (n + 1) ++ rest) :
    ∃ l', l.scan strtod = (.valueInteger (.negSucc n), l') ∧ l'.rest = rest := by
  obtain ⟨c, digits, hdecimal, hc, hdigits, hzero, -, hvalue⟩ := decimal_spec (n + 1)
  have h48 : c ≠ 48 := fun h => absurd (hzero h) (by omega)
  rw [hdecimal] at h
  have hrun : (numberStart 45).run .unsigned (c :: digits) = some (.any1, .integer) := by
    rw [show numberStart 45 = .minus from rfl, NumberState.run, NumberState.next, if_neg h48, if_pos hc]
    exact run_digits hdigits _
  obtain ⟨l', hscan, hrest⟩ := scan_run strtod (.inl rfl) hrun rfl hends h
  refine ⟨l', hscan.trans (congrArg (·, l') ?_), hrest⟩
  rw [show NumberState.any1.type .integer = .integer from rfl, numberToken, List.tail_cons, hvalue, if_pos (by omega)]
  rfl

theorem scan_float {digits : Bytes} (hdigits : isFloatLiteral digits = true) (hends : EndsNumber rest)
    (h : l.rest = digits ++ rest) : ∃ l', l.scan strtod = (.valueFloat (strtod digits), l') ∧ l'.rest = rest := by
  unfold isFloatLiteral at hdigits
  split at hdigits
  · cases hdigits
  · rename_i c cs
    rw [Bool.and_eq_true] at hdigits
    obtain ⟨hc, hrun⟩ := hdigits
    split at hrun
    · rename_i s type hsome
      simp only [Bool.and_eq_true, decide_eq_true_eq] at hrun
      obtain ⟨l', hscan, hrest⟩ := scan_run strtod (by simpa using hc) hsome hrun.1 hends h
      refine ⟨l', hscan.trans (congrArg (·, l') ?_), hrest⟩
      rw [hrun.2, numberToken]
    · cases hrun

end AudioToolApi.Lexer
