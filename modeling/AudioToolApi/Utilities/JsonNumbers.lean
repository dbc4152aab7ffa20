/-
The numbers of the grammar are those that `scan_number` reads: the labels it
can still go through, as a language for each, and the token that it makes at
the end (`number_iff`).
-/
import AudioToolApi.Utilities.JsonGrammar
import AudioToolApi.Utilities.JsonTokens

namespace AudioToolApi

open Grammar

/-- The value of a token that is one. -/
def Token.value : Token → Option Json
  | .literalTrue => some (.bool true)
  | .literalFalse => some (.bool false)
  | .literalNull => some .null
  | .valueString s => some (.string s)
  | .valueUnsigned n => some (.int n)
  | .valueInteger i => some (.int i)
  | .valueFloat x => x.map .float
  | _ => none

namespace Lexer

variable {strtod : Bytes → Option Double} {l l' : Lexer}

/-- `scan_number` can end after these characters, with a number of this type. -/
def NumberState.Finishes (s : NumberState) (type : NumberType) (digits : Bytes) (out : NumberType) : Prop :=
  ∃ s' type', s.run type digits = some (s', type') ∧ s'.next none = .done ∧ s'.type type' = out

variable {s : NumberState} {type out : NumberType} {c : UInt8} {t : Bytes}

theorem finishes_nil : s.Finishes type [] out ↔ s.next none = .done ∧ s.type type = out := by
  simp [NumberState.Finishes, NumberState.run]

theorem finishes_cons :
    s.Finishes type (c :: t) out ↔ ∃ s', s.next (some c) = .state s' ∧ s'.Finishes (s.type type) t out := by
  unfold NumberState.Finishes
  rw [NumberState.run]
  cases s.next (some c) <;> simp

theorem isDigit_iff : isDigit c = true ↔ Digit c := by simp [isDigit, Digit]

theorem digits_cons : Digits (c :: t) ↔ Digit c ∧ ∀ d ∈ t, Digit d := by simp [Digits]

theorem not_digit (h : c < 48) : ¬ Digit c := fun hc => absurd hc.1 (UInt8.not_le.mpr h)

/-- What can follow the `e` of an exponent. -/
def Signed (t : Bytes) : Prop := ∃ sign digits, t = sign ++ digits ∧ sign ∈ [[], [(43 : UInt8)], [45]] ∧ Digits digits

theorem signed_cons : Signed (c :: t) ↔ if c = 43 ∨ c = 45 then Digits t else Digits (c :: t) := by
  have hsplit : Signed (c :: t) ↔ Digits (c :: t) ∨ (c = 43 ∨ c = 45) ∧ Digits t := by
    constructor
    · rintro ⟨sign, digits, ht, hsign, hdigits⟩
      simp only [List.mem_cons, List.not_mem_nil, or_false] at hsign
      rcases hsign with rfl | rfl | rfl
      · exact .inl (ht ▸ hdigits)
      · cases ht
        exact .inr ⟨.inl rfl, hdigits⟩
      · cases ht
        exact .inr ⟨.inr rfl, hdigits⟩
    · rintro (hdigits | ⟨rfl | rfl, hdigits⟩)
      · exact ⟨[], c :: t, rfl, by simp, hdigits⟩
      · exact ⟨[43], t, rfl, by simp, hdigits⟩
      · exact ⟨[45], t, rfl, by simp, hdigits⟩
  rw [hsplit]
  split_ifs with hc
  · have hdigit : ¬ Digits (c :: t) := by
      rw [digits_cons]
      rcases hc with rfl | rfl <;> exact fun h => not_digit (by decide) h.1
    simp [hc, hdigit]
  · simp [hc]

theorem exponent_cons : Exponent (c :: t) ↔ (c = 101 ∨ c = 69) ∧ Signed t := by
  constructor
  · rintro (_ | ⟨hc, hsign, hdigits⟩)
    exact ⟨by simpa using hc, _, _, rfl, hsign, hdigits⟩
  · rintro ⟨hc, sign, digits, rfl, hsign, hdigits⟩
    exact .digits (by simpa using hc) hsign hdigits

theorem finishes_any2 : NumberState.any2.Finishes type t out ↔ (∀ d ∈ t, Digit d) ∧ type = out := by
  induction t with
  | nil => simp [finishes_nil, NumberState.next, NumberState.type]
  | cons c t ih => by_cases hc : Digit c <;> simp [finishes_cons, NumberState.next, NumberState.type, isDigit_iff, hc, ih]

theorem finishes_sign : NumberState.sign.Finishes type t out ↔ Digits t ∧ type = out := by
  cases t with
  | nil => simp [finishes_nil, NumberState.next, Digits]
  | cons c t =>
    by_cases hc : Digit c <;>
      simp [finishes_cons, NumberState.next, NumberState.type, isDigit_iff, hc, finishes_any2, digits_cons]

theorem finishes_exponent : NumberState.exponent.Finishes type t out ↔ Signed t ∧ .float = out := by
  cases t with
  | nil => simp [finishes_nil, NumberState.next, Signed, Digits]
  | cons c t =>
    rw [signed_cons]
    by_cases hsign : c = 43 ∨ c = 45
    · simp [finishes_cons, NumberState.next, NumberState.type, hsign, finishes_sign]
    · by_cases hc : Digit c <;>
        simp [finishes_cons, NumberState.next, NumberState.type, isDigit_iff, hsign, hc, finishes_any2, digits_cons]

/-- Digits, if any, and what must follow. -/
def DigitsThen (P : Bytes → Prop) (t : Bytes) : Prop := ∃ digits tail, t = digits ++ tail ∧ (∀ d ∈ digits, Digit d) ∧ P tail

theorem digitsThen_nil {P : Bytes → Prop} : DigitsThen P [] ↔ P [] := by
  constructor
  · rintro ⟨digits, tail, h, -, htail⟩
    obtain ⟨rfl, rfl⟩ := List.append_eq_nil_iff.mp h.symm
    exact htail
  · exact fun h => ⟨[], [], rfl, by simp, h⟩

theorem digitsThen_cons {P : Bytes → Prop} : DigitsThen P (c :: t) ↔ Digit c ∧ DigitsThen P t ∨ P (c :: t) := by
  constructor
  · rintro ⟨_ | ⟨d, digits⟩, tail, h, hdigits, htail⟩
    · exact .inr (h ▸ htail)
    · cases h
      obtain ⟨hc, hdigits⟩ := List.forall_mem_cons.mp hdigits
      exact .inl ⟨hc, digits, tail, rfl, hdigits, htail⟩
  · rintro (⟨hc, digits, tail, rfl, hdigits, htail⟩ | h)
    · exact ⟨c :: digits, tail, rfl, List.forall_mem_cons.mpr ⟨hc, hdigits⟩, htail⟩
    · exact ⟨[], c :: t, rfl, by simp, h⟩

theorem exponent_first (h : Exponent (c :: t)) : ¬ Digit c := by
  rintro ⟨-, hc⟩
  rcases (exponent_cons.mp h).1 with rfl | rfl <;> exact absurd hc (by decide)

theorem finishes_decimal2 : NumberState.decimal2.Finishes .float t out ↔ DigitsThen Exponent t ∧ .float = out := by
  induction t with
  | nil => simp [finishes_nil, digitsThen_nil, NumberState.next, NumberState.type, Exponent.none]
  | cons c t ih =>
    rw [finishes_cons, digitsThen_cons]
    by_cases hc : Digit c
    · have hexponent : ¬ Exponent (c :: t) := fun h => exponent_first h hc
      simp [NumberState.next, NumberState.type, isDigit_iff, hc, ih, hexponent]
    · by_cases he : c = 101 ∨ c = 69
      · simp [NumberState.next, NumberState.type, isDigit_iff, hc, he, finishes_exponent, exponent_cons]
      · simp [NumberState.next, isDigit_iff, hc, he, exponent_cons]

/-- What follows the point of a fraction, and an exponent. -/
def Decimals (t : Bytes) : Prop := ∃ c t', t = c :: t' ∧ Digit c ∧ DigitsThen Exponent t'

theorem finishes_decimal1 : NumberState.decimal1.Finishes type t out ↔ Decimals t ∧ .float = out := by
  cases t with
  | nil => simp [finishes_nil, NumberState.next, Decimals]
  | cons c t =>
    by_cases hc : Digit c <;>
      simp [finishes_cons, NumberState.next, NumberState.type, isDigit_iff, hc, finishes_decimal2, Decimals]

/-- What follows the integer part. -/
def Tail (t : Bytes) : Prop := ∃ fraction exponent, t = fraction ++ exponent ∧ Fraction fraction ∧ Exponent exponent

theorem tail_cons : Tail (c :: t) ↔ c = 46 ∧ Decimals t ∨ Exponent (c :: t) := by
  constructor
  · rintro ⟨_, exponent, h, _ | @⟨digits, hnil, hdigits⟩, hexponent⟩
    · exact .inr (h ▸ hexponent)
    · cases h
      obtain ⟨d, digits, rfl⟩ := List.exists_cons_of_ne_nil hnil
      obtain ⟨hd, hdigits⟩ := List.forall_mem_cons.mp hdigits
      exact .inl ⟨rfl, d, _, rfl, hd, digits, exponent, rfl, hdigits, hexponent⟩
  · rintro (⟨rfl, d, _, rfl, hd, digits, exponent, rfl, hdigits, hexponent⟩ | h)
    · exact ⟨46 :: d :: digits, exponent, rfl, .digits ⟨by simp, List.forall_mem_cons.mpr ⟨hd, hdigits⟩⟩, hexponent⟩
    · exact ⟨[], c :: t, rfl, .none, h⟩

theorem tail_nil : Tail [] := ⟨[], [], rfl, .none, .none⟩

theorem tail_first (h : Tail (c :: t)) : ¬ Digit c := by
  rcases tail_cons.mp h with ⟨rfl, -⟩ | h
  · exact not_digit (by decide)
  · exact exponent_first h

/-- The type of a number with this tail. -/
def tailType (type : NumberType) (tail : Bytes) : NumberType := if tail = [] then type else .float

theorem finishes_zero : NumberState.zero.Finishes type t out ↔ Tail t ∧ tailType type t = out := by
  cases t with
  | nil => simp [finishes_nil, NumberState.next, NumberState.type, tail_nil, tailType]
  | cons c t =>
    rw [finishes_cons, tail_cons]
    by_cases hpoint : c = 46
    · simp [NumberState.next, NumberState.type, hpoint, finishes_decimal1, tailType, exponent_cons]
    · by_cases he : c = 101 ∨ c = 69
      · simp [NumberState.next, NumberState.type, hpoint, he, finishes_exponent, exponent_cons, tailType]
      · simp [NumberState.next, hpoint, he, exponent_cons]

theorem finishes_any1 : NumberState.any1.Finishes type t out ↔
    DigitsThen (fun tail => Tail tail ∧ tailType type tail = out) t := by
  induction t with
  | nil => simp [finishes_nil, digitsThen_nil, NumberState.next, NumberState.type, tail_nil, tailType]
  | cons c t ih =>
    rw [finishes_cons, digitsThen_cons]
    by_cases hc : Digit c
    · have htail : ¬ Tail (c :: t) := fun h => tail_first h hc
      simp [NumberState.next, NumberState.type, isDigit_iff, hc, ih, htail]
    · by_cases hpoint : c = 46
      · subst hpoint
        simp [NumberState.next, NumberState.type, isDigit_iff, hc, finishes_decimal1, tailType, tail_cons, exponent_cons]
      · by_cases he : c = 101 ∨ c = 69
        · simp [NumberState.next, NumberState.type, isDigit_iff, hc, hpoint, he, finishes_exponent, tail_cons, exponent_cons,
            tailType]
        · simp [NumberState.next, isDigit_iff, hc, hpoint, he, tail_cons, exponent_cons]

/-- A number without its sign. -/
def Unsigned (type : NumberType) (t : Bytes) (out : NumberType) : Prop :=
  ∃ int tail, t = int ++ tail ∧ IntPart int ∧ Tail tail ∧ tailType type tail = out

theorem finishes_int (hc : Digit c) :
    (if c = 48 then NumberState.zero else .any1).Finishes type t out ↔ Unsigned type (c :: t) out := by
  split_ifs with hzero
  · subst hzero
    rw [finishes_zero]
    constructor
    · rintro ⟨htail, htype⟩
      exact ⟨[48], t, rfl, .zero, htail, htype⟩
    · rintro ⟨_, tail, h, _ | ⟨-, hne, -⟩, htail, htype⟩
      · cases h
        exact ⟨htail, htype⟩
      · cases h
        exact absurd rfl hne
  · rw [finishes_any1]
    constructor
    · rintro ⟨digits, tail, rfl, hdigits, htail, htype⟩
      exact ⟨c :: digits, tail, rfl, .digits hc hzero hdigits, htail, htype⟩
    · rintro ⟨_, tail, h, _ | ⟨-, -, hdigits⟩, htail, htype⟩
      · cases h
        exact absurd rfl hzero
      · cases h
        exact ⟨_, tail, rfl, hdigits, htail, htype⟩

theorem intPart_first (h : IntPart t) : ∃ c t', t = c :: t' ∧ Digit c := by
  cases h with
  | zero => exact ⟨48, [], rfl, by decide, by decide⟩
  | digits hc => exact ⟨_, _, rfl, hc⟩

theorem finishes_minus : NumberState.minus.Finishes type t out ↔ Unsigned .integer t out := by
  have hfirst : Unsigned .integer t out → ∃ c t', t = c :: t' ∧ Digit c := by
    rintro ⟨int, tail, rfl, hint, -⟩
    obtain ⟨c, t', rfl, hc⟩ := intPart_first hint
    exact ⟨c, t' ++ tail, rfl, hc⟩
  cases t with
  | nil =>
    refine ⟨fun h => ?_, fun h => ?_⟩
    · simp [finishes_nil, NumberState.next] at h
    · obtain ⟨c, t', h, -⟩ := hfirst h
      cases h
  | cons c t =>
    rw [finishes_cons]
    by_cases hc : Digit c
    · rw [← finishes_int hc]
      by_cases hzero : c = 48 <;> simp [NumberState.next, NumberState.type, isDigit_iff, hc, hzero]
    · have hzero : c ≠ 48 := fun h => hc (h ▸ ⟨by decide, by decide⟩)
      refine ⟨fun h => ?_, fun h => ?_⟩
      · simp [NumberState.next, isDigit_iff, hc, hzero] at h
      · obtain ⟨d, t', h, hd⟩ := hfirst h
        cases h
        exact absurd hd hc

/-- **The language of `scan_number`**: a sign, an integer, a fraction and an
exponent. -/
theorem finishes_start (hc : c = 45 ∨ Digit c) : (numberStart c).Finishes .unsigned t out ↔
    ∃ sign unsigned, c :: t = sign ++ unsigned ∧ sign ∈ [[], [(45 : UInt8)]] ∧
      Unsigned (if sign = [] then .unsigned else .integer) unsigned out := by
  have hsign : (∃ sign unsigned, c :: t = sign ++ unsigned ∧ sign ∈ [[], [(45 : UInt8)]] ∧
      Unsigned (if sign = [] then .unsigned else .integer) unsigned out) ↔
      Unsigned .unsigned (c :: t) out ∨ c = 45 ∧ Unsigned .integer t out := by
    constructor
    · rintro ⟨sign, unsigned, h, hsign, hunsigned⟩
      simp only [List.mem_cons, List.not_mem_nil, or_false] at hsign
      rcases hsign with rfl | rfl
      · exact .inl (h ▸ hunsigned)
      · cases h
        exact .inr ⟨rfl, hunsigned⟩
    · rintro (h | ⟨rfl, h⟩)
      · exact ⟨[], c :: t, rfl, by simp, h⟩
      · exact ⟨[45], t, rfl, by simp, h⟩
  rw [hsign, numberStart]
  split_ifs with hminus hzero
  · have hunsigned : ¬ Unsigned .unsigned (c :: t) out := by
      rintro ⟨int, tail, h, hint, -⟩
      obtain ⟨d, t', rfl, hd⟩ := intPart_first hint
      cases h
      exact not_digit (by rw [hminus]; decide) hd
    simp [hminus ▸ hunsigned, hminus, finishes_minus]
  · have hint := @finishes_int .unsigned out c t (hc.resolve_left hminus)
    rw [if_pos hzero] at hint
    simp [hint, hminus]
  · have hint := @finishes_int .unsigned out c t (hc.resolve_left hminus)
    rw [if_neg hzero] at hint
    simp [hint, hminus]

theorem finishes_of_done (h : s.next none = .done) : s.Finishes type [] (s.type type) := finishes_nil.mpr ⟨h, rfl⟩

theorem next_none (s : NumberState) : s.next none = .done ∨ ∃ message, s.next none = .error message := by
  cases s <;> simp [NumberState.next]

theorem next_done (h : s.next (some c) = .done) : s.next none = .done := by
  cases s <;> simp only [NumberState.next] at h ⊢ <;> split_ifs at h

theorem numberLoop_sound {buffer : Bytes} {token : Token} (h : numberLoop strtod s type buffer l = (token, l')) :
    (∃ message, token = .parseError message) ∨
      ∃ t out, s.Finishes type t out ∧ token = numberToken strtod out (buffer ++ t) ∧ l.rest = t ++ l'.rest := by
  fun_induction numberLoop strtod s type buffer l with
  | case1 | case5 =>
    cases h
    exact .inl ⟨_, rfl⟩
  | case2 s _ _ _ _ _ herror =>
    cases h
    have hdone : s.next none = .done := by
      rcases next_none s with hdone | ⟨message, hmessage⟩
      · exact hdone
      · exact absurd hmessage (herror message)
    exact .inr ⟨[], _, finishes_of_done hdone, by simp, by simp⟩
  | case3 s type buffer l c l₁ hget s' hnext ih =>
    rcases ih h with herror | ⟨t, out, hfinishes, htoken, hrest⟩
    · exact .inl herror
    exact .inr ⟨c :: t, out, finishes_cons.mpr ⟨s', hnext, hfinishes⟩, by simp [htoken], by simp [(get_some hget).1, hrest]⟩
  | case4 s _ _ _ _ _ _ hnext =>
    cases h
    exact .inr ⟨[], _, finishes_of_done (next_done hnext), by simp, by simp⟩

/-- An integer is scanned to the type it fits, or to a `double`. -/
theorem integerToken_value {j : Json} {sign int : Bytes} (hsign : sign ∈ [[], [(45 : UInt8)]]) :
    (numberToken strtod (if sign = [] then .unsigned else .integer) (sign ++ int)).value = some j ↔
      Fits sign int ∧ j = .int (if sign = [] then digitsValue int else -digitsValue int) ∨
        ¬ Fits sign int ∧ ∃ x, strtod (sign ++ int) = some x ∧ j = .float x := by
  have hfits {P : Prop} [Decidable P] {token : Token} {k : Int} {t : Bytes} (htoken : token.value = some (.int k)) :
      (if P then token else .valueFloat (strtod t)).value = some j ↔
        P ∧ j = .int k ∨ ¬ P ∧ ∃ x, strtod t = some x ∧ j = .float x := by
    by_cases hP : P
    · simp [hP, htoken, eq_comm]
    · cases strtod t <;> simp [hP, Token.value, eq_comm]
  simp only [List.mem_cons, List.not_mem_nil, or_false] at hsign
  rcases hsign with rfl | rfl
  · rw [show Fits [] int = (digitsValue int < 2 ^ 64) from if_pos rfl]
    exact hfits rfl
  · rw [show Fits [45] int = (digitsValue int ≤ 2 ^ 63) from if_neg (by simp)]
    exact hfits rfl

/-- The numbers, as they are scanned. -/
theorem number_iff {j : Json} : Number strtod t j ↔ ∃ sign unsigned out, t = sign ++ unsigned ∧ sign ∈ [[], [(45 : UInt8)]] ∧
    Unsigned (if sign = [] then .unsigned else .integer) unsigned out ∧ (numberToken strtod out t).value = some j := by
  constructor
  · rintro (⟨hint, hfits⟩ | ⟨hint, hfits⟩ | @⟨sign, int, fraction, exponent, x, hsign, hint, hfraction, hexponent, hfits, hx⟩)
    · exact ⟨[], _, _, rfl, by simp, ⟨_, [], by simp, hint, tail_nil, rfl⟩,
        (integerToken_value (by simp)).mpr (.inl ⟨hfits, rfl⟩)⟩
    · exact ⟨[45], _, _, rfl, by simp, ⟨_, [], by simp, hint, tail_nil, rfl⟩,
        (integerToken_value (by simp)).mpr (.inl ⟨hfits, rfl⟩)⟩
    · refine ⟨sign, int ++ (fraction ++ exponent), _, by simp, hsign,
        ⟨int, fraction ++ exponent, rfl, hint, ⟨fraction, exponent, rfl, hfraction, hexponent⟩, rfl⟩, ?_⟩
      by_cases hnil : fraction ++ exponent = []
      · obtain ⟨rfl, rfl⟩ := List.append_eq_nil_iff.mp hnil
        simp only [List.append_nil] at hx ⊢
        exact (integerToken_value hsign).mpr (.inr ⟨hfits rfl rfl, x, hx, rfl⟩)
      · rw [tailType, if_neg hnil, numberToken, hx]
        rfl
  · rintro ⟨sign, _, out, rfl, hsign, ⟨int, _, rfl, hint, ⟨fraction, exponent, rfl, hfraction, hexponent⟩, rfl⟩, hvalue⟩
    by_cases hnil : fraction ++ exponent = []
    · obtain ⟨rfl, rfl⟩ := List.append_eq_nil_iff.mp hnil
      simp only [List.append_nil] at hvalue ⊢
      rcases (integerToken_value hsign).mp hvalue with ⟨hfits, rfl⟩ | ⟨hfits, x, hx, rfl⟩
      · simp only [List.mem_cons, List.not_mem_nil, or_false] at hsign
        rcases hsign with rfl | rfl
        · exact .unsigned hint hfits
        · exact .negative hint hfits
      · simpa using Number.float hsign hint hfraction hexponent (fun _ _ => hfits) (by simpa using hx)
    · have htext : sign ++ (int ++ (fraction ++ exponent)) = sign ++ int ++ fraction ++ exponent := by simp
      rw [tailType, if_neg hnil, numberToken, htext] at hvalue
      rw [htext]
      cases hx : strtod (sign ++ int ++ fraction ++ exponent) with
      | none =>
        rw [hx] at hvalue
        cases hvalue
      | some x =>
        rw [hx] at hvalue
        cases hvalue
        refine .float hsign hint hfraction hexponent (fun hf he => ?_) hx
        exact absurd (List.append_eq_nil_iff.mpr ⟨hf, he⟩) hnil

end Lexer

end AudioToolApi
