/-
What an error of `parse` says (`parse_error_quotes`): a text in ASCII that
quotes a part of the input as it is, but for control characters. So whether
the text is UTF-8 depends on the part that is quoted, and UTF-8 that is cut
is not.
-/
import AudioToolApi.Utilities.JsonParsed

namespace AudioToolApi

/-- Only bytes of ASCII. -/
def Ascii (s : Bytes) : Prop := ∀ c ∈ s, c < 128

instance : DecidablePred Ascii := fun s =>
  decidable_of_iff (s.all fun c => c.toNat.blt 128) <| by simp [Ascii, UInt8.lt_iff_toNat_lt]

theorem ascii_nil : Ascii [] := by simp [Ascii]

theorem Ascii.append {s t : Bytes} (hs : Ascii s) (ht : Ascii t) : Ascii (s ++ t) := by
  intro c hc
  exact (List.mem_append.mp hc).elim (hs c) (ht c)

/-! ## ASCII among UTF-8 -/

theorem utf8Type_ascii {c : UInt8} (hc : c < 128) : utf8Type c = 0 := by
  have hlt := UInt8.lt_iff_toNat_lt.mp hc
  refine if_pos (UInt8.le_iff_toNat_le.mpr ?_)
  simp only [UInt8.reduceToNat] at hlt ⊢
  omega

/-- ASCII is taken where a character may begin, and nowhere else. -/
theorem utf8Step_ascii {c : UInt8} (hc : c < 128) (state : Nat) :
    utf8Step state c = if state = utf8Accept then utf8Accept else utf8Reject := by
  have hrows : ∀ q : Fin 9, ((utf8Rows[q.val]?.getD [])[0]?).getD utf8Reject =
      if q.val = utf8Accept then utf8Accept else utf8Reject := by decide
  rw [utf8Step, utf8Type_ascii hc]
  by_cases hlt : state < 9
  · exact hrows ⟨state, hlt⟩
  · have hrow : utf8Rows[state]? = none := List.getElem?_eq_none (Nat.not_lt.mp hlt)
    have hne : state ≠ utf8Accept := by
      rintro rfl
      exact hlt (by decide)
    simp [hrow, hne]

theorem foldl_utf8_ascii {s : Bytes} (hs : Ascii s) (hne : s ≠ []) (state : Nat) :
    s.foldl utf8Step state = if state = utf8Accept then utf8Accept else utf8Reject := by
  obtain ⟨c, s, rfl⟩ := List.exists_cons_of_ne_nil hne
  rw [List.foldl_cons, utf8Step_ascii (hs c (by simp))]
  split
  · exact utf8_of_ascii fun d hd => hs d (by simp [hd])
  · exact foldl_utf8_reject s

theorem utf8_append_ascii {s t : Bytes} (ht : Ascii t) : Utf8 (s ++ t) ↔ Utf8 s := by
  by_cases hne : t = []
  · rw [hne, List.append_nil]
  · rw [Utf8, List.foldl_append, foldl_utf8_ascii ht hne, Utf8]
    split
    · exact iff_of_true rfl (by assumption)
    · exact iff_of_false (by decide) (by assumption)

/-! ## Quotes -/

theorem ascii_hexFour (c : UInt8) : Ascii (Lexer.hexFour c) := by
  have hdigits : Ascii (text "0123456789ABCDEF") := by decide
  have hpart : ∀ n, Ascii (((text "0123456789ABCDEF").drop n).take 1) := fun n d hd =>
    hdigits d (List.mem_of_mem_drop (List.mem_of_mem_take hd))
  have hzero : Ascii (text "00") := by decide
  exact hzero.append ((hpart _).append (hpart _))

/-- What is quoted is changed at control characters only, and in ASCII. -/
theorem utf8_quote (c : UInt8) (state : Nat) :
    (if c ≤ 0x1F then text "<U+" ++ Lexer.hexFour c ++ text ">" else [c]).foldl utf8Step state = utf8Step state c := by
  split
  · rename_i hc
    have hascii : Ascii (text "<U+" ++ Lexer.hexFour c ++ text ">") :=
      (Ascii.append (by decide) (ascii_hexFour c)).append (by decide)
    have hlt : c < 128 := UInt8.lt_of_le_of_lt hc (by decide)
    rw [foldl_utf8_ascii hascii (List.append_ne_nil_of_right_ne_nil _ (by decide)) state, utf8Step_ascii hlt]
  · rfl

theorem utf8_quoted (piece : Bytes) : Utf8 (Lexer.quoted piece) ↔ Utf8 piece := by
  have hfold : ∀ (s : Bytes) (state : Nat), (Lexer.quoted s).foldl utf8Step state = s.foldl utf8Step state := by
    intro s
    induction s with
    | nil => exact fun _ => rfl
    | cons c s ih =>
      intro state
      rw [Lexer.quoted, List.flatMap_cons, List.foldl_append, utf8_quote, List.foldl_cons]
      exact ih _
  rw [Utf8, hfold, Utf8]

/-! ## Messages -/

/-- The message of a token that is an error. -/
def Token.Told : Token → Prop
  | .parseError message => Ascii message
  | _ => True

namespace Lexer

variable {strtod : Bytes → Option Double} {l l' : Lexer}

theorem scanUnicode_told {message : Bytes} (h : l.scanUnicode = (.error message, l')) : Ascii message := by
  have hdigits : Ascii notFourHexDigits := by decide
  have hlow : Ascii notLowSurrogate := by decide
  have hhigh : Ascii (text "invalid string: surrogate U+DC00..U+DFFF must follow U+D800..U+DBFF") := by decide
  unfold scanUnicode at h
  split at h
  · cases h
    exact hdigits
  · split at h
    · split at h
      · split at h
        · split at h
          · cases h
            exact hdigits
          · split at h
            · cases h
            · cases h
              exact hlow
        · cases h
          exact hlow
      · cases h
        exact hlow
    · split at h
      · cases h
        exact hhigh
      · cases h

theorem scanEscape_told {message : Bytes} (h : l.scanEscape = (.error message, l')) : Ascii message := by
  have hforbidden : Ascii (text "invalid string: forbidden character after backslash") := by decide
  unfold scanEscape at h
  split at h
  · repeat (split at h; · cases h)
    split at h
    · exact scanUnicode_told h
    · cases h
      exact hforbidden
  · cases h
    exact hforbidden

theorem controlMessage_told {c : UInt8} (hc : c ≤ 0x1F) : Ascii (controlMessage c) := by
  have hall : ∀ i : Fin 32, Ascii (controlMessage (UInt8.ofNat i.val)) := by decide
  have hlt : c.toNat < 32 := Nat.lt_succ_of_le hc
  have h := hall ⟨c.toNat, hlt⟩
  rwa [UInt8.ofNat_toNat] at h

theorem scanString_told {buffer : Bytes} {t : Token} (h : scanString buffer l = (t, l')) : t.Told := by
  have hclosing : Ascii (text "invalid string: missing closing quote") := by decide
  have hill : Ascii illFormed := by decide
  fun_induction scanString buffer l with
  | case1 =>
    cases h
    exact hclosing
  | case2 =>
    cases h
    trivial
  | case3 _ _ _ _ _ _ _ _ ih => exact ih h
  | case4 _ _ _ _ _ hescape =>
    cases h
    exact scanEscape_told hescape
  | case5 _ _ _ _ _ _ _ hc =>
    cases h
    exact controlMessage_told hc
  | case6 | case8 =>
    cases h
    exact hill
  | case7 _ _ _ _ _ _ _ _ _ _ _ _ _ ih => exact ih h

theorem next_told {s : NumberState} {current : Option UInt8} {message : String} (h : s.next current = .error message) :
    Ascii (text message) := by
  have hall : ∀ m ∈ ["invalid number; expected digit after '-'", "invalid number; expected digit after '.'",
      "invalid number; expected '+', '-', or digit after exponent", "invalid number; expected digit after exponent sign"],
      Ascii (text m) := by decide
  refine hall message ?_
  cases s <;> cases current <;> simp only [NumberState.next] at h <;> grind

theorem numberLoop_told {s : NumberState} {type : NumberType} {buffer : Bytes} {t : Token}
    (h : numberLoop strtod s type buffer l = (t, l')) : t.Told := by
  have htoken : ∀ type buffer, (numberToken strtod type buffer).Told := by
    intro type buffer
    unfold numberToken
    repeat' split
    all_goals trivial
  fun_induction numberLoop strtod s type buffer l with
  | case1 _ _ _ _ _ _ _ hnext =>
    cases h
    exact next_told hnext
  | case2 | case4 =>
    cases h
    exact htoken ..
  | case3 _ _ _ _ _ _ _ _ _ ih => exact ih h
  | case5 _ _ _ _ _ _ _ _ hnext =>
    cases h
    exact next_told hnext

theorem told_of_isPlain {t : Token} (h : t.isPlain = true) : t.Told := by
  cases t with
  | parseError message =>
    have hinvalid : Ascii (text "invalid literal") := by decide
    rw [eq_of_beq h]
    exact hinvalid
  | _ => trivial

/-- Every message is ASCII. -/
theorem scan_told (l : Lexer) : (l.scan strtod).1.Told :=
  scan_elim (P := fun r => r.1.Told) (fun _ => trivial) (fun _ _ hplain => told_of_isPlain hplain)
    (fun _ literal _ hplain => told_of_isPlain (scanLiteral_isPlain hplain literal _))
    (fun _ => scanString_told rfl) fun _ _ => numberLoop_told rfl

theorem skipBom_took (l : Lexer) : Took l l.skipBom.2 := by
  unfold skipBom
  split
  · rename_i hfirst
    have hread := get_reads hfirst
    split
    · rename_i hsecond
      have hread := hread.trans (get_reads hsecond)
      split
      · rename_i hthird
        exact (hread.trans (get_reads hthird)).took
      · rename_i hthird
        exact (hread.trans (get_reads hthird)).took
    · rename_i hsecond
      exact (hread.trans (get_reads hsecond)).took
  · exact ⟨[], by simp, by simp⟩

theorem scanFirst_told (l : Lexer) : Took l (l.scanFirst strtod).2 ∧ (l.scanFirst strtod).1.Told := by
  have hbom : Ascii (text "invalid BOM; must be 0xEF 0xBB 0xBF if given") := by decide
  have htook := skipBom_took l
  unfold scanFirst
  split
  · rename_i l₁ hskip
    rw [hskip] at htook
    exact ⟨htook.trans (scan_took strtod l₁).1, scan_told l₁⟩
  · rename_i l₁ hskip
    rw [hskip] at htook
    exact ⟨htook, hbom⟩

end Lexer

/-! ## The texts -/

/-- ASCII, around a piece of the input. -/
def Quotes (piece what : Bytes) : Prop :=
  ∃ before after, what = before ++ Lexer.quoted piece ++ after ∧ Ascii before ∧ Ascii after

theorem Quotes.of_ascii {what : Bytes} (h : Ascii what) : Quotes [] what := ⟨what, [], by simp [Lexer.quoted], h, ascii_nil⟩

theorem Quotes.self (piece : Bytes) : Quotes piece (Lexer.quoted piece) := ⟨[], [], by simp, ascii_nil, ascii_nil⟩

theorem Quotes.ascii_append {piece s what : Bytes} (hs : Ascii s) (h : Quotes piece what) : Quotes piece (s ++ what) := by
  obtain ⟨before, after, rfl, hbefore, hafter⟩ := h
  exact ⟨s ++ before, after, by simp, hs.append hbefore, hafter⟩

theorem Quotes.append_ascii {piece s what : Bytes} (h : Quotes piece what) (hs : Ascii s) : Quotes piece (what ++ s) := by
  obtain ⟨before, after, rfl, hbefore, hafter⟩ := h
  exact ⟨before, after ++ s, by simp, hbefore, hafter.append hs⟩

theorem Quotes.utf8 {piece what : Bytes} (h : Quotes piece what) : Utf8 what ↔ Utf8 piece := by
  obtain ⟨before, after, rfl, hbefore, hafter⟩ := h
  rw [utf8_append_ascii hafter, utf8_append (utf8_of_ascii hbefore), utf8_quoted]

theorem decimal_ascii (n : Nat) : Ascii (decimal n) := by
  obtain ⟨c, digits, hdecimal, hc, hdigits, -⟩ := Lexer.decimal_spec n
  have hdigit : ∀ {d : UInt8}, Lexer.isDigit d = true → d < 128 := by
    intro d hd
    simp only [Lexer.isDigit, Bool.and_eq_true, decide_eq_true_eq] at hd
    exact UInt8.lt_of_le_of_lt hd.2 (by decide)
  rw [hdecimal]
  intro d hd
  rcases List.mem_cons.mp hd with rfl | hd
  · exact hdigit hc
  · exact hdigit (hdigits d hd)

theorem typeName_ascii (t : Token) : Ascii t.typeName := by
  cases t <;> simp only [Token.typeName] <;> decide

theorem Lexer.Took.isInfix {input : Bytes} {l : Lexer} (h : Took { rest := input } l) : l.tokenString <:+: input := by
  obtain ⟨bytes, hrest, hstring⟩ := h
  exact hstring.isInfix.trans ⟨[], l.rest, hrest.symm⟩

/-- What is quoted when this token is the last. -/
def Lexer.lastRead (l : Lexer) : Token → Bytes
  | .parseError _ => l.tokenString
  | _ => []

theorem exceptionMessage_quotes {expected context : Bytes} (l : Lexer) {last : Token} (hlast : last.Told)
    (hexpected : Ascii expected) (hcontext : Ascii context) :
    Quotes (l.lastRead last) (l.exceptionMessage last expected context) := by
  have hparsing : Ascii (text "syntax error while parsing ") := by decide
  have hdash : Ascii (text " - ") := by decide
  have hread : Ascii (text "; last read: '") := by decide
  have hquote : Ascii (text "'") := by decide
  have hunexpected : Ascii (text "unexpected ") := by decide
  have hsemicolon : Ascii (text "; expected ") := by decide
  have hafter : Ascii (if expected = [] then [] else text "; expected " ++ expected) := by
    split
    · exact ascii_nil
    · exact hsemicolon.append hexpected
  refine Quotes.append_ascii (Quotes.ascii_append ((hparsing.append hcontext).append hdash) ?_) hafter
  cases last with
  | parseError message => exact ((Quotes.self _).ascii_append (hlast.append hread)).append_ascii hquote
  | _ => exact .of_ascii (hunexpected.append (typeName_ascii _))

theorem syntaxError_quotes (l : Lexer) {last : Token} {expected context : String} (hlast : last.Told)
    (hexpected : Ascii (text expected)) (hcontext : Ascii (text context)) :
    Quotes (l.lastRead last) (l.syntaxError last expected context) := by
  have hstart : Ascii (text "[json.exception.parse_error.101] parse error at line ") := by decide
  have hcolumn : Ascii (text ", column ") := by decide
  have hcolon : Ascii (text ": ") := by decide
  exact (exceptionMessage_quotes l hlast hexpected hcontext).ascii_append
    ((((hstart.append (decimal_ascii _)).append hcolumn).append (decimal_ascii _)).append hcolon)

theorem numberOverflow_quotes (l : Lexer) : Quotes l.tokenString l.numberOverflow := by
  have hstart : Ascii (text "[json.exception.out_of_range.406] number overflow parsing '") := by decide
  have hquote : Ascii (text "'") := by decide
  exact ((Quotes.self _).ascii_append hstart).append_ascii hquote

theorem lastRead_isInfix {input : Bytes} {l : Lexer} (hl : Lexer.Took { rest := input } l) (last : Token) :
    l.lastRead last <:+: input := by
  cases last with
  | parseError message => exact hl.isInfix
  | _ => exact List.nil_infix

theorem kept_quotes (strtod : Bytes → Option Double) (input : Bytes) :
    Kept strtod (fun l => Lexer.Took { rest := input } l) Token.Told (fun _ => True)
      (fun what => ∃ piece, piece <:+: input ∧ Quotes piece what) where
  scan {l l' t} hl h := by
    have htook := (Lexer.scan_took strtod l).1
    have htold : (Lexer.scan strtod l).1.Told := Lexer.scan_told l
    rw [h] at htook htold
    exact ⟨hl.trans htook, htold⟩
  null := trivial
  bool _ := trivial
  unsigned _ := trivial
  integer _ := trivial
  float _ := trivial
  string _ := trivial
  array _ := trivial
  object _ _ := trivial
  syntaxError {l last} hl hlast {expected context} hmem := by
    have htexts : ∀ p ∈ [("':'", "object separator"), ("string literal", "object key"), ("", "value"),
        ("'[', '\x7b', or a literal", "value"), ("']'", "array"), ("'\x7d'", "object"), ("end of input", "value")],
        Ascii (text p.1) ∧ Ascii (text p.2) := by decide
    obtain ⟨hexpected, hcontext⟩ := htexts _ hmem
    exact ⟨_, lastRead_isInfix hl last, syntaxError_quotes l hlast hexpected hcontext⟩
  overflow {l} hl := ⟨_, hl.isInfix, numberOverflow_quotes l⟩

theorem quotes_of_parse {strtod : Bytes → Option Double} {input what : Bytes}
    (h : Json.parse strtod input = .error what) : ∃ piece, piece <:+: input ∧ Quotes piece what := by
  obtain ⟨htook, htold⟩ : Lexer.Took _ (Lexer.scanFirst strtod { rest := input }).2 ∧ _ := Lexer.scanFirst_told _
  have hkeeps := parse_keeps (kept_quotes strtod input) input htook htold
  rw [h] at hkeeps
  exact hkeeps

/-! ## A byte that begins no value -/

theorem Lexer.skipSpaces_spaces {spaces tail : Bytes} {c : UInt8} (hspaces : ∀ b ∈ spaces, isSpace b = true)
    (hc : isSpace c = false) : ∀ {l : Lexer}, l.rest = spaces ++ c :: tail →
      ∃ l', l.skipSpaces = (some c, l') ∧ l'.tokenString = l.tokenString ++ (spaces ++ [c]) := by
  induction spaces with
  | nil =>
    intro l h
    obtain ⟨l₁, hget, -⟩ := get_cons h
    exact ⟨l₁, skipSpaces_of hget hc, (get_some hget).2⟩
  | cons b spaces ih =>
    intro l h
    obtain ⟨l₁, hget, hrest₁⟩ := get_cons h
    obtain ⟨l₂, hskip, hstring⟩ := ih (fun d hd => hspaces d (by simp [hd])) hrest₁
    refine ⟨l₂, ?_, by simp [hstring, (get_some hget).2]⟩
    rw [skipSpaces]
    split
    · rename_i h
      cases hget.symm.trans h
    · rename_i h
      cases hget.symm.trans h
      rw [if_pos (hspaces b (by simp)), hskip]

/-- No token begins with a byte that is not ASCII. -/
theorem Lexer.scan_high (strtod : Bytes → Option Double) {l l' : Lexer} {c : UInt8} (hskip : l.skipSpaces = (some c, l'))
    (hc : 128 ≤ c) : l.scan strtod = (.parseError (text "invalid literal"), l') := by
  have hne : ∀ d : UInt8, d < 128 → c ≠ d := by
    rintro d hd rfl
    exact absurd hc (UInt8.not_le.mpr hd)
  have hdigit : isDigit c = false := by
    have hle := UInt8.le_iff_toNat_le.mp hc
    simp only [isDigit, Bool.and_eq_false_iff, decide_eq_false_iff_not, UInt8.not_le, UInt8.lt_iff_toNat_lt,
      UInt8.reduceToNat] at hle ⊢
    omega
  have hnumber : ¬ (decide (c = 45) || isDigit c) = true := by simp [hdigit, hne 45 (by decide)]
  rw [scan, hskip]
  simp only
  rw [if_neg (hne 91 (by decide)), if_neg (hne 93 (by decide)), if_neg (hne 123 (by decide)), if_neg (hne 125 (by decide)),
    if_neg (hne 58 (by decide)), if_neg (hne 44 (by decide)), if_neg (hne 116 (by decide)), if_neg (hne 102 (by decide)),
    if_neg (hne 110 (by decide)), if_neg (hne 34 (by decide)), if_neg hnumber, if_neg (hne 0 (by decide))]

theorem not_utf8_singleton {c : UInt8} (hc : 128 ≤ c) : ¬ Utf8 [c] := by
  rw [utf8_cons_iff]
  rintro ⟨ranges, tail, rest, hranges, htail, hnil, -⟩
  obtain ⟨rfl, -⟩ := List.append_eq_nil_iff.mp hnil.symm
  cases htail
  have hle := UInt8.le_iff_toNat_le.mp hc
  simp only [UInt8.reduceToNat] at hle
  rcases tailRanges_eq_some.mp hranges with ⟨h, -⟩ | ⟨-, -, h⟩ | ⟨-, -, h⟩ | ⟨-, -, h⟩
  · omega
  all_goals cases h

/-- A character that is not ASCII, before any value: it is quoted up to its
first byte. -/
theorem parse_stray (strtod : Bytes → Option Double) {spaces : Bytes} {c : UInt8} (tail : Bytes)
    (hspaces : ∀ b ∈ spaces, Lexer.isSpace b = true) (hc : 128 ≤ c) (hbom : c ≠ 0xEF) :
    ∃ what, Json.parse strtod (spaces ++ c :: tail) = .error what ∧ ¬ Utf8 what := by
  have hspace : Lexer.isSpace c = false := by
    have hne : ∀ d : UInt8, d < 128 → c ≠ d := by
      rintro d hd rfl
      exact absurd hc (UInt8.not_le.mpr hd)
    simp [Lexer.isSpace, hne 32 (by decide), hne 9 (by decide), hne 10 (by decide), hne 13 (by decide)]
  have hunget : (Lexer.unget { rest := spaces ++ c :: tail }).rest = spaces ++ c :: tail := by simp
  obtain ⟨l, hskip, hstring⟩ := Lexer.skipSpaces_spaces hspaces hspace hunget
  have hfirst : Lexer.scanFirst strtod { rest := spaces ++ c :: tail } = (.parseError (text "invalid literal"), l) := by
    rw [← Lexer.scan_high strtod hskip hc]
    cases spaces with
    | nil => exact scanFirst_of rfl hbom
    | cons b spaces =>
      refine scanFirst_of rfl ?_
      rintro rfl
      exact absurd (hspaces 0xEF (by simp)) (by decide)
  refine ⟨l.syntaxError (.parseError (text "invalid literal")) "" "value", ?_, ?_⟩
  · rw [Json.parse, hfirst]
    simp only
    rw [parseValue]
    rfl
  · have htold : (Token.parseError (text "invalid literal")).Told := Lexer.told_of_isPlain (beq_self_eq_true _)
    have hquotes : Quotes l.tokenString (l.syntaxError (.parseError (text "invalid literal")) "" "value") :=
      syntaxError_quotes l htold (by decide) (by decide)
    have hspacesAscii : Ascii spaces := by
      intro b hb
      have hb := hspaces b hb
      simp only [Lexer.isSpace, Bool.or_eq_true, decide_eq_true_eq] at hb
      rcases hb with ((rfl | rfl) | rfl) | rfl <;> decide
    rw [hquotes.utf8, hstring, Lexer.unget_tokenString, List.nil_append, utf8_append (utf8_of_ascii hspacesAscii)]
    exact not_utf8_singleton hc

/-- **What an error quotes** is a piece of the input; the rest of its text is
ASCII. So the text is UTF-8 if and only if the piece is. -/
theorem parse_error_quotes {strtod : Bytes → Option Double} {input what : Bytes}
    (h : Json.parse strtod input = .error what) : ∃ before piece after,
      what = before ++ Lexer.quoted piece ++ after ∧ Ascii before ∧ Ascii after ∧ piece <:+: input ∧
        (Utf8 what ↔ Utf8 piece) := by
  obtain ⟨piece, hpiece, hquotes⟩ := quotes_of_parse h
  have hiff := hquotes.utf8
  obtain ⟨before, after, rfl, hbefore, hafter⟩ := hquotes
  exact ⟨before, piece, after, rfl, hbefore, hafter, hpiece, hiff⟩

/-- Of `é`, only the first byte is quoted. -/
theorem half_character_quoted : ∃ what, Json.parse (fun _ => none) (text "é") = .error what ∧
    ∃ before piece after, what = before ++ Lexer.quoted piece ++ after ∧ Ascii before ∧ Ascii after ∧
      piece <:+: text "é" ∧ (Utf8 what ↔ Utf8 piece) := by
  have hspaces : ∀ b ∈ ([] : Bytes), Lexer.isSpace b = true := by simp
  obtain ⟨what, hreject, -⟩ := parse_stray (fun _ => none) (c := 0xC3) [0xA9] hspaces (by decide) (by decide)
  exact ⟨what, hreject, parse_error_quotes hreject⟩

end AudioToolApi
