/-
The scanner of `nlohmann::json` (utilities/json.hpp, `lexer`), token by token.

A character that is read to end a number and given back (`unget`) is not
taken off `rest`. `strtod` is a parameter; `none` is a number that is not
finite. The decimal point of the locale is `.`.
-/
import AudioToolApi.Utilities.Json
import AudioToolApi.Utilities.Utf8Chars

namespace AudioToolApi

/-- `lexer`: what is left of the input, and what the error texts say of what
was read. -/
structure Lexer where
  rest : Bytes
  /-- `token_string`. -/
  tokenString : Bytes := []
  linesRead : Nat := 0
  charsReadCurrentLine : Nat := 0

/-- `token_type`, with the value of a string or number. -/
inductive Token
  | literalTrue | literalFalse | literalNull
  | valueString (s : Bytes)
  | valueUnsigned (n : Nat)
  | valueInteger (i : Int)
  | valueFloat (x : Option Double)
  | beginArray | beginObject | endArray | endObject | nameSeparator | valueSeparator
  | parseError (message : Bytes)
  | endOfInput
  deriving DecidableEq

namespace Lexer

/-! ## Input -/

/-- `get`; `none` is the end of the input. -/
def get (l : Lexer) : Option UInt8 × Lexer :=
  match l.rest with
  | [] => (none, { l with charsReadCurrentLine := l.charsReadCurrentLine + 1 })
  | c :: rest =>
    if c = LF then
      (some c, { rest, tokenString := l.tokenString ++ [c], linesRead := l.linesRead + 1, charsReadCurrentLine := 0 })
    else
      (some c, { l with
        rest, tokenString := l.tokenString ++ [c], charsReadCurrentLine := l.charsReadCurrentLine + 1 })

/-- After `get` and `unget`: the place in the line is lost at its end. -/
def unget (l : Lexer) : Lexer := if l.rest.head? = some LF then { l with charsReadCurrentLine := 0 } else l

/-- `reset`, after the character `c`. -/
def reset (l : Lexer) (c : UInt8) : Lexer := { l with tokenString := [c] }

/-- What was read on the way from `l` to `l'` is off the input and in
`token_string`. -/
def Reads (l l' : Lexer) : Prop := ∃ bytes, l.rest = bytes ++ l'.rest ∧ l'.tokenString = l.tokenString ++ bytes

theorem Reads.refl (l : Lexer) : Reads l l := ⟨[], by simp⟩

theorem Reads.trans {l l' l'' : Lexer} (h : Reads l l') (h' : Reads l' l'') : Reads l l'' := by
  obtain ⟨bytes, hrest, hstring⟩ := h
  obtain ⟨bytes', hrest', hstring'⟩ := h'
  exact ⟨bytes ++ bytes', by simp [hrest, hrest'], by simp [hstring, hstring']⟩

theorem Reads.le {l l' : Lexer} (h : Reads l l') : l'.rest.length ≤ l.rest.length := by
  obtain ⟨bytes, hrest, -⟩ := h
  simp [hrest]

theorem get_some {l l' : Lexer} {c : UInt8} (h : l.get = (some c, l')) :
    l.rest = c :: l'.rest ∧ l'.tokenString = l.tokenString ++ [c] := by
  unfold get at h
  split at h
  · cases h
  · rename_i hrest
    split at h <;> cases h <;> exact ⟨hrest, rfl⟩

theorem get_none {l l' : Lexer} (h : l.get = (none, l')) :
    l.rest = [] ∧ l'.rest = [] ∧ l'.tokenString = l.tokenString := by
  unfold get at h
  split at h
  · rename_i hrest
    cases h
    exact ⟨hrest, hrest, rfl⟩
  · split at h <;> cases h

theorem get_reads {l l' : Lexer} {c : Option UInt8} (h : l.get = (c, l')) : Reads l l' := by
  cases c with
  | some c =>
    obtain ⟨hrest, hstring⟩ := get_some h
    exact ⟨[c], hrest, hstring⟩
  | none =>
    obtain ⟨hrest, hrest', hstring⟩ := get_none h
    exact ⟨[], by simp [hrest, hrest'], by simp [hstring]⟩

theorem get_lt {l l' : Lexer} {c : UInt8} (h : l.get = (some c, l')) : l'.rest.length < l.rest.length := by
  simp [(get_some h).1]

@[simp] theorem unget_rest (l : Lexer) : l.unget.rest = l.rest := by
  unfold unget
  split <;> rfl

@[simp] theorem unget_tokenString (l : Lexer) : l.unget.tokenString = l.tokenString := by
  unfold unget
  split <;> rfl

/-! ## Strings -/

def hexValue (c : UInt8) : Option Nat :=
  if 48 ≤ c ∧ c ≤ 57 then some (c.toNat - 0x30)
  else if 65 ≤ c ∧ c ≤ 70 then some (c.toNat - 0x37)
  else if 97 ≤ c ∧ c ≤ 102 then some (c.toNat - 0x57)
  else none

/-- The loop of `get_codepoint`; `none` is -1. -/
def codepointLoop (codepoint : Nat) : List Nat → Lexer → Option Nat × Lexer
  | [], l => (some codepoint, l)
  | factor :: factors, l =>
    match l.get with
    | (some c, l') =>
      match hexValue c with
      | some d => codepointLoop (codepoint + (d <<< factor)) factors l'
      | none => (none, l')
    | (none, l') => (none, l')

def getCodepoint (l : Lexer) : Option Nat × Lexer := codepointLoop 0 [12, 8, 4, 0] l

def notFourHexDigits : Bytes := text "invalid string: '\\u' must be followed by 4 hex digits"

def notLowSurrogate : Bytes := text "invalid string: surrogate U+DC00..U+DFFF must be followed by U+DC00..U+DFFF"

/-- What follows `\u`: the bytes that are added. -/
def scanUnicode (l : Lexer) : Except Bytes Bytes × Lexer :=
  match l.getCodepoint with
  | (none, l) => (.error notFourHexDigits, l)
  | (some codepoint1, l) =>
    if 0xD800 ≤ codepoint1 ∧ codepoint1 ≤ 0xDBFF then
      match l.get with
      | (some 92, l) =>
        match l.get with
        | (some 117, l) =>
          match l.getCodepoint with
          | (none, l) => (.error notFourHexDigits, l)
          | (some codepoint2, l) =>
            if 0xDC00 ≤ codepoint2 ∧ codepoint2 ≤ 0xDFFF then
              (.ok (codepointBytes ((codepoint1 <<< 10) + codepoint2 - 0x35FDC00)), l)
            else (.error notLowSurrogate, l)
        | (_, l) => (.error notLowSurrogate, l)
      | (_, l) => (.error notLowSurrogate, l)
    else if 0xDC00 ≤ codepoint1 ∧ codepoint1 ≤ 0xDFFF then
      (.error (text "invalid string: surrogate U+DC00..U+DFFF must follow U+D800..U+DBFF"), l)
    else (.ok (codepointBytes codepoint1), l)

/-- What follows a backslash. -/
def scanEscape (l : Lexer) : Except Bytes Bytes × Lexer :=
  match l.get with
  | (some c, l) =>
    if c = 34 then (.ok [34], l)
    else if c = 92 then (.ok [92], l)
    else if c = 47 then (.ok [47], l)
    else if c = 98 then (.ok [8], l)
    else if c = 102 then (.ok [12], l)
    else if c = 110 then (.ok [10], l)
    else if c = 114 then (.ok [13], l)
    else if c = 116 then (.ok [9], l)
    else if c = 117 then l.scanUnicode
    else (.error (text "invalid string: forbidden character after backslash"), l)
  | (none, l) => (.error (text "invalid string: forbidden character after backslash"), l)

/-- The names of the control characters. -/
def controlNames : List String :=
  ["NUL", "SOH", "STX", "ETX", "EOT", "ENQ", "ACK", "BEL", "BS", "HT", "LF", "VT", "FF", "CR", "SO", "SI", "DLE", "DC1",
    "DC2", "DC3", "DC4", "NAK", "SYN", "ETB", "CAN", "EM", "SUB", "ESC", "FS", "GS", "RS", "US"]

/-- `%.4X`. -/
def hexFour (c : UInt8) : Bytes := text "00" ++ hexByte c

/-- The text for a control character that is not escaped. -/
def controlMessage (c : UInt8) : Bytes :=
  let short : Bytes :=
    if c = 8 then text " or \\b" else if c = 9 then text " or \\t" else if c = 10 then text " or \\n"
    else if c = 12 then text " or \\f" else if c = 13 then text " or \\r" else []
  text "invalid string: control character U+" ++ hexFour c ++ text " (" ++
    text ((controlNames[c.toNat]?).getD "") ++ text ") must be escaped to \\u" ++ hexFour c ++ short

def illFormed : Bytes := text "invalid string: ill-formed UTF-8 byte"

/-- `next_byte_in_range`: the bytes that are added after the first. -/
def nextByteInRange : List (Nat × Nat) → Lexer → Option Bytes × Lexer
  | [], l => (some [], l)
  | range :: ranges, l =>
    match l.get with
    | (some c, l) =>
      if InRange range c then
        match nextByteInRange ranges l with
        | (some bytes, l) => (some (c :: bytes), l)
        | (none, l) => (none, l)
      else (none, l)
    | (none, l) => (none, l)

theorem codepointLoop_reads (factors : List Nat) : ∀ {codepoint : Nat} {l l' : Lexer} {r : Option Nat},
    codepointLoop codepoint factors l = (r, l') → Reads l l' := by
  induction factors with
  | nil =>
    intro codepoint l l' r h
    cases h
    exact .refl l
  | cons factor factors ih =>
    intro codepoint l l' r h
    rw [codepointLoop] at h
    split at h
    · rename_i hget
      split at h
      · exact (get_reads hget).trans (ih h)
      · cases h
        exact get_reads hget
    · rename_i hget
      cases h
      exact get_reads hget

theorem getCodepoint_reads {l l' : Lexer} {r : Option Nat} (h : l.getCodepoint = (r, l')) : Reads l l' :=
  codepointLoop_reads _ h

theorem scanUnicode_reads {l l' : Lexer} {r : Except Bytes Bytes} (h : l.scanUnicode = (r, l')) : Reads l l' := by
  unfold scanUnicode at h
  split at h
  · rename_i hfirst
    cases h
    exact getCodepoint_reads hfirst
  · rename_i hfirst
    have hread := getCodepoint_reads hfirst
    split at h
    · split at h
      · rename_i hget
        have hread := hread.trans (get_reads hget)
        split at h
        · rename_i hget'
          have hread := hread.trans (get_reads hget')
          split at h
          · rename_i hsecond
            cases h
            exact hread.trans (getCodepoint_reads hsecond)
          · rename_i hsecond
            have hread := hread.trans (getCodepoint_reads hsecond)
            split at h <;> cases h <;> exact hread
        · rename_i hget'
          cases h
          exact hread.trans (get_reads hget')
      · rename_i hget
        cases h
        exact hread.trans (get_reads hget)
    · split at h <;> cases h <;> exact hread

theorem scanEscape_reads {l l' : Lexer} {r : Except Bytes Bytes} (h : l.scanEscape = (r, l')) : Reads l l' := by
  unfold scanEscape at h
  split at h
  · rename_i hget
    have hread := get_reads hget
    repeat (split at h; · cases h; exact hread)
    split at h
    · exact hread.trans (scanUnicode_reads h)
    · cases h
      exact hread
  · rename_i hget
    cases h
    exact get_reads hget

theorem nextByteInRange_reads (ranges : List (Nat × Nat)) : ∀ {l l' : Lexer} {r : Option Bytes},
    nextByteInRange ranges l = (r, l') → Reads l l' := by
  induction ranges with
  | nil =>
    intro l l' r h
    cases h
    exact .refl l
  | cons range ranges ih =>
    intro l l' r h
    rw [nextByteInRange] at h
    split at h
    · rename_i hget
      have hread := get_reads hget
      split at h
      · split at h <;> rename_i hnext <;> cases h <;> exact hread.trans (ih hnext)
      · cases h
        exact hread
    · rename_i hget
      cases h
      exact get_reads hget

/-- The loop of `scan_string`, with `token_buffer`. -/
def scanString (buffer : Bytes) (l : Lexer) : Token × Lexer :=
  match _hget : l.get with
  | (none, l') => (.parseError (text "invalid string: missing closing quote"), l')
  | (some c, l') =>
    if c = 34 then (.valueString buffer, l')
    else if c = 92 then
      match _hescape : l'.scanEscape with
      | (.ok bytes, l'') => scanString (buffer ++ bytes) l''
      | (.error message, l'') => (.parseError message, l'')
    else if c ≤ 0x1F then (.parseError (controlMessage c), l')
    else
      match tailRanges c.toNat with
      | none => (.parseError illFormed, l')
      | some ranges =>
        match _hnext : nextByteInRange ranges l' with
        | (some bytes, l'') => scanString (buffer ++ c :: bytes) l''
        | (none, l'') => (.parseError illFormed, l'')
termination_by l.rest.length
decreasing_by
  · exact Nat.lt_of_le_of_lt (scanEscape_reads _hescape).le (get_lt _hget)
  · exact Nat.lt_of_le_of_lt (nextByteInRange_reads _ _hnext).le (get_lt _hget)

/-! ## Numbers -/

/-- The labels of `scan_number`. -/
inductive NumberState | minus | zero | any1 | decimal1 | decimal2 | exponent | sign | any2
  deriving DecidableEq, Repr

/-- `number_type`. -/
inductive NumberType | unsigned | integer | float
  deriving DecidableEq, Repr

/-- Where a `goto` leads, or the text of an error. -/
inductive Goto
  | state (s : NumberState)
  | done
  | error (message : String)
  deriving DecidableEq, Repr

def isDigit (c : UInt8) : Bool := 48 ≤ c && c ≤ 57

/-- The type once the label is reached. -/
def NumberState.type (s : NumberState) (type : NumberType) : NumberType :=
  match s with
  | .minus => .integer
  | .decimal1 | .exponent => .float
  | _ => type

/-- The `switch (get())` of each label. -/
def NumberState.next (s : NumberState) (current : Option UInt8) : Goto :=
  match s, current with
  | .minus, none => .error "invalid number; expected digit after '-'"
  | .minus, some c =>
    if c = 48 then .state .zero else if isDigit c then .state .any1
    else .error "invalid number; expected digit after '-'"
  | .zero, none | .any1, none => .done
  | .zero, some c =>
    if c = 46 then .state .decimal1 else if c = 101 ∨ c = 69 then .state .exponent else .done
  | .any1, some c =>
    if isDigit c then .state .any1 else if c = 46 then .state .decimal1
    else if c = 101 ∨ c = 69 then .state .exponent else .done
  | .decimal1, none => .error "invalid number; expected digit after '.'"
  | .decimal1, some c => if isDigit c then .state .decimal2 else .error "invalid number; expected digit after '.'"
  | .decimal2, none => .done
  | .decimal2, some c =>
    if isDigit c then .state .decimal2 else if c = 101 ∨ c = 69 then .state .exponent else .done
  | .exponent, none => .error "invalid number; expected '+', '-', or digit after exponent"
  | .exponent, some c =>
    if c = 43 ∨ c = 45 then .state .sign else if isDigit c then .state .any2
    else .error "invalid number; expected '+', '-', or digit after exponent"
  | .sign, none => .error "invalid number; expected digit after exponent sign"
  | .sign, some c =>
    if isDigit c then .state .any2 else .error "invalid number; expected digit after exponent sign"
  | .any2, none => .done
  | .any2, some c => if isDigit c then .state .any2 else .done

/-- The value of a string of digits. -/
def digitsValue (digits : Bytes) : Nat := digits.foldl (fun n c => 10 * n + (c.toNat - 48)) 0

/-- `scan_number_done`: what does not fit is read as a `double`. -/
def numberToken (strtod : Bytes → Option Double) (type : NumberType) (buffer : Bytes) : Token :=
  match type with
  | .unsigned => if digitsValue buffer < 2 ^ 64 then .valueUnsigned (digitsValue buffer) else .valueFloat (strtod buffer)
  | .integer =>
    if digitsValue buffer.tail ≤ 2 ^ 63 then .valueInteger (-digitsValue buffer.tail) else .valueFloat (strtod buffer)
  | .float => .valueFloat (strtod buffer)

/-- `scan_number` from a label on. -/
def numberLoop (strtod : Bytes → Option Double) (s : NumberState) (type : NumberType) (buffer : Bytes) (l : Lexer) :
    Token × Lexer :=
  match _hget : l.get with
  | (none, l') =>
    match s.next none with
    | .error message => (.parseError (text message), l')
    | _ => (numberToken strtod (s.type type) buffer, l.unget)
  | (some c, l') =>
    match s.next (some c) with
    | .state s' => numberLoop strtod s' (s.type type) (buffer ++ [c]) l'
    | .done => (numberToken strtod (s.type type) buffer, l.unget)
    | .error message => (.parseError (text message), l')
termination_by l.rest.length
decreasing_by exact get_lt _hget

/-- The label for the first character. -/
def numberStart (c : UInt8) : NumberState := if c = 45 then .minus else if c = 48 then .zero else .any1

/-- `scan_number`, at the character `c`. -/
def scanNumber (strtod : Bytes → Option Double) (c : UInt8) (l : Lexer) : Token × Lexer :=
  numberLoop strtod (numberStart c) .unsigned [c] l

/-! ## Tokens -/

/-- `scan_literal`, after its first character. -/
def scanLiteral (token : Token) : Bytes → Lexer → Token × Lexer
  | [], l => (token, l)
  | c :: literal, l =>
    match l.get with
    | (current, l) => if current = some c then scanLiteral token literal l else (.parseError (text "invalid literal"), l)

def isSpace (c : UInt8) : Bool := c = 32 || c = 9 || c = 10 || c = 13

/-- The first character that is no whitespace. -/
def skipSpaces (l : Lexer) : Option UInt8 × Lexer :=
  match _hget : l.get with
  | (none, l') => (none, l')
  | (some c, l') => if isSpace c then skipSpaces l' else (some c, l')
termination_by l.rest.length
decreasing_by exact get_lt _hget

/-- `scan`, after its byte order mark. -/
def scan (strtod : Bytes → Option Double) (l : Lexer) : Token × Lexer :=
  match l.skipSpaces with
  | (none, l) => (.endOfInput, l)
  | (some c, l) =>
    if c = 91 then (.beginArray, l)
    else if c = 93 then (.endArray, l)
    else if c = 123 then (.beginObject, l)
    else if c = 125 then (.endObject, l)
    else if c = 58 then (.nameSeparator, l)
    else if c = 44 then (.valueSeparator, l)
    else if c = 116 then scanLiteral .literalTrue (text "rue") l
    else if c = 102 then scanLiteral .literalFalse (text "alse") l
    else if c = 110 then scanLiteral .literalNull (text "ull") l
    else if c = 34 then scanString [] (l.reset c)
    else if c = 45 || isDigit c then scanNumber strtod c (l.reset c)
    else if c = 0 then (.endOfInput, l)
    else (.parseError (text "invalid literal"), l)

/-- `skip_bom`. -/
def skipBom (l : Lexer) : Bool × Lexer :=
  match l.get with
  | (some 0xEF, l) =>
    match l.get with
    | (some 0xBB, l) =>
      match l.get with
      | (some 0xBF, l) => (true, l)
      | (_, l) => (false, l)
    | (_, l) => (false, l)
  | _ => (true, l.unget)

/-- The first `scan`. -/
def scanFirst (strtod : Bytes → Option Double) (l : Lexer) : Token × Lexer :=
  match l.skipBom with
  | (true, l) => l.scan strtod
  | (false, l) => (.parseError (text "invalid BOM; must be 0xEF 0xBB 0xBF if given"), l)

end Lexer

end AudioToolApi
