/-
The parser of `nlohmann::json` (utilities/json.hpp, `parser` and
`json_sax_dom_parser`): a loop over tokens with a stack of the arrays and
objects it is in, and the texts of its errors.

In the source a container is in its parent from the start and filled there;
here it is put there when it is closed, which nothing sees in between.
-/
import AudioToolApi.Utilities.JsonLexer

namespace AudioToolApi

/-- `token_type_name`. -/
def Token.typeName : Token → Bytes
  | .literalTrue => text "true literal"
  | .literalFalse => text "false literal"
  | .literalNull => text "null literal"
  | .valueString _ => text "string literal"
  | .valueUnsigned _ | .valueInteger _ | .valueFloat _ => text "number literal"
  | .beginArray => text "'['"
  | .beginObject => text "'\x7b'"
  | .endArray => text "']'"
  | .endObject => text "'\x7d'"
  | .nameSeparator => text "':'"
  | .valueSeparator => text "','"
  | .parseError _ => text "<parse error>"
  | .endOfInput => text "end of input"

/-- What is still to come of the input is less by this much. -/
def Token.size : Token → Nat
  | .parseError _ | .endOfInput => 1
  | _ => 2

/-- A token that is known by its text, or a character that begins none. -/
def Token.isPlain : Token → Bool
  | .valueString _ | .valueUnsigned _ | .valueInteger _ | .valueFloat _ => false
  | .parseError message => message == text "invalid literal"
  | _ => true

namespace Lexer

/-- The loop of `get_token_string`. -/
def quoted (piece : Bytes) : Bytes :=
  piece.flatMap fun c => if c ≤ 0x1F then text "<U+" ++ hexFour c ++ text ">" else [c]

/-- `get_token_string`. -/
def getTokenString (l : Lexer) : Bytes := quoted l.tokenString

/-- `exception_message`; without a token that was expected, `expected` is
empty. -/
def exceptionMessage (l : Lexer) (last : Token) (expected context : Bytes) : Bytes :=
  text "syntax error while parsing " ++ context ++ text " - " ++
    (match last with
      | .parseError message => message ++ text "; last read: '" ++ l.getTokenString ++ text "'"
      | last => text "unexpected " ++ last.typeName) ++
    if expected = [] then [] else text "; expected " ++ expected

/-- `what()` of the `parse_error`. -/
def syntaxError (l : Lexer) (last : Token) (expected context : String) : Bytes :=
  text "[json.exception.parse_error.101] parse error at line " ++ decimal (l.linesRead + 1) ++ text ", column " ++
    decimal l.charsReadCurrentLine ++ text ": " ++ l.exceptionMessage last (text expected) (text context)

/-- `what()` of the `out_of_range`. -/
def numberOverflow (l : Lexer) : Bytes :=
  text "[json.exception.out_of_range.406] number overflow parsing '" ++ l.getTokenString ++ text "'"

/-! ## Tokens take something off the input -/

theorem scanLiteral_reads {token : Token} (literal : Bytes) : ∀ {l l' : Lexer} {t : Token},
    scanLiteral token literal l = (t, l') → Reads l l' := by
  induction literal with
  | nil =>
    intro l l' t h
    cases h
    exact .refl l
  | cons c literal ih =>
    intro l l' t h
    rw [scanLiteral] at h
    split at h
    rename_i hget
    split at h
    · exact (get_reads hget).trans (ih h)
    · cases h
      exact get_reads hget

/-- A literal that is not there is no token either. -/
theorem scanLiteral_isPlain {token : Token} (htoken : token.isPlain = true) (literal : Bytes) : ∀ (l : Lexer),
    (scanLiteral token literal l).1.isPlain = true := by
  induction literal with
  | nil => exact fun _ => htoken
  | cons c literal ih =>
    intro l
    rw [scanLiteral]
    split
    split
    · exact ih _
    · exact beq_self_eq_true _

theorem scanString_reads {buffer : Bytes} {l l' : Lexer} {t : Token} (h : scanString buffer l = (t, l')) : Reads l l' := by
  fun_induction scanString buffer l with
  | case1 _ _ _ hget =>
    cases h
    exact get_reads hget
  | case2 _ _ _ hget | case5 _ _ _ _ hget | case6 _ _ _ _ hget =>
    cases h
    exact get_reads hget
  | case3 _ _ _ _ _ hescape hget _ ih => exact ((get_reads hget).trans (scanEscape_reads hescape)).trans (ih h)
  | case4 _ _ _ _ _ hescape hget _ =>
    cases h
    exact (get_reads hget).trans (scanEscape_reads hescape)
  | case7 _ _ _ _ hget _ _ _ _ _ _ _ hnext ih =>
    exact ((get_reads hget).trans (nextByteInRange_reads _ hnext)).trans (ih h)
  | case8 _ _ _ _ hget _ _ _ _ _ _ hnext =>
    cases h
    exact (get_reads hget).trans (nextByteInRange_reads _ hnext)

theorem numberLoop_reads {strtod : Bytes → Option Double} {s : NumberState} {type : NumberType} {buffer : Bytes}
    {l l' : Lexer} {t : Token} (h : numberLoop strtod s type buffer l = (t, l')) : Reads l l' := by
  fun_induction numberLoop strtod s type buffer l with
  | case1 _ _ _ _ _ hget =>
    cases h
    exact get_reads hget
  | case2 _ _ _ l =>
    cases h
    exact ⟨[], by simp⟩
  | case3 _ _ _ _ _ _ hget _ _ ih => exact (get_reads hget).trans (ih h)
  | case4 _ _ _ l =>
    cases h
    exact ⟨[], by simp⟩
  | case5 _ _ _ _ _ _ hget =>
    cases h
    exact get_reads hget

theorem skipSpaces_reads {l l' : Lexer} {c : Option UInt8} (h : l.skipSpaces = (c, l')) : Reads l l' := by
  fun_induction skipSpaces l with
  | case1 _ _ hget | case3 _ _ _ hget =>
    cases h
    exact get_reads hget
  | case2 _ _ _ hget _ ih => exact (get_reads hget).trans (ih h)

theorem skipSpaces_some {l l' : Lexer} {c : UInt8} (h : l.skipSpaces = (some c, l')) :
    ∃ before, Reads l before ∧ before.get = (some c, l') := by
  fun_induction skipSpaces l with
  | case1 => cases h
  | case2 _ _ _ hget _ ih =>
    obtain ⟨before, hread, hlast⟩ := ih h
    exact ⟨before, (get_reads hget).trans hread, hlast⟩
  | case3 l _ _ hget =>
    cases h
    exact ⟨l, .refl l, hget⟩

/-- Once `reset`, `token_string` is the last part of what was read only. -/
def Took (l l' : Lexer) : Prop := ∃ bytes, l.rest = bytes ++ l'.rest ∧ l'.tokenString <:+ l.tokenString ++ bytes

theorem Reads.took {l l' : Lexer} (h : Reads l l') : Took l l' := by
  obtain ⟨bytes, hrest, hstring⟩ := h
  exact ⟨bytes, hrest, by simp [hstring]⟩

theorem Took.trans {l l' l'' : Lexer} (h : Took l l') (h' : Took l' l'') : Took l l'' := by
  obtain ⟨bytes, hrest, before, hstring⟩ := h
  obtain ⟨bytes', hrest', hstring'⟩ := h'
  refine ⟨bytes ++ bytes', by simp [hrest, hrest'], hstring'.trans ?_⟩
  rw [← List.append_assoc, ← hstring, List.append_assoc]
  exact List.suffix_append ..

theorem Took.le {l l' : Lexer} (h : Took l l') : l'.rest.length ≤ l.rest.length := by
  obtain ⟨bytes, hrest, -⟩ := h
  simp [hrest]

/-- What is read after a `reset` at a character that was just read. -/
theorem reset_took {l l' l'' : Lexer} {c : UInt8} (hget : l.get = (some c, l')) (h : Reads (l'.reset c) l'') : Took l' l'' := by
  obtain ⟨-, hlast⟩ := get_some hget
  obtain ⟨bytes, hrest, hstring⟩ := h
  refine ⟨bytes, hrest, ?_⟩
  simp only [reset] at hstring
  rw [hstring, hlast, List.append_assoc]
  exact List.suffix_append ..

/-- `c` was read, after whitespace. -/
def Skips (l : Lexer) (c : UInt8) (l' : Lexer) : Prop := ∃ before, Reads l before ∧ before.get = (some c, l')

theorem Skips.took {l l' : Lexer} {c : UInt8} (h : Skips l c l') : Took l l' := by
  obtain ⟨before, hread, hget⟩ := h
  exact hread.took.trans (get_reads hget).took

theorem Skips.lt {l l' : Lexer} {c : UInt8} (h : Skips l c l') : l'.rest.length < l.rest.length := by
  obtain ⟨before, hread, hget⟩ := h
  exact Nat.lt_of_lt_of_le (get_lt hget) hread.le

/-- **The ways a token is scanned**: the end, a character, a literal, a string
or a number. -/
theorem scan_elim {strtod : Bytes → Option Double} {P : Token × Lexer → Prop} {l : Lexer}
    (hend : ∀ {l'}, Reads l l' → P (.endOfInput, l'))
    (hplain : ∀ {c l'} token, Skips l c l' → token.isPlain = true → P (token, l'))
    (hliteral : ∀ {c l'} token literal, Skips l c l' → token.isPlain = true → P (scanLiteral token literal l'))
    (hstring : ∀ {l'}, Skips l 34 l' → P (scanString [] (l'.reset 34)))
    (hnumber : ∀ {c l'}, Skips l c l' → c = 45 ∨ isDigit c = true → P (scanNumber strtod c (l'.reset c))) :
    P (l.scan strtod) := by
  unfold scan
  split
  · rename_i hskip
    exact hend (skipSpaces_reads hskip)
  · rename_i c l₁ hskip
    have hskips : Skips l c l₁ := skipSpaces_some hskip
    iterate 6 refine iteInduction (fun _ => hplain _ hskips rfl) fun _ => ?_
    iterate 3 refine iteInduction (fun _ => hliteral _ _ hskips rfl) fun _ => ?_
    refine iteInduction (fun hc => ?_) fun _ => ?_
    · subst hc
      exact hstring hskips
    refine iteInduction (fun hc => hnumber hskips (by simpa using hc)) fun _ => ?_
    exact iteInduction (fun _ => hplain _ hskips rfl) fun _ => hplain _ hskips (by decide)

/-- **What a token takes**: all but the end and an error take something. -/
theorem scan_took (strtod : Bytes → Option Double) (l : Lexer) :
    Took l (l.scan strtod).2 ∧ 2 * (l.scan strtod).2.rest.length + (l.scan strtod).1.size ≤ 2 * l.rest.length + 1 := by
  have hafter : ∀ {c l₁} {r : Token × Lexer}, Skips l c l₁ → Took l₁ r.2 →
      Took l r.2 ∧ 2 * r.2.rest.length + r.1.size ≤ 2 * l.rest.length + 1 := by
    intro c l₁ r hskips htook
    have hlt := hskips.lt
    have hle := htook.le
    have hsize : r.1.size ≤ 2 := by cases r.1 <;> simp [Token.size]
    exact ⟨hskips.took.trans htook, by omega⟩
  refine scan_elim (P := fun r => Took l r.2 ∧ 2 * r.2.rest.length + r.1.size ≤ 2 * l.rest.length + 1) ?_ ?_ ?_ ?_ ?_
  · intro l' hread
    have hle := hread.le
    exact ⟨hread.took, by simp [Token.size]; omega⟩
  · intro c l' token hskips _
    exact hafter hskips (Reads.refl l').took
  · intro c l' token literal hskips _
    exact hafter hskips (scanLiteral_reads literal rfl).took
  · intro l' hskips
    obtain ⟨before, -, hget⟩ := id hskips
    exact hafter hskips (reset_took hget (scanString_reads rfl))
  · intro c l' hskips _
    obtain ⟨before, -, hget⟩ := id hskips
    exact hafter hskips (reset_took hget (numberLoop_reads rfl))

theorem scan_size {strtod : Bytes → Option Double} {l l' : Lexer} {t : Token} (h : l.scan strtod = (t, l')) :
    2 * l'.rest.length + t.size ≤ 2 * l.rest.length + 1 := by
  have hsize := (scan_took strtod l).2
  rwa [h] at hsize

end Lexer

/-! ## The loop -/

/-- An array or object that is being filled; the value of `key` is to come. -/
inductive Frame
  | array (items : List Json)
  | object (members : List (Bytes × Json)) (key : Bytes)

mutual

/-- The `switch` of `sax_parse_internal`, on the last token. -/
def parseValue (strtod : Bytes → Option Double) (last : Token) (l : Lexer) (stack : List Frame) :
    Except Bytes (Json × Lexer) :=
  match last with
  | .beginObject =>
    match _hkey : l.scan strtod with
    | (.endObject, l₁) => parseState strtod (.object []) l₁ stack
    | (.valueString key, l₁) =>
      match _hcolon : l₁.scan strtod with
      | (.nameSeparator, l₂) =>
        match _hvalue : l₂.scan strtod with
        | (last, l₃) => parseValue strtod last l₃ (.object [] key :: stack)
      | (last, l₂) => .error (l₂.syntaxError last "':'" "object separator")
    | (last, l₁) => .error (l₁.syntaxError last "string literal" "object key")
  | .beginArray =>
    match _hitem : l.scan strtod with
    | (.endArray, l₁) => parseState strtod (.array []) l₁ stack
    | (last, l₁) => parseValue strtod last l₁ (.array [] :: stack)
  | .valueFloat none => .error l.numberOverflow
  | .valueFloat (some x) => parseState strtod (.float x) l stack
  | .literalFalse => parseState strtod (.bool false) l stack
  | .literalNull => parseState strtod .null l stack
  | .literalTrue => parseState strtod (.bool true) l stack
  | .valueInteger i => parseState strtod (.int i) l stack
  | .valueString s => parseState strtod (.string s) l stack
  | .valueUnsigned n => parseState strtod (.int n) l stack
  | .parseError message => .error (l.syntaxError (.parseError message) "" "value")
  | last => .error (l.syntaxError last "'[', '\x7b', or a literal" "value")
termination_by 2 * l.rest.length + last.size
decreasing_by
  · have hkey : 2 * l₁.rest.length + 2 ≤ 2 * l.rest.length + 1 := Lexer.scan_size _hkey
    exact Nat.lt_succ_of_le (by omega)
  · have hkey : 2 * l₁.rest.length + 2 ≤ 2 * l.rest.length + 1 := Lexer.scan_size _hkey
    have hcolon : 2 * l₂.rest.length + 2 ≤ 2 * l₁.rest.length + 1 := Lexer.scan_size _hcolon
    have hvalue := Lexer.scan_size _hvalue
    exact Nat.lt_succ_of_le (by omega)
  · have hitem : 2 * l₁.rest.length + 2 ≤ 2 * l.rest.length + 1 := Lexer.scan_size _hitem
    exact Nat.lt_succ_of_le (by omega)
  · have hitem := Lexer.scan_size _hitem
    exact Nat.lt_succ_of_le (by omega)
  all_goals exact Nat.lt_succ_self _

/-- The evaluation of `states`, once the value `j` is complete. -/
def parseState (strtod : Bytes → Option Double) (j : Json) (l : Lexer) (stack : List Frame) :
    Except Bytes (Json × Lexer) :=
  match stack with
  | [] => .ok (j, l)
  | .array items :: stack =>
    match _hnext : l.scan strtod with
    | (.valueSeparator, l₁) =>
      match _hitem : l₁.scan strtod with
      | (last, l₂) => parseValue strtod last l₂ (.array (items ++ [j]) :: stack)
    | (.endArray, l₁) => parseState strtod (.array (items ++ [j])) l₁ stack
    | (last, l₁) => .error (l₁.syntaxError last "']'" "array")
  | .object members key :: stack =>
    match _hnext : l.scan strtod with
    | (.valueSeparator, l₁) =>
      match _hkey : l₁.scan strtod with
      | (.valueString next, l₂) =>
        match _hcolon : l₂.scan strtod with
        | (.nameSeparator, l₃) =>
          match _hvalue : l₃.scan strtod with
          | (last, l₄) => parseValue strtod last l₄ (.object (insertMember key j members) next :: stack)
        | (last, l₃) => .error (l₃.syntaxError last "':'" "object separator")
      | (last, l₂) => .error (l₂.syntaxError last "string literal" "object key")
    | (.endObject, l₁) => parseState strtod (.object (insertMember key j members)) l₁ stack
    | (last, l₁) => .error (l₁.syntaxError last "'\x7d'" "object")
termination_by 2 * l.rest.length + 1
decreasing_by
  · have hnext := Lexer.scan_size _hnext
    have hitem := Lexer.scan_size _hitem
    simp only [Token.size] at hnext
    omega
  · have hnext := Lexer.scan_size _hnext
    simp only [Token.size] at hnext
    omega
  · have hnext := Lexer.scan_size _hnext
    have hkey := Lexer.scan_size _hkey
    have hcolon := Lexer.scan_size _hcolon
    have hvalue := Lexer.scan_size _hvalue
    simp only [Token.size] at hnext hkey hcolon
    omega
  · have hnext := Lexer.scan_size _hnext
    simp only [Token.size] at hnext
    omega

end

/-- `nlohmann::json::parse`. -/
def Json.parse (strtod : Bytes → Option Double) (input : Bytes) : Except Bytes Json := do
  let (first, l) := Lexer.scanFirst strtod { rest := input }
  let (j, l) ← parseValue strtod first l []
  match l.scan strtod with
  | (.endOfInput, _) => return j
  | (last, l) => throw (l.syntaxError last "end of input" "value")

end AudioToolApi
