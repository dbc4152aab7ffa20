/-
What `dump` writes, `parse` reads back (`parse_dump`).

The values are those the program can hold (`Json.Valid`): integers of 64
bits, strings that are UTF-8, members by ascending key, and doubles that
`strtod` reads back from their digits.
-/
import AudioToolApi.Utilities.JsonTokens
import Mathlib.Algebra.Ring.Int.Defs

namespace AudioToolApi

variable {strtod : Bytes → Option Double}

/-- The keys of a `std::map`. -/
def Ascending (members : List (Bytes × Json)) : Prop := members.Pairwise fun m m' => m.1 < m'.1

/-- The values that `parse` can return. -/
inductive Json.Valid (strtod : Bytes → Option Double) : Json → Prop
  | null : Valid strtod .null
  | bool (b : Bool) : Valid strtod (.bool b)
  | int {i : Int} : -2 ^ 63 ≤ i → i < 2 ^ 64 → Valid strtod (.int i)
  | float {x : Double} : Lexer.isFloatLiteral x.digits = true → strtod x.digits = some x → Valid strtod (.float x)
  | string {s : Bytes} : AudioToolApi.Utf8 s → Valid strtod (.string s)
  | array {items : List Json} : (∀ j ∈ items, Valid strtod j) → Valid strtod (.array items)
  | object {members : List (Bytes × Json)} : Ascending members → (∀ m ∈ members, AudioToolApi.Utf8 m.1) →
      (∀ m ∈ members, Valid strtod m.2) → Valid strtod (.object members)

/-! ## Texts -/

theorem dumpEscapedFrom_eq {s : Bytes} : ∀ {state : Nat} (last : UInt8) (i : Nat), s.foldl utf8Step state = utf8Accept →
    dumpEscapedFrom state last i s = .ok (s.flatMap escapeByte) := by
  induction s with
  | nil => exact fun _ _ h => if_pos h
  | cons c s ih =>
    intro state last i h
    have hne : utf8Step state c ≠ utf8Reject := by
      intro hreject
      rw [List.foldl_cons, hreject, foldl_utf8_reject] at h
      cases h
    rw [dumpEscapedFrom, if_neg hne, ih c (i + 1) h]
    rfl

theorem dumpString_eq {s : Bytes} (hs : Utf8 s) : dumpString s = .ok (34 :: (s.flatMap escapeByte ++ [34])) := by
  rw [dumpString, dumpEscaped, dumpEscapedFrom_eq 0 0 hs]
  rfl

/-! ## The loop, one step at a time -/

theorem parseValue_beginObject {l l₁ l₂ : Lexer} {key : Bytes} (hkey : l.scan strtod = (.valueString key, l₁))
    (hcolon : l₁.scan strtod = (.nameSeparator, l₂)) (stack : List Frame) : parseValue strtod .beginObject l stack =
      parseValue strtod (l₂.scan strtod).1 (l₂.scan strtod).2 (.object [] key :: stack) := by
  rw [parseValue]
  split
  · rename_i h
    cases hkey.symm.trans h
  · rename_i h
    cases hkey.symm.trans h
    split
    · rename_i h
      cases hcolon.symm.trans h
      rfl
    · rename_i hne h
      cases hcolon.symm.trans h
      exact (hne rfl).elim
  · rename_i hne h
    cases hkey.symm.trans h
    exact (hne _ rfl).elim

theorem parseValue_emptyObject {l l₁ : Lexer} (hend : l.scan strtod = (.endObject, l₁)) (stack : List Frame) :
    parseValue strtod .beginObject l stack = parseState strtod (.object []) l₁ stack := by
  rw [parseValue]
  split
  · rename_i h
    cases hend.symm.trans h
    rfl
  · rename_i h
    cases hend.symm.trans h
  · rename_i hne _ h
    cases hend.symm.trans h
    exact (hne rfl).elim

theorem parseValue_beginArray {l : Lexer} (hitem : (l.scan strtod).1 ≠ .endArray) (stack : List Frame) :
    parseValue strtod .beginArray l stack =
      parseValue strtod (l.scan strtod).1 (l.scan strtod).2 (.array [] :: stack) := by
  rw [parseValue]
  split
  · rename_i h
    exact absurd (congrArg Prod.fst h) hitem
  · rename_i h
    rw [h]

theorem parseValue_emptyArray {l l₁ : Lexer} (hend : l.scan strtod = (.endArray, l₁)) (stack : List Frame) :
    parseValue strtod .beginArray l stack = parseState strtod (.array []) l₁ stack := by
  rw [parseValue]
  split
  · rename_i h
    cases hend.symm.trans h
    rfl
  · rename_i hne h
    cases hend.symm.trans h
    exact (hne rfl).elim

theorem parseValue_endArray (l : Lexer) (stack : List Frame) : parseValue strtod .endArray l stack =
    .error (l.syntaxError .endArray "'[', '\x7b', or a literal" "value") := by
  rw [parseValue] <;> simp

theorem parseState_nextItem {l l₁ : Lexer} (hcomma : l.scan strtod = (.valueSeparator, l₁)) (j : Json)
    (items : List Json) (stack : List Frame) : parseState strtod j l (.array items :: stack) =
      parseValue strtod (l₁.scan strtod).1 (l₁.scan strtod).2 (.array (items ++ [j]) :: stack) := by
  rw [parseState]
  split
  · rename_i h
    cases hcomma.symm.trans h
    rfl
  · rename_i h
    cases hcomma.symm.trans h
  · rename_i hne _ h
    cases hcomma.symm.trans h
    exact (hne rfl).elim

theorem parseState_endArray {l l₁ : Lexer} (hend : l.scan strtod = (.endArray, l₁)) (j : Json) (items : List Json)
    (stack : List Frame) : parseState strtod j l (.array items :: stack) =
      parseState strtod (.array (items ++ [j])) l₁ stack := by
  rw [parseState]
  split
  · rename_i h
    cases hend.symm.trans h
  · rename_i h
    cases hend.symm.trans h
    rfl
  · rename_i hne h
    cases hend.symm.trans h
    exact (hne rfl).elim

theorem parseState_nextMember {l l₁ l₂ l₃ : Lexer} {next : Bytes} (hcomma : l.scan strtod = (.valueSeparator, l₁))
    (hkey : l₁.scan strtod = (.valueString next, l₂)) (hcolon : l₂.scan strtod = (.nameSeparator, l₃)) (j : Json)
    (members : List (Bytes × Json)) (key : Bytes) (stack : List Frame) :
    parseState strtod j l (.object members key :: stack) =
      parseValue strtod (l₃.scan strtod).1 (l₃.scan strtod).2 (.object (insertMember key j members) next :: stack) := by
  rw [parseState]
  split
  · rename_i h
    cases hcomma.symm.trans h
    split
    · rename_i h
      cases hkey.symm.trans h
      split
      · rename_i h
        cases hcolon.symm.trans h
        rfl
      · rename_i hne h
        cases hcolon.symm.trans h
        exact (hne rfl).elim
    · rename_i hne h
      cases hkey.symm.trans h
      exact (hne _ rfl).elim
  · rename_i h
    cases hcomma.symm.trans h
  · rename_i hne _ h
    cases hcomma.symm.trans h
    exact (hne rfl).elim

theorem parseState_endObject {l l₁ : Lexer} (hend : l.scan strtod = (.endObject, l₁)) (j : Json)
    (members : List (Bytes × Json)) (key : Bytes) (stack : List Frame) :
    parseState strtod j l (.object members key :: stack) =
      parseState strtod (.object (insertMember key j members)) l₁ stack := by
  rw [parseState]
  split
  · rename_i h
    cases hend.symm.trans h
  · rename_i h
    cases hend.symm.trans h
    rfl
  · rename_i hne h
    cases hend.symm.trans h
    exact (hne rfl).elim

/-! ## Values -/

/-- Where the text `t` is next, `j` is the next value. -/
def Rereads (strtod : Bytes → Option Double) (j : Json) (t : Bytes) : Prop :=
  ∀ {l : Lexer} {rest : Bytes}, l.rest = t ++ rest → Lexer.EndsNumber rest → ∀ stack, ∃ l', l'.rest = rest ∧
    parseValue strtod (l.scan strtod).1 (l.scan strtod).2 stack = parseState strtod j l' stack

/-- A value of one token. -/
theorem Rereads.of_token {j : Json} {t : Bytes} (token : Token)
    (hscan : ∀ {l : Lexer} {rest : Bytes}, l.rest = t ++ rest → Lexer.EndsNumber rest →
      ∃ l', l.scan strtod = (token, l') ∧ l'.rest = rest)
    (hvalue : ∀ l stack, parseValue strtod token l stack = parseState strtod j l stack) : Rereads strtod j t := by
  intro l rest h hends stack
  obtain ⟨l', hl', hrest⟩ := hscan h hends
  exact ⟨l', hrest, by rw [hl', hvalue]⟩

theorem Rereads.int {i : Int} (hmin : -2 ^ 63 ≤ i) (hmax : i < 2 ^ 64) : Rereads strtod (.int i) (dumpInteger i) := by
  cases i with
  | ofNat n =>
    refine Rereads.of_token (.valueUnsigned n) (fun h hends => Lexer.scan_unsigned _ ?_ hends h) fun _ _ => by
      rw [parseValue]
      rfl
    exact Int.ofNat_lt.mp hmax
  | negSucc n =>
    refine Rereads.of_token (.valueInteger (.negSucc n)) (fun h hends => Lexer.scan_negative _ ?_ hends h) fun _ _ => by
      rw [parseValue]
    omega

theorem Rereads.string {s : Bytes} (hs : Utf8 s) : Rereads strtod (.string s) (34 :: (s.flatMap escapeByte ++ [34])) :=
  Rereads.of_token (.valueString s) (fun h _ => Lexer.scan_string _ hs (by simpa using h)) fun _ _ => by rw [parseValue]

theorem endsNumber_nil : Lexer.EndsNumber [] := by simp [Lexer.EndsNumber]

theorem endsNumber_cons {c : UInt8} (hc : c ∈ [(44 : UInt8), 93, 125]) (rest : Bytes) : Lexer.EndsNumber (c :: rest) := by
  intro d hd
  cases hd
  simp only [List.mem_cons, List.not_mem_nil, or_false] at hc
  rcases hc with rfl | rfl | rfl <;> decide

/-- The items that are left of an array. -/
theorem rereads_items {items : List Json} (h : ∀ j ∈ items, ∃ t, j.dump = .ok t ∧ Rereads strtod j t) :
    ∃ t, dumpItems items = .ok t ∧ (items ≠ [] → ∀ {l : Lexer} {rest : Bytes}, l.rest = t ++ 93 :: rest →
      ∀ done stack, ∃ l', l'.rest = rest ∧
        parseValue strtod (l.scan strtod).1 (l.scan strtod).2 (.array done :: stack) =
          parseState strtod (.array (done ++ items)) l' stack) := by
  induction items with
  | nil => exact ⟨[], rfl, fun h => absurd rfl h⟩
  | cons j items ih =>
    obtain ⟨t, hdump, hread⟩ := h j (by simp)
    obtain ⟨ts, hdumps, hreads⟩ := ih fun j' hj' => h j' (by simp [hj'])
    cases items with
    | nil =>
      refine ⟨t, hdump, fun _ l rest hrest done stack => ?_⟩
      obtain ⟨l₁, hrest₁, hvalue⟩ := hread hrest (endsNumber_cons (by simp) rest) (.array done :: stack)
      obtain ⟨l₂, hscan₂, hrest₂⟩ := Lexer.scan_structural strtod .endArray (by simp) hrest₁
      exact ⟨l₂, hrest₂, by rw [hvalue, parseState_endArray hscan₂]⟩
    | cons j' items =>
      refine ⟨t ++ text "," ++ ts, ?_, fun _ l rest hrest done stack => ?_⟩
      · rw [dumpItems, hdump, hdumps]
        · rfl
        · simp
      · rw [List.append_assoc, List.append_assoc] at hrest
        obtain ⟨l₁, hrest₁, hvalue⟩ := hread hrest (endsNumber_cons (by simp) _) (.array done :: stack)
        obtain ⟨l₂, hscan₂, hrest₂⟩ := Lexer.scan_structural strtod .valueSeparator (by simp) hrest₁
        obtain ⟨l₃, hrest₃, hvalues⟩ := hreads (by simp) hrest₂ (done ++ [j]) stack
        exact ⟨l₃, hrest₃, by rw [hvalue, parseState_nextItem hscan₂, hvalues, List.append_assoc]; rfl⟩

/-- A member that comes after the others. -/
theorem insertMember_last {key : Bytes} (j : Json) {members : List (Bytes × Json)} (h : ∀ m ∈ members, m.1 < key) :
    insertMember key j members = members ++ [(key, j)] := by
  induction members with
  | nil => rfl
  | cons m members ih =>
    have hlt : m.1 < key := h m (by simp)
    have hne : ¬ key = m.1 := by
      rintro rfl
      exact List.lt_irrefl _ hlt
    rw [insertMember, if_neg hne, if_neg (List.lt_asymm hlt), ih fun m' hm' => h m' (by simp [hm'])]
    rfl

/-- The members that are left of an object, from a key on. -/
theorem rereads_members {members : List (Bytes × Json)} (hkeys : ∀ m ∈ members, Utf8 m.1)
    (h : ∀ m ∈ members, ∃ t, m.2.dump = .ok t ∧ Rereads strtod m.2 t) :
    ∃ t, dumpMembers members = .ok t ∧ (members ≠ [] → ∀ {l : Lexer} {rest : Bytes}, l.rest = t ++ 125 :: rest →
      ∀ done stack, Ascending (done ++ members) → ∃ key l₁ l₂ l', l.scan strtod = (.valueString key, l₁) ∧
        l₁.scan strtod = (.nameSeparator, l₂) ∧ l'.rest = rest ∧
        parseValue strtod (l₂.scan strtod).1 (l₂.scan strtod).2 (.object done key :: stack) =
          parseState strtod (.object (done ++ members)) l' stack) := by
  induction members with
  | nil => exact ⟨[], rfl, fun h => absurd rfl h⟩
  | cons m members ih =>
    obtain ⟨key, j⟩ := m
    have hkey : Utf8 key := hkeys (key, j) (by simp)
    obtain ⟨t, hdump, hread⟩ := h (key, j) (by simp)
    obtain ⟨ts, hdumps, hreads⟩ := ih (fun m hm => hkeys m (by simp [hm])) fun m hm => h m (by simp [hm])
    -- The key and the value, whatever follows.
    have hmember : ∀ {l : Lexer} {rest : Bytes}, l.rest = 34 :: (key.flatMap escapeByte ++ [34]) ++ text ":" ++ t ++ rest →
        Lexer.EndsNumber rest → ∀ done stack, ∃ l₁ l₂ l', l.scan strtod = (.valueString key, l₁) ∧
          l₁.scan strtod = (.nameSeparator, l₂) ∧ l'.rest = rest ∧
          parseValue strtod (l₂.scan strtod).1 (l₂.scan strtod).2 (.object done key :: stack) =
            parseState strtod j l' (.object done key :: stack) := by
      intro l rest hrest hends done stack
      have hkeyRest : l.rest = 34 :: (key.flatMap escapeByte ++ 34 :: (text ":" ++ t ++ rest)) := by simpa using hrest
      obtain ⟨l₁, hscan₁, hrest₁⟩ := Lexer.scan_string strtod hkey hkeyRest
      obtain ⟨l₂, hscan₂, hrest₂⟩ := Lexer.scan_structural strtod .nameSeparator (by simp) hrest₁
      obtain ⟨l₃, hrest₃, hvalue⟩ := hread hrest₂ hends (.object done key :: stack)
      exact ⟨l₁, l₂, l₃, hscan₁, hscan₂, hrest₃, hvalue⟩
    have hinsert : ∀ {done}, Ascending (done ++ (key, j) :: members) →
        insertMember key j done = done ++ [(key, j)] := fun hdone =>
      insertMember_last j fun m hm => (List.pairwise_append.mp hdone).2.2 m hm (key, j) (by simp)
    cases members with
    | nil =>
      refine ⟨34 :: (key.flatMap escapeByte ++ [34]) ++ text ":" ++ t, ?_, fun _ l rest hrest done stack hdone => ?_⟩
      · rw [dumpMembers, dumpString_eq hkey, hdump]
        rfl
      · obtain ⟨l₁, l₂, l₃, hscan₁, hscan₂, hrest₃, hvalue⟩ :=
          hmember hrest (endsNumber_cons (by simp) rest) done stack
        obtain ⟨l₄, hscan₄, hrest₄⟩ := Lexer.scan_structural strtod .endObject (by simp) hrest₃
        exact ⟨key, l₁, l₂, l₄, hscan₁, hscan₂, hrest₄, by rw [hvalue, parseState_endObject hscan₄, hinsert hdone]⟩
    | cons m' members =>
      refine ⟨34 :: (key.flatMap escapeByte ++ [34]) ++ text ":" ++ t ++ text "," ++ ts, ?_,
        fun _ l rest hrest done stack hdone => ?_⟩
      · rw [dumpMembers, dumpString_eq hkey, hdump, hdumps]
        · rfl
        · simp
      · rw [List.append_assoc, List.append_assoc] at hrest
        obtain ⟨l₁, l₂, l₃, hscan₁, hscan₂, hrest₃, hvalue⟩ :=
          hmember hrest (endsNumber_cons (by simp) _) done stack
        obtain ⟨l₄, hscan₄, hrest₄⟩ := Lexer.scan_structural strtod .valueSeparator (by simp) hrest₃
        rw [← List.singleton_append, ← List.append_assoc] at hdone
        obtain ⟨key', l₅, l₆, l₇, hscan₅, hscan₆, hrest₇, hvalues⟩ :=
          hreads (by simp) hrest₄ (done ++ [(key, j)]) stack hdone
        refine ⟨key, l₁, l₂, l₇, hscan₁, hscan₂, hrest₇, ?_⟩
        rw [hvalue, parseState_nextMember hscan₄ hscan₅ hscan₆, hinsert (by simpa using hdone), hvalues]
        simp

/-- A value is read back, whatever surrounds it. -/
theorem rereads_value {j : Json} (hj : j.Valid strtod) : ∃ t, j.dump = .ok t ∧ Rereads strtod j t := by
  induction hj with
  | null =>
    refine ⟨_, rfl, Rereads.of_token .literalNull (fun h _ => Lexer.scan_literal strtod (by simp) h) fun _ _ => ?_⟩
    rw [parseValue]
  | bool b =>
    cases b with
    | true =>
      refine ⟨_, rfl, Rereads.of_token .literalTrue (fun h _ => Lexer.scan_literal strtod (by simp) h) fun _ _ => ?_⟩
      rw [parseValue]
    | false =>
      refine ⟨_, rfl, Rereads.of_token .literalFalse (fun h _ => Lexer.scan_literal strtod (by simp) h) fun _ _ => ?_⟩
      rw [parseValue]
  | int hmin hmax => exact ⟨_, rfl, Rereads.int hmin hmax⟩
  | @float x hdigits hstrtod =>
    refine ⟨_, rfl, Rereads.of_token (.valueFloat (some x)) (fun h hends => ?_) fun _ _ => ?_⟩
    · rw [← hstrtod]
      exact Lexer.scan_float strtod hdigits hends h
    · rw [parseValue]
  | string hs => exact ⟨_, dumpString_eq hs, Rereads.string hs⟩
  | @array items _ ih =>
    obtain ⟨t, hdump, hread⟩ := rereads_items ih
    refine ⟨text "[" ++ t ++ text "]", by rw [Json.dump, hdump]; rfl, fun {l rest} h _ stack => ?_⟩
    rw [List.append_assoc, List.append_assoc] at h
    obtain ⟨l₁, hscan₁, hrest₁⟩ := Lexer.scan_structural strtod .beginArray (by simp) h
    rw [hscan₁]
    by_cases hitems : items = []
    · subst hitems
      cases hdump
      obtain ⟨l₂, hscan₂, hrest₂⟩ := Lexer.scan_structural strtod .endArray (by simp) hrest₁
      exact ⟨l₂, hrest₂, parseValue_emptyArray hscan₂ stack⟩
    · -- The first item is no `]`: at the end of the stack it gives a value.
      have hitem : (l₁.scan strtod).1 ≠ .endArray := by
        intro hend
        obtain ⟨l₂, -, hvalue⟩ := hread hitems hrest₁ [] []
        rw [hend, parseValue_endArray, parseState] at hvalue
        cases hvalue
      obtain ⟨l₂, hrest₂, hvalue⟩ := hread hitems hrest₁ [] stack
      exact ⟨l₂, hrest₂, (parseValue_beginArray hitem stack).trans hvalue⟩
  | @object members hascending hkeys _ ih =>
    obtain ⟨t, hdump, hread⟩ := rereads_members hkeys ih
    refine ⟨text "\x7b" ++ t ++ text "\x7d", by rw [Json.dump, hdump]; rfl, fun {l rest} h _ stack => ?_⟩
    rw [List.append_assoc, List.append_assoc] at h
    obtain ⟨l₁, hscan₁, hrest₁⟩ := Lexer.scan_structural strtod .beginObject (by simp) h
    rw [hscan₁]
    by_cases hmembers : members = []
    · subst hmembers
      cases hdump
      obtain ⟨l₂, hscan₂, hrest₂⟩ := Lexer.scan_structural strtod .endObject (by simp) hrest₁
      exact ⟨l₂, hrest₂, parseValue_emptyObject hscan₂ stack⟩
    · obtain ⟨key, l₂, l₃, l₄, hscan₂, hscan₃, hrest₄, hvalue⟩ := hread hmembers hrest₁ [] stack hascending
      exact ⟨l₄, hrest₄, (parseValue_beginObject hscan₂ hscan₃ stack).trans hvalue⟩

/-! ## Whole texts -/

theorem scanFirst_of {l : Lexer} {c : UInt8} {rest : Bytes} (h : l.rest = c :: rest) (hc : c ≠ 0xEF) :
    l.scanFirst strtod = l.unget.scan strtod := by
  obtain ⟨l₁, hget, -⟩ := Lexer.get_cons h
  have hbom : l.skipBom = (true, l.unget) := by
    rw [Lexer.skipBom, hget]
    split
    · rename_i hfirst
      cases hfirst
      exact absurd rfl hc
    · rfl
  rw [Lexer.scanFirst, hbom]

/-- No value begins with the first byte of a byte order mark. -/
theorem Rereads.not_bom {j : Json} {rest : Bytes} : ¬ Rereads strtod j (0xEF :: rest) := by
  intro hread
  have hrest : ({ rest := 0xEF :: rest } : Lexer).rest = 0xEF :: rest ++ [] := by simp
  obtain ⟨l', -, hvalue⟩ := hread hrest endsNumber_nil []
  obtain ⟨l₁, hget, -⟩ := Lexer.get_cons hrest
  have hscan : Lexer.scan strtod { rest := 0xEF :: rest } = (.parseError (text "invalid literal"), l₁) := by
    rw [Lexer.scan, Lexer.skipSpaces_of hget (by decide)]
    rfl
  rw [hscan, parseValue, parseState] at hvalue
  cases hvalue

theorem scan_nil (strtod : Bytes → Option Double) {l : Lexer} (h : l.rest = []) : ∃ l', l.scan strtod = (.endOfInput, l') := by
  have hget : l.get = (none, { l with charsReadCurrentLine := l.charsReadCurrentLine + 1 }) := by
    rw [Lexer.get, h]
  have hskip : l.skipSpaces = (none, { l with charsReadCurrentLine := l.charsReadCurrentLine + 1 }) := by
    rw [Lexer.skipSpaces]
    split
    · rename_i h
      cases hget.symm.trans h
      rfl
    · rename_i h
      cases hget.symm.trans h
  exact ⟨_, by rw [Lexer.scan, hskip]⟩

theorem parse_of_rereads {j : Json} {t : Bytes} (hdump : j.dump = .ok t) (hread : Rereads strtod j t) :
    Json.parse strtod t = .ok j := by
  obtain ⟨c, rest, rfl⟩ := List.exists_cons_of_ne_nil (dump_ne_nil hdump)
  have hc : c ≠ 0xEF := by
    rintro rfl
    exact hread.not_bom
  have hrest : (Lexer.unget { rest := c :: rest }).rest = c :: rest ++ [] := by simp
  obtain ⟨l₁, hrest₁, hvalue⟩ := hread hrest endsNumber_nil []
  obtain ⟨l₂, hend⟩ := scan_nil strtod hrest₁
  rw [parseState] at hvalue
  rw [Json.parse, scanFirst_of rfl hc]
  simp only [hvalue, bind, Except.bind, hend]
  rfl

/-- **Round trip**: what `dump` writes of a value, `parse` reads as that
value. -/
theorem parse_dump {j : Json} (hj : j.Valid strtod) : ∃ t, j.dump = .ok t ∧ Json.parse strtod t = .ok j := by
  obtain ⟨t, hdump, hread⟩ := rereads_value hj
  exact ⟨t, hdump, parse_of_rereads hdump hread⟩

theorem oneHalf_ne : text "1.5" ≠ [] := by decide

/-- The double 1.5. -/
def oneHalf : Double := { toInt := 1, digits := text "1.5", digits_ne := oneHalf_ne }

/-- `strtod`, on the digits of 1.5. -/
def readOneHalf (digits : Bytes) : Option Double := if digits = text "1.5" then some oneHalf else none

/-- An object with a string that is escaped, a negative number and a
double. -/
def nestedJson : Json :=
  .object [(text "a", .array [.int (-1), .float oneHalf, .null]), (text "b", .string (text "é\n"))]

theorem nested_parse_dump : ∃ t, nestedJson.dump = .ok t ∧ Json.parse readOneHalf t = .ok nestedJson := by
  have harray : (Json.array [.int (-1), .float oneHalf, .null]).Valid readOneHalf := by
    refine .array (List.forall_mem_cons.mpr ⟨.int (by decide) (by decide), List.forall_mem_cons.mpr ⟨?_, ?_⟩⟩)
    · exact .float (by decide) (if_pos rfl)
    · exact List.forall_mem_cons.mpr ⟨.null, by simp⟩
  have hstring : (Json.string (text "é\n")).Valid readOneHalf := .string (by decide)
  refine parse_dump (.object ?_ ?_ ?_)
  · exact List.pairwise_pair.mpr (by decide)
  · exact List.forall_mem_cons.mpr ⟨by decide, List.forall_mem_cons.mpr ⟨by decide, by simp⟩⟩
  · exact List.forall_mem_cons.mpr ⟨harray, List.forall_mem_cons.mpr ⟨hstring, by simp⟩⟩

end AudioToolApi
