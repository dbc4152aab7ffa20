/-
`parse` and the grammar: a text is parsed, and to this value, if and only if
it spells it (`parse_iff`).

A value that is spelled is read, whatever follows it, and the loop goes on
with it (`Rereads`); the other way round, wherever the loop gets to its end, a
value was spelled next, and the loop went on with it.
-/
import AudioToolApi.Utilities.JsonScanned

namespace AudioToolApi

open Grammar Lexer

variable {strtod : Bytes → Option Double} {l : Lexer} {rest : Bytes}

/-! ## Spelled texts are read -/

theorem commas_one (part : Bytes) : commas [part] = part := by simp [commas]

theorem commas_cons (part next : Bytes) (parts : List Bytes) :
    commas (part :: next :: parts) = part ++ 44 :: commas (next :: parts) := by
  simp [commas, List.intercalate]

/-- The members, as they are put into a `std::map` one after the other. -/
def putMembers (members : List (Bytes × Json)) (more : List Member) : List (Bytes × Json) :=
  more.foldl (fun done m => insertMember m.key m.item.value done) members

theorem jsonify_members (members : List Member) :
    jsonify (members.map fun m => (m.key, m.item.value)) = .object (putMembers [] members) := by
  rw [jsonify, List.foldl_map]
  rfl

/-- What can follow a value: whitespace, and what ends it. -/
theorem endsNumber_spaces {w : Bytes} (hw : Spaces w) (hrest : EndsNumber rest) : EndsNumber (w ++ rest) := by
  cases w with
  | nil => exact hrest
  | cons d w =>
    intro e he
    cases he
    have hd := hw d List.mem_cons_self
    simp only [List.mem_cons, List.not_mem_nil, or_false] at hd
    rcases hd with rfl | rfl | rfl | rfl <;> decide

/-- A character that is a token, after whitespace. -/
theorem scan_mark {c : UInt8} (strtod : Bytes → Option Double) (token : Token) (hc : (c, token) ∈ structuralTokens)
    {w : Bytes} (hw : Spaces w) (h : l.rest = w ++ c :: rest) : ∃ l', l.scan strtod = (token, l') ∧ l'.rest = rest := by
  obtain ⟨l₁, hrest₁, hscan₁⟩ := scan_spaces strtod hw h
  obtain ⟨l₂, hscan₂, hrest₂⟩ := scan_structural strtod token hc hrest₁
  exact ⟨l₂, hscan₁.trans hscan₂, hrest₂⟩

/-- An item, up to the whitespace after it. -/
theorem item_read {i : Item} (hi : i.Spaced) (hread : Rereads strtod i.value i.text) {c : UInt8}
    (hc : c ∈ [(44 : UInt8), 93, 125]) (h : l.rest = i.bytes ++ c :: rest) (stack : List Frame) :
    ∃ l', l'.rest = i.after ++ c :: rest ∧
      parseValue strtod (l.scan strtod).1 (l.scan strtod).2 stack = parseState strtod i.value l' stack := by
  obtain ⟨hbefore, hafter⟩ := hi
  rw [Item.bytes, List.append_assoc, List.append_assoc] at h
  obtain ⟨l₁, hrest₁, hscan⟩ := scan_spaces strtod hbefore h
  rw [hscan]
  exact hread hrest₁ (endsNumber_spaces hafter (endsNumber_cons hc rest)) stack

theorem items_read {items : List Item} (hspaced : ∀ i ∈ items, i.Spaced)
    (hread : ∀ i ∈ items, Rereads strtod i.value i.text) (hitems : items ≠ []) (done : List Json) (stack : List Frame)
    (h : l.rest = commas (items.map Item.bytes) ++ 93 :: rest) : ∃ l', l'.rest = rest ∧
      parseValue strtod (l.scan strtod).1 (l.scan strtod).2 (.array done :: stack) =
        parseState strtod (.array (done ++ items.map Item.value)) l' stack := by
  induction items generalizing l done with
  | nil => exact absurd rfl hitems
  | cons i items ih =>
    obtain ⟨hi, hspaced⟩ := List.forall_mem_cons.mp hspaced
    obtain ⟨hvalue, hread⟩ := List.forall_mem_cons.mp hread
    cases items with
    | nil =>
      rw [List.map_singleton, commas_one] at h
      obtain ⟨l₁, hrest₁, hloop⟩ := item_read hi hvalue (by simp) h (.array done :: stack)
      obtain ⟨l₂, hscan₂, hrest₂⟩ := scan_mark strtod .endArray (by decide) hi.2 hrest₁
      exact ⟨l₂, hrest₂, by rw [hloop, parseState_endArray hscan₂]; rfl⟩
    | cons next items =>
      rw [List.map_cons, List.map_cons, commas_cons, List.append_assoc, List.cons_append, ← List.map_cons] at h
      obtain ⟨l₁, hrest₁, hloop⟩ := item_read hi hvalue (by simp) h (.array done :: stack)
      obtain ⟨l₂, hscan₂, hrest₂⟩ := scan_mark strtod .valueSeparator (by decide) hi.2 hrest₁
      obtain ⟨l₃, hrest₃, hloop₃⟩ := ih hspaced hread (by simp) (done ++ [i.value]) hrest₂
      exact ⟨l₃, hrest₃, by rw [hloop, parseState_nextItem hscan₂, hloop₃, List.append_assoc]; rfl⟩

/-- A key with its colon. -/
theorem key_read {m : Member} (hm : m.Formed) (h : l.rest = m.bytes ++ rest) : ∃ l₁ l₂,
    l.scan strtod = (.valueString m.key, l₁) ∧ l₁.scan strtod = (.nameSeparator, l₂) ∧ l₂.rest = m.item.bytes ++ rest := by
  obtain ⟨hbefore, hkey, hafter, -⟩ := hm
  have htext : l.rest = m.before ++ (34 :: m.keyText ++ 34 :: (m.after ++ 58 :: (m.item.bytes ++ rest))) := by
    simpa [Member.bytes] using h
  obtain ⟨l₁, hrest₁, hscan₁⟩ := scan_spaces strtod hbefore htext
  obtain ⟨l₂, hscan₂, hrest₂⟩ := scan_chars strtod hkey hrest₁
  obtain ⟨l₃, hscan₃, hrest₃⟩ := scan_mark strtod .nameSeparator (by decide) hafter hrest₂
  exact ⟨l₂, l₃, hscan₁.trans hscan₂, hscan₃, hrest₃⟩

theorem members_read {members : List Member} (hformed : ∀ m ∈ members, m.Formed)
    (hread : ∀ m ∈ members, Rereads strtod m.item.value m.item.text) (hmembers : members ≠ [])
    (done : List (Bytes × Json)) (stack : List Frame) (h : l.rest = commas (members.map Member.bytes) ++ 125 :: rest) :
    ∃ key l₁ l₂ l', l.scan strtod = (.valueString key, l₁) ∧ l₁.scan strtod = (.nameSeparator, l₂) ∧ l'.rest = rest ∧
      parseValue strtod (l₂.scan strtod).1 (l₂.scan strtod).2 (.object done key :: stack) =
        parseState strtod (.object (putMembers done members)) l' stack := by
  induction members generalizing l done with
  | nil => exact absurd rfl hmembers
  | cons m members ih =>
    obtain ⟨hm, hformed⟩ := List.forall_mem_cons.mp hformed
    obtain ⟨hvalue, hread⟩ := List.forall_mem_cons.mp hread
    have hspaced : m.item.Spaced := hm.2.2.2
    cases members with
    | nil =>
      rw [List.map_singleton, commas_one] at h
      obtain ⟨l₁, l₂, hscan₁, hscan₂, hrest₂⟩ := key_read hm h
      obtain ⟨l₃, hrest₃, hloop⟩ := item_read hspaced hvalue (by simp) hrest₂ (.object done m.key :: stack)
      obtain ⟨l₄, hscan₄, hrest₄⟩ := scan_mark strtod .endObject (by decide) hspaced.2 hrest₃
      exact ⟨m.key, l₁, l₂, l₄, hscan₁, hscan₂, hrest₄, by rw [hloop, parseState_endObject hscan₄]; rfl⟩
    | cons next members =>
      rw [List.map_cons, List.map_cons, commas_cons, List.append_assoc, List.cons_append, ← List.map_cons] at h
      obtain ⟨l₁, l₂, hscan₁, hscan₂, hrest₂⟩ := key_read hm h
      obtain ⟨l₃, hrest₃, hloop⟩ := item_read hspaced hvalue (by simp) hrest₂ (.object done m.key :: stack)
      obtain ⟨l₄, hscan₄, hrest₄⟩ := scan_mark strtod .valueSeparator (by decide) hspaced.2 hrest₃
      obtain ⟨key, l₅, l₆, l₇, hscan₅, hscan₆, hrest₇, hloop₇⟩ :=
        ih hformed hread (by simp) (insertMember m.key m.item.value done) hrest₄
      exact ⟨m.key, l₁, l₂, l₇, hscan₁, hscan₂, hrest₇,
        by rw [hloop, parseState_nextMember hscan₄ hscan₅ hscan₆, hloop₇]; rfl⟩

/-- A token that is a value. -/
theorem parseValue_token {token : Token} {j : Json} {stack : List Frame} (h : token.value = some j) :
    parseValue strtod token l stack = parseState strtod j l stack := by
  cases token with
  | literalTrue | literalFalse | literalNull | valueString | valueInteger =>
    cases h
    rw [parseValue]
  | valueUnsigned n =>
    cases h
    rw [parseValue]
  | valueFloat x =>
    cases x with
    | none => cases h
    | some x =>
      cases h
      rw [parseValue]
  | _ => cases h

/-- **A spelled value is read**, whatever surrounds it. -/
theorem value_read {t : Bytes} {j : Json} (h : Value strtod t j) : Rereads strtod j t := by
  induction h with
  | null =>
    exact Rereads.of_token .literalNull (fun h _ => scan_literal strtod (by simp) h) fun _ _ => parseValue_token rfl
  | true =>
    exact Rereads.of_token .literalTrue (fun h _ => scan_literal strtod (by simp) h) fun _ _ => parseValue_token rfl
  | false =>
    exact Rereads.of_token .literalFalse (fun h _ => scan_literal strtod (by simp) h) fun _ _ => parseValue_token rfl
  | number hj =>
    intro l rest h hends stack
    obtain ⟨token, l', hscan, hvalue, hrest⟩ := scan_numberText hj hends h
    exact ⟨l', hrest, by rw [hscan, parseValue_token hvalue]⟩
  | @string t s hs =>
    refine Rereads.of_token (.valueString s) (fun h _ => ?_) fun _ _ => parseValue_token rfl
    exact scan_chars strtod hs (by simpa using h)
  | @emptyArray w hw =>
    intro l rest h _ stack
    rw [List.append_assoc, List.singleton_append] at h
    obtain ⟨l₁, hscan₁, hrest₁⟩ := scan_structural strtod .beginArray (by simp) h
    obtain ⟨l₂, hscan₂, hrest₂⟩ := scan_mark strtod .endArray (by decide) hw hrest₁
    exact ⟨l₂, hrest₂, by rw [hscan₁]; exact parseValue_emptyArray hscan₂ stack⟩
  | @array items hitems hspaced _ ih =>
    intro l rest h _ stack
    rw [List.append_assoc, List.singleton_append] at h
    obtain ⟨l₁, hscan₁, hrest₁⟩ := scan_structural strtod .beginArray (by simp) h
    -- The first item is no `]`: at the end of the stack it gives a value.
    have hitem : (l₁.scan strtod).1 ≠ .endArray := by
      intro hend
      obtain ⟨l₂, -, hloop⟩ := items_read hspaced ih hitems [] [] hrest₁
      rw [hend, parseValue_endArray, parseState] at hloop
      cases hloop
    obtain ⟨l₂, hrest₂, hloop⟩ := items_read hspaced ih hitems [] stack hrest₁
    exact ⟨l₂, hrest₂, by rw [hscan₁]; exact (parseValue_beginArray hitem stack).trans hloop⟩
  | @emptyObject w hw =>
    intro l rest h _ stack
    rw [List.append_assoc, List.singleton_append] at h
    obtain ⟨l₁, hscan₁, hrest₁⟩ := scan_structural strtod .beginObject (by simp) h
    obtain ⟨l₂, hscan₂, hrest₂⟩ := scan_mark strtod .endObject (by decide) hw hrest₁
    exact ⟨l₂, hrest₂, by rw [hscan₁]; exact parseValue_emptyObject hscan₂ stack⟩
  | @object members hmembers hformed _ ih =>
    intro l rest h _ stack
    rw [List.append_assoc, List.singleton_append] at h
    obtain ⟨l₁, hscan₁, hrest₁⟩ := scan_structural strtod .beginObject (by simp) h
    obtain ⟨key, l₂, l₃, l₄, hscan₂, hscan₃, hrest₄, hloop⟩ := members_read hformed ih hmembers [] stack hrest₁
    refine ⟨l₄, hrest₄, ?_⟩
    rw [hscan₁, jsonify_members]
    exact (parseValue_beginObject hscan₂ hscan₃ stack).trans hloop

/-! ## What is read was spelled -/

variable {stack : List Frame} {r : Json × Lexer} {j : Json}

theorem parseValue_beginObject_ok (h : parseValue strtod .beginObject l stack = .ok r) :
    (∃ l₁, l.scan strtod = (.endObject, l₁) ∧ parseState strtod (.object []) l₁ stack = .ok r) ∨
      ∃ key l₁ l₂, l.scan strtod = (.valueString key, l₁) ∧ l₁.scan strtod = (.nameSeparator, l₂) ∧
        parseValue strtod (l₂.scan strtod).1 (l₂.scan strtod).2 (.object [] key :: stack) = .ok r := by
  rw [parseValue] at h
  split at h
  · rename_i l₁ hend
    exact .inl ⟨l₁, hend, h⟩
  · rename_i key l₁ hkey
    split at h
    · rename_i l₂ hcolon
      exact .inr ⟨key, l₁, l₂, hkey, hcolon, h⟩
    · cases h
  · cases h

theorem parseState_array_ok {items : List Json} (h : parseState strtod j l (.array items :: stack) = .ok r) :
    (∃ l₁, l.scan strtod = (.valueSeparator, l₁) ∧
      parseValue strtod (l₁.scan strtod).1 (l₁.scan strtod).2 (.array (items ++ [j]) :: stack) = .ok r) ∨
      ∃ l₁, l.scan strtod = (.endArray, l₁) ∧ parseState strtod (.array (items ++ [j])) l₁ stack = .ok r := by
  rw [parseState] at h
  split at h
  · rename_i l₁ hcomma
    exact .inl ⟨l₁, hcomma, h⟩
  · rename_i l₁ hend
    exact .inr ⟨l₁, hend, h⟩
  · cases h

theorem parseState_object_ok {members : List (Bytes × Json)} {key : Bytes}
    (h : parseState strtod j l (.object members key :: stack) = .ok r) :
    (∃ next l₁ l₂ l₃, l.scan strtod = (.valueSeparator, l₁) ∧ l₁.scan strtod = (.valueString next, l₂) ∧
      l₂.scan strtod = (.nameSeparator, l₃) ∧ parseValue strtod (l₃.scan strtod).1 (l₃.scan strtod).2
        (.object (insertMember key j members) next :: stack) = .ok r) ∨
      ∃ l₁, l.scan strtod = (.endObject, l₁) ∧
        parseState strtod (.object (insertMember key j members)) l₁ stack = .ok r := by
  rw [parseState] at h
  split at h
  · rename_i l₁ hcomma
    split at h
    · rename_i next l₂ hkey
      split at h
      · rename_i l₃ hcolon
        exact .inl ⟨next, l₁, l₂, l₃, hcomma, hkey, hcolon, h⟩
      · cases h
    · cases h
  · rename_i l₁ hend
    exact .inr ⟨l₁, hend, h⟩
  · cases h

/-- A character that is a token, as it was scanned. -/
theorem mark_spelled {c : UInt8} {token : Token} {l₁ : Lexer} (hc : (c, token) ∈ structuralTokens)
    (h : l.scan strtod = (token, l₁)) : ∃ w, Spaces w ∧ l.rest = w ++ c :: l₁.rest := by
  obtain ⟨w, input, hw, hrest, hscanned⟩ := scan_sound strtod l
  rw [h] at hscanned
  exact ⟨w, hw, by rw [hrest, hscanned.structural_of hc]⟩

/-- A key with its colon, as it was scanned. -/
theorem key_spelled {key : Bytes} {l₁ l₂ : Lexer} (hkey : l.scan strtod = (.valueString key, l₁))
    (hcolon : l₁.scan strtod = (.nameSeparator, l₂)) : ∃ before keyText after, Spaces before ∧ Chars keyText key ∧
      Spaces after ∧ l.rest = before ++ 34 :: keyText ++ 34 :: after ++ 58 :: l₂.rest := by
  obtain ⟨before, input, hbefore, hrest, hscanned⟩ := scan_sound strtod l
  rw [hkey] at hscanned
  obtain ⟨keyText, rfl, hchars⟩ := hscanned.string_of
  obtain ⟨after, hafter, hrest₁⟩ := mark_spelled (c := 58) (by decide) hcolon
  exact ⟨before, keyText, after, hbefore, hchars, hafter, by simp [hrest, hrest₁]⟩

theorem rest_shorter {n : Nat} {input w : Bytes} {c : UInt8} (hl : input.length < n + 1) (h : input = w ++ c :: rest) :
    rest.length < n := by
  rw [h, List.length_append, List.length_cons] at hl
  omega

theorem rest_no_longer {n : Nat} {input t : Bytes} (hl : input.length < n) (h : input = t ++ rest) : rest.length < n := by
  rw [h, List.length_append] at hl
  omega

/-- A value was next, and the loop went on with it. -/
def ValueNext (strtod : Bytes → Option Double) (l : Lexer) (stack : List Frame) (r : Json × Lexer) : Prop :=
  ∃ (w t : Bytes) (j : Json) (l' : Lexer), Spaces w ∧ Value strtod t j ∧ l.rest = w ++ t ++ l'.rest ∧
    parseState strtod j l' stack = .ok r

/-- The rest of an array was next, after its last item so far. -/
def ItemsNext (strtod : Bytes → Option Double) (items : List Json) (l : Lexer) (stack : List Frame) (r : Json × Lexer) :
    Prop :=
  ∃ (after : Bytes) (more : List Item) (l' : Lexer), Spaces after ∧ (∀ i ∈ more, i.Spaced) ∧
    (∀ i ∈ more, Value strtod i.text i.value) ∧
    l.rest = after ++ (more.map Item.bytes).flatMap (44 :: ·) ++ 93 :: l'.rest ∧
    parseState strtod (.array (items ++ more.map Item.value)) l' stack = .ok r

/-- The rest of an object. -/
def MembersNext (strtod : Bytes → Option Double) (members : List (Bytes × Json)) (l : Lexer) (stack : List Frame)
    (r : Json × Lexer) : Prop :=
  ∃ (after : Bytes) (more : List Member) (l' : Lexer), Spaces after ∧ (∀ m ∈ more, m.Formed) ∧
    (∀ m ∈ more, Value strtod m.item.text m.item.value) ∧
    l.rest = after ++ (more.map Member.bytes).flatMap (44 :: ·) ++ 125 :: l'.rest ∧
    parseState strtod (.object (putMembers members more)) l' stack = .ok r

def ValueSound (strtod : Bytes → Option Double) (n : Nat) : Prop :=
  ∀ l stack r, l.rest.length < n → parseValue strtod (l.scan strtod).1 (l.scan strtod).2 stack = .ok r →
    ValueNext strtod l stack r

def ItemsSound (strtod : Bytes → Option Double) (n : Nat) : Prop :=
  ∀ items j l stack r, l.rest.length < n → parseState strtod j l (.array items :: stack) = .ok r →
    ItemsNext strtod (items ++ [j]) l stack r

def MembersSound (strtod : Bytes → Option Double) (n : Nat) : Prop :=
  ∀ members key j l stack r, l.rest.length < n → parseState strtod j l (.object members key :: stack) = .ok r →
    MembersNext strtod (insertMember key j members) l stack r

theorem itemsSound_succ {n : Nat} (hvalue : ValueSound strtod n) (hitems : ItemsSound strtod n) :
    ItemsSound strtod (n + 1) := by
  intro items j l stack r hl h
  rcases parseState_array_ok h with ⟨l₁, hcomma, h⟩ | ⟨l₁, hend, h⟩
  · obtain ⟨after, hafter, hrest⟩ := mark_spelled (c := 44) (by decide) hcomma
    have hl₁ : l₁.rest.length < n := rest_shorter hl hrest
    obtain ⟨w, t, j', l₂, hw, ht, hrest₁, h⟩ := hvalue l₁ _ r hl₁ h
    have hl₂ : l₂.rest.length < n := rest_no_longer hl₁ hrest₁
    obtain ⟨after', more, l₃, hafter', hspaced, hmore, hrest₂, h⟩ := hitems _ j' l₂ stack r hl₂ h
    let item : Item := { before := w, text := t, after := after', value := j' }
    refine ⟨after, item :: more, l₃, hafter, List.forall_mem_cons.mpr ⟨⟨hw, hafter'⟩, hspaced⟩,
      List.forall_mem_cons.mpr ⟨ht, hmore⟩, ?_, by simpa using h⟩
    simp [hrest, hrest₁, hrest₂, item, Item.bytes]
  · obtain ⟨after, hafter, hrest⟩ := mark_spelled (c := 93) (by decide) hend
    exact ⟨after, [], l₁, hafter, by simp, by simp, by simpa using hrest, by simpa using h⟩

theorem membersSound_succ {n : Nat} (hvalue : ValueSound strtod n) (hmembers : MembersSound strtod n) :
    MembersSound strtod (n + 1) := by
  intro members key j l stack r hl h
  rcases parseState_object_ok h with ⟨next, l₁, l₂, l₃, hcomma, hkey, hcolon, h⟩ | ⟨l₁, hend, h⟩
  · obtain ⟨after, hafter, hrest⟩ := mark_spelled (c := 44) (by decide) hcomma
    obtain ⟨before, keyText, afterKey, hbefore, hchars, hafterKey, hrest₁⟩ := key_spelled hkey hcolon
    have hl₃ : l₃.rest.length < n := rest_shorter (Nat.lt_succ_of_lt (rest_shorter hl hrest)) hrest₁
    obtain ⟨w, t, j', l₄, hw, ht, hrest₃, h⟩ := hvalue l₃ _ r hl₃ h
    have hl₄ : l₄.rest.length < n := rest_no_longer hl₃ hrest₃
    obtain ⟨after', more, l₅, hafter', hformed, hmore, hrest₄, h⟩ := hmembers _ next j' l₄ stack r hl₄ h
    let member : Member :=
      { before, keyText, key := next, after := afterKey, item := { before := w, text := t, after := after', value := j' } }
    refine ⟨after, member :: more, l₅, hafter,
      List.forall_mem_cons.mpr ⟨⟨hbefore, hchars, hafterKey, hw, hafter'⟩, hformed⟩,
      List.forall_mem_cons.mpr ⟨ht, hmore⟩, ?_, h⟩
    simp [hrest, hrest₁, hrest₃, hrest₄, member, Member.bytes, Item.bytes]
  · obtain ⟨after, hafter, hrest⟩ := mark_spelled (c := 125) (by decide) hend
    exact ⟨after, [], l₁, hafter, by simp, by simp, by simpa using hrest, h⟩

theorem commas_flatMap (part : Bytes) (parts : List Bytes) :
    commas (part :: parts) = part ++ parts.flatMap (44 :: ·) := by
  induction parts generalizing part with
  | nil => simp [commas_one]
  | cons next parts ih => rw [commas_cons, ih, List.flatMap_cons, List.cons_append]

/-- An array, once its `[` was read. -/
theorem array_spelled {n : Nat} (hvalue : ValueSound strtod n) (hitems : ItemsSound strtod n) (hl : l.rest.length < n)
    (h : parseValue strtod .beginArray l stack = .ok r) :
    ∃ t j l', Value strtod (91 :: t) j ∧ l.rest = t ++ l'.rest ∧ parseState strtod j l' stack = .ok r := by
  by_cases hfirst : (l.scan strtod).1 = .endArray
  · have hend : l.scan strtod = (.endArray, (l.scan strtod).2) := by rw [← hfirst]
    obtain ⟨w, hw, hrest⟩ := mark_spelled (c := 93) (by decide) hend
    rw [parseValue_emptyArray hend] at h
    exact ⟨w ++ [93], .array [], _, .emptyArray hw, by simp [hrest], h⟩
  · rw [parseValue_beginArray hfirst] at h
    obtain ⟨w, t, j, l₁, hw, ht, hrest, h⟩ := hvalue l _ r hl h
    have hl₁ : l₁.rest.length < n := rest_no_longer hl hrest
    obtain ⟨after, more, l₂, hafter, hspaced, hmore, hrest₁, h⟩ := hitems _ j l₁ stack r hl₁ h
    let item : Item := { before := w, text := t, after, value := j }
    have harray : Value strtod (91 :: commas ((item :: more).map Item.bytes) ++ [93])
        (.array ((item :: more).map Item.value)) :=
      .array (by simp) (List.forall_mem_cons.mpr ⟨⟨hw, hafter⟩, hspaced⟩) (List.forall_mem_cons.mpr ⟨ht, hmore⟩)
    refine ⟨_, _, l₂, harray, ?_, by simpa using h⟩
    rw [List.map_cons, commas_flatMap]
    simp [hrest, hrest₁, item, Item.bytes]

/-- An object, once its brace was read. -/
theorem object_spelled {n : Nat} (hvalue : ValueSound strtod n) (hmembers : MembersSound strtod n)
    (hl : l.rest.length < n) (h : parseValue strtod .beginObject l stack = .ok r) :
    ∃ t j l', Value strtod (123 :: t) j ∧ l.rest = t ++ l'.rest ∧ parseState strtod j l' stack = .ok r := by
  rcases parseValue_beginObject_ok h with ⟨l₁, hend, h⟩ | ⟨key, l₁, l₂, hkey, hcolon, h⟩
  · obtain ⟨w, hw, hrest⟩ := mark_spelled (c := 125) (by decide) hend
    exact ⟨w ++ [125], .object [], l₁, .emptyObject hw, by simp [hrest], h⟩
  · obtain ⟨before, keyText, afterKey, hbefore, hchars, hafterKey, hrest⟩ := key_spelled hkey hcolon
    have hl₂ : l₂.rest.length < n := rest_shorter (Nat.lt_succ_of_lt hl) hrest
    obtain ⟨w, t, j, l₃, hw, ht, hrest₂, h⟩ := hvalue l₂ _ r hl₂ h
    have hl₃ : l₃.rest.length < n := rest_no_longer hl₂ hrest₂
    obtain ⟨after, more, l₄, hafter, hformed, hmore, hrest₃, h⟩ := hmembers _ key j l₃ stack r hl₃ h
    let member : Member :=
      { before, keyText, key, after := afterKey, item := { before := w, text := t, after, value := j } }
    have hobject : Value strtod (123 :: commas ((member :: more).map Member.bytes) ++ [125])
        (jsonify ((member :: more).map fun m => (m.key, m.item.value))) :=
      .object (by simp) (List.forall_mem_cons.mpr ⟨⟨hbefore, hchars, hafterKey, hw, hafter⟩, hformed⟩)
        (List.forall_mem_cons.mpr ⟨ht, hmore⟩)
    refine ⟨_, _, l₄, hobject, ?_, by rw [jsonify_members]; exact h⟩
    rw [List.map_cons, commas_flatMap]
    simp [hrest, hrest₂, hrest₃, member, Member.bytes, Item.bytes]

/-- The tokens that no value begins with. -/
theorem parseValue_unexpected {token : Token}
    (h : token ∈ [.endArray, .endObject, .nameSeparator, .valueSeparator, .endOfInput]) :
    parseValue strtod token l stack = .error (l.syntaxError token "'[', '\x7b', or a literal" "value") := by
  simp only [List.mem_cons, List.not_mem_nil, or_false] at h
  rcases h with rfl | rfl | rfl | rfl | rfl <;> rw [parseValue] <;> simp

theorem valueSound_succ {n : Nat} (hvalue : ValueSound strtod n) (hitems : ItemsSound strtod n)
    (hmembers : MembersSound strtod n) : ValueSound strtod (n + 1) := by
  intro l stack r hl h
  obtain ⟨w, input, hw, hrest, hscanned⟩ := scan_sound strtod l
  generalize (l.scan strtod).1 = token at h hscanned
  generalize (l.scan strtod).2 = l₁ at h hscanned
  have hspelled {c : UInt8} (hc : (c, token) ∈ structuralTokens) (hnext : l₁.rest.length < n →
      ∃ t j l', Value strtod (c :: t) j ∧ l₁.rest = t ++ l'.rest ∧ parseState strtod j l' stack = .ok r) :
      ValueNext strtod l stack r := by
    have hinput := hscanned.structural_of hc
    have hl₁ : l₁.rest.length < n := rest_shorter hl (by rw [hrest, hinput])
    obtain ⟨t, j, l₂, ht, hrest₁, h⟩ := hnext hl₁
    exact ⟨w, c :: t, j, l₂, hw, ht, by simp [hrest, hinput, hrest₁], h⟩
  cases hj : token.value with
  | some j =>
    rw [parseValue_token hj] at h
    obtain ⟨t, rfl, ht⟩ := hscanned.value_of hj
    exact ⟨w, t, j, l₁, hw, ht, by simp [hrest], h⟩
  | none =>
    cases token with
    | beginArray => exact hspelled (c := 91) (by decide) fun hl₁ => array_spelled hvalue hitems hl₁ h
    | beginObject => exact hspelled (c := 123) (by decide) fun hl₁ => object_spelled hvalue hmembers hl₁ h
    | literalTrue | literalFalse | literalNull | valueString | valueUnsigned | valueInteger => cases hj
    | valueFloat x =>
      cases x with
      | some x => cases hj
      | none =>
        rw [parseValue] at h
        cases h
    | parseError message =>
      rw [parseValue] at h
      cases h
    | _ =>
      rw [parseValue_unexpected (by simp)] at h
      cases h

/-- **Wherever the loop gets to its end**, what it read was spelled. -/
theorem loop_sound (strtod : Bytes → Option Double) (n : Nat) :
    ValueSound strtod n ∧ ItemsSound strtod n ∧ MembersSound strtod n := by
  induction n with
  | zero =>
    exact ⟨fun l stack r hl => absurd hl (Nat.not_lt_zero _), fun items j l stack r hl => absurd hl (Nat.not_lt_zero _),
      fun members key j l stack r hl => absurd hl (Nat.not_lt_zero _)⟩
  | succ n ih =>
    obtain ⟨hvalue, hitems, hmembers⟩ := ih
    exact ⟨valueSound_succ hvalue hitems hmembers, itemsSound_succ hvalue hitems, membersSound_succ hvalue hmembers⟩

theorem value_spelled (h : parseValue strtod (l.scan strtod).1 (l.scan strtod).2 stack = .ok r) :
    ValueNext strtod l stack r :=
  (loop_sound strtod (l.rest.length + 1)).1 l stack r (Nat.lt_succ_self _) h

/-! ## Whole texts -/

/-- The byte order mark. -/
def mark : Bytes := [0xEF, 0xBB, 0xBF]

theorem skipBom_ok {l₁ : Lexer} (h : l.skipBom = (true, l₁)) : l.rest = l₁.rest ∨ l.rest = mark ++ l₁.rest := by
  unfold Lexer.skipBom at h
  split at h
  · rename_i hfirst
    split at h
    · rename_i hsecond
      split at h
      · rename_i hthird
        cases h
        exact .inr (by rw [(get_some hfirst).1, (get_some hsecond).1, (get_some hthird).1]; rfl)
      · cases h
    · cases h
  · cases h
    exact .inl (by simp)

theorem skipBom_mark (h : l.rest = mark ++ rest) : ∃ l₁, l.skipBom = (true, l₁) ∧ l₁.rest = rest := by
  obtain ⟨l₁, hfirst, hrest₁⟩ := get_cons h
  obtain ⟨l₂, hsecond, hrest₂⟩ := get_cons hrest₁
  obtain ⟨l₃, hthird, hrest₃⟩ := get_cons hrest₂
  exact ⟨l₃, by rw [Lexer.skipBom, hfirst]; simp only [hsecond, hthird], hrest₃⟩

/-- A value begins with a character, and not with that of the mark. -/
theorem value_first {t : Bytes} (ht : Value strtod t j) : ∃ c t', t = c :: t' ∧ c ≠ 0xEF := by
  have hread : Rereads strtod j t := value_read ht
  cases t with
  | nil =>
    obtain ⟨l₁, -, hloop⟩ := hread (l := { rest := [] }) rfl endsNumber_nil []
    obtain ⟨l₂, hscan⟩ := scan_nil strtod (l := { rest := [] }) rfl
    rw [hscan, parseValue_unexpected (by simp), parseState] at hloop
    cases hloop
  | cons c t =>
    refine ⟨c, t, rfl, ?_⟩
    rintro rfl
    exact hread.not_bom

theorem skipBom_none {w t : Bytes} (hw : Spaces w) (ht : Value strtod t j) (h : l.rest = w ++ t ++ rest) :
    ∃ l₁, l.skipBom = (true, l₁) ∧ l₁.rest = l.rest := by
  obtain ⟨c, t', rfl, hc⟩ := value_first ht
  have hfirst : ∀ l₁, l.get ≠ (some 0xEF, l₁) := by
    intro l₁ hget
    have hrest := (get_some hget).1.symm.trans h
    cases w with
    | cons d w => exact absurd (hw d List.mem_cons_self) (by rw [← (List.cons.inj hrest).1]; decide)
    | nil => exact hc (List.cons.inj hrest).1.symm
  refine ⟨l.unget, ?_, by simp⟩
  rw [Lexer.skipBom]
  split
  · rename_i hget
    exact absurd hget (hfirst _)
  · rfl

/-- What ends a text. -/
def Over (rest : Bytes) : Prop := rest = [] ∨ rest.head? = some 0

theorem scan_over (strtod : Bytes → Option Double) {w : Bytes} (hw : Spaces w) (hover : Over rest)
    (h : l.rest = w ++ rest) : ∃ l', l.scan strtod = (.endOfInput, l') := by
  obtain ⟨l₁, hrest₁, hscan₁⟩ := scan_spaces strtod hw h
  rw [hscan₁]
  cases rest with
  | nil => exact scan_nil strtod hrest₁
  | cons c rest =>
    obtain rfl : c = 0 := by simpa [Over] using hover
    obtain ⟨l₂, hget, -⟩ := get_cons hrest₁
    exact ⟨l₂, by rw [scan, skipSpaces_of hget (by decide)]; rfl⟩

theorem endsNumber_over (hover : Over rest) : EndsNumber rest := by
  rcases hover with rfl | hover
  · exact endsNumber_nil
  · intro c hc
    obtain rfl : c = 0 := Option.some.inj (hc.symm.trans hover)
    decide

theorem scanned_over {input after : Bytes} (h : Scanned strtod input .endOfInput after) : Over input := by
  generalize htoken : Token.endOfInput = token at h
  cases h with
  | endOfInput hover => exact hover
  | structural hc => rw [← htoken] at hc; simp [structuralTokens] at hc
  | value hvalue => rw [← htoken] at hvalue; cases hvalue
  | error | overflow | string => cases htoken

/-- The end of `parse`, once the byte order mark is passed over. -/
theorem parse_skipped {input : Bytes} {l₁ : Lexer} (hskip : Lexer.skipBom { rest := input } = (true, l₁)) :
    Json.parse strtod input = .ok j ↔ ∃ l₂ l₃,
      parseValue strtod (l₁.scan strtod).1 (l₁.scan strtod).2 [] = .ok (j, l₂) ∧ l₂.scan strtod = (.endOfInput, l₃) := by
  rw [Json.parse, Lexer.scanFirst, hskip]
  cases hvalue : parseValue strtod (l₁.scan strtod).1 (l₁.scan strtod).2 [] with
  | error what => simp [hvalue, bind, Except.bind]
  | ok r =>
    obtain ⟨j', l₂⟩ := r
    simp only [hvalue, bind, Except.bind]
    constructor
    · intro h
      split at h
      · rename_i l₃ hend
        cases h
        exact ⟨l₂, l₃, rfl, hend⟩
      · cases h
    · rintro ⟨_, l₃, heq, hend⟩
      cases heq
      rw [hend]
      rfl

/-- **What is parsed** is what spells a value, and it is parsed to this value. -/
theorem parse_iff (strtod : Bytes → Option Double) (input : Bytes) (j : Json) :
    Json.parse strtod input = .ok j ↔ Document strtod input j := by
  constructor
  · intro h
    rcases hskip : Lexer.skipBom { rest := input } with ⟨_ | _, l₁⟩
    · rw [Json.parse, Lexer.scanFirst, hskip] at h
      simp only [bind, Except.bind] at h
      rw [parseValue] at h
      cases h
    · obtain ⟨l₂, l₃, hvalue, hend⟩ := (parse_skipped hskip).mp h
      obtain ⟨before, t, j', l₂', hbefore, ht, hrest, hstate⟩ := value_spelled hvalue
      rw [parseState] at hstate
      cases hstate
      obtain ⟨after, rest, hafter, hrest₂, hscanned⟩ := scan_sound strtod l₂
      rw [hend] at hscanned
      have htext : l₁.rest = before ++ t ++ after ++ rest := by rw [hrest, hrest₂, List.append_assoc (before ++ t)]
      rcases skipBom_ok hskip with hinput | hinput
      · exact ⟨[], before, t, after, rest, by simpa [htext] using hinput, by simp, hbefore, ht, hafter,
          scanned_over hscanned⟩
      · exact ⟨mark, before, t, after, rest, by simpa [htext] using hinput, by simp [mark], hbefore, ht, hafter,
          scanned_over hscanned⟩
  · rintro ⟨bom, before, t, after, rest, hinput, hbom, hbefore, ht, hafter, hover⟩
    have hskip : ∃ l₁, Lexer.skipBom { rest := input } = (true, l₁) ∧ l₁.rest = before ++ (t ++ (after ++ rest)) := by
      simp only [List.mem_cons, List.not_mem_nil, or_false] at hbom
      rcases hbom with rfl | rfl
      · have hnext : ({ rest := input } : Lexer).rest = before ++ t ++ (after ++ rest) := by simp [hinput]
        obtain ⟨l₁, hskip, hrest₁⟩ := skipBom_none hbefore ht hnext
        exact ⟨l₁, hskip, by rw [hrest₁, hnext, List.append_assoc]⟩
      · exact skipBom_mark (l := { rest := input }) (by simp [hinput, mark])
    obtain ⟨l₁, hskip, hrest₁⟩ := hskip
    obtain ⟨l₂, hrest₂, hscan⟩ := scan_spaces strtod hbefore hrest₁
    obtain ⟨l₃, hrest₃, hloop⟩ := value_read ht hrest₂ (endsNumber_spaces hafter (endsNumber_over hover)) []
    obtain ⟨l₄, hend⟩ := scan_over strtod hafter hover hrest₃
    rw [parseState] at hloop
    exact (parse_skipped hskip).mpr ⟨l₃, l₄, by rw [hscan, hloop], hend⟩

end AudioToolApi
