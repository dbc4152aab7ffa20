/-
What `parse` returns and throws, by one induction over its loop
(`parse_keeps`): what holds of the tokens holds of the value that is made of
them, or of the text of the error.
-/
import AudioToolApi.Utilities.JsonRoundTrip

namespace AudioToolApi

/-! ## Ascending members -/

theorem mem_insertMember {key : Bytes} {j : Json} {members : List (Bytes × Json)} {m : Bytes × Json}
    (h : m ∈ insertMember key j members) : m = (key, j) ∨ m ∈ members := by
  induction members with
  | nil => exact .inl (List.mem_singleton.mp h)
  | cons m' members ih =>
    rw [insertMember] at h
    split at h
    · exact (List.mem_cons.mp h).imp_right (List.mem_cons_of_mem _)
    · split at h
      · exact List.mem_cons.mp h
      · rcases List.mem_cons.mp h with rfl | h
        · exact .inr (by simp)
        · exact (ih h).imp_right (List.mem_cons_of_mem _)

theorem lt_of_not_le {k k' : Bytes} (hne : k ≠ k') (h : ¬ k < k') : k' < k := by
  rcases List.le_iff_lt_or_eq.mp (List.not_lt.mp h) with h | h
  · exact h
  · exact absurd h.symm hne

theorem insertMember_ascending {key : Bytes} {j : Json} {members : List (Bytes × Json)} (h : Ascending members) :
    Ascending (insertMember key j members) := by
  induction members with
  | nil => exact List.pairwise_singleton ..
  | cons m members ih =>
    obtain ⟨hhead, htail⟩ := List.pairwise_cons.mp h
    rw [insertMember]
    split
    · rename_i heq
      exact List.pairwise_cons.mpr ⟨by rw [heq]; exact hhead, htail⟩
    · rename_i hne
      split
      · rename_i hlt
        refine List.pairwise_cons.mpr ⟨fun m' hm' => ?_, h⟩
        rcases List.mem_cons.mp hm' with rfl | hm'
        · exact hlt
        · exact List.lt_trans hlt (hhead m' hm')
      · rename_i hlt
        refine List.pairwise_cons.mpr ⟨fun m' hm' => ?_, ih htail⟩
        rcases mem_insertMember hm' with rfl | hm'
        · exact lt_of_not_le hne hlt
        · exact hhead m' hm'

/-! ## The loop -/

variable {strtod : Bytes → Option Double} {Inv : Lexer → Prop} {T : Token → Prop} {J : Json → Prop} {E : Bytes → Prop}

/-- What is said of a lexer and its token, of a value and of the text of an
error, and is kept by all that the loop does. -/
structure Kept (strtod : Bytes → Option Double) (Inv : Lexer → Prop) (T : Token → Prop) (J : Json → Prop)
    (E : Bytes → Prop) : Prop where
  scan : ∀ {l l' : Lexer} {t : Token}, Inv l → l.scan strtod = (t, l') → Inv l' ∧ T t
  null : J .null
  bool : ∀ b, J (.bool b)
  unsigned : ∀ {n : Nat}, T (.valueUnsigned n) → J (.int n)
  integer : ∀ {i : Int}, T (.valueInteger i) → J (.int i)
  float : ∀ {x : Double}, T (.valueFloat (some x)) → J (.float x)
  string : ∀ {s : Bytes}, T (.valueString s) → J (.string s)
  array : ∀ {items : List Json}, (∀ j ∈ items, J j) → J (.array items)
  object : ∀ {members : List (Bytes × Json)}, Ascending members →
    (∀ m ∈ members, T (.valueString m.1) ∧ J m.2) → J (.object members)
  syntaxError : ∀ {l : Lexer} {last : Token}, Inv l → T last → ∀ {expected context : String},
    (expected, context) ∈ [("':'", "object separator"), ("string literal", "object key"), ("", "value"),
      ("'[', '\x7b', or a literal", "value"), ("']'", "array"), ("'\x7d'", "object"), ("end of input", "value")] →
    E (l.syntaxError last expected context)
  overflow : ∀ {l : Lexer}, Inv l → E l.numberOverflow

/-- What is said of an array or object that is being filled. -/
def Frame.Kept (T : Token → Prop) (J : Json → Prop) : Frame → Prop
  | .array items => ∀ j ∈ items, J j
  | .object members key => Ascending members ∧ (∀ m ∈ members, T (.valueString m.1) ∧ J m.2) ∧ T (.valueString key)

/-- How the loop ends. -/
def Outcome (Inv : Lexer → Prop) (J : Json → Prop) (E : Bytes → Prop) : Except Bytes (Json × Lexer) → Prop
  | .ok (j, l) => J j ∧ Inv l
  | .error what => E what

theorem Frame.Kept.item {items : List Json} {j : Json} (h : (Frame.array items).Kept T J) (hj : J j) :
    (Frame.array (items ++ [j])).Kept T J := by
  intro j' hj'
  rcases List.mem_append.mp hj' with hj' | hj'
  · exact h j' hj'
  · rw [List.mem_singleton.mp hj']
    exact hj

theorem Frame.Kept.member {members : List (Bytes × Json)} {key : Bytes} {j : Json} (h : (Frame.object members key).Kept T J)
    (hj : J j) : Ascending (insertMember key j members) ∧ ∀ m ∈ insertMember key j members, T (.valueString m.1) ∧ J m.2 := by
  obtain ⟨hascending, hmembers, hkey⟩ := h
  refine ⟨insertMember_ascending hascending, fun m hm => ?_⟩
  rcases mem_insertMember hm with rfl | hm
  · exact ⟨hkey, hj⟩
  · exact hmembers m hm

/-- The `switch`, on what is left of an input of a size. -/
def ValueKeeps (strtod : Bytes → Option Double) (Inv : Lexer → Prop) (T : Token → Prop) (J : Json → Prop)
    (E : Bytes → Prop) (n : Nat) : Prop :=
  ∀ (last : Token) (l : Lexer) (stack : List Frame), 2 * l.rest.length + last.size ≤ n → Inv l → T last →
    (∀ f ∈ stack, f.Kept T J) → Outcome Inv J E (parseValue strtod last l stack)

/-- The evaluation of `states`. -/
def StateKeeps (strtod : Bytes → Option Double) (Inv : Lexer → Prop) (T : Token → Prop) (J : Json → Prop)
    (E : Bytes → Prop) (n : Nat) : Prop :=
  ∀ (j : Json) (l : Lexer) (stack : List Frame), 2 * l.rest.length + 1 ≤ n → Inv l → J j →
    (∀ f ∈ stack, f.Kept T J) → Outcome Inv J E (parseState strtod j l stack)

theorem valueKeeps_succ (hk : Kept strtod Inv T J E) {n : Nat} (hvalue : ValueKeeps strtod Inv T J E n)
    (hstate : StateKeeps strtod Inv T J E n) : ValueKeeps strtod Inv T J E (n + 1) := by
  intro last l stack hsize hl hlast hstack
  have hdone : ∀ {j : Json}, last.size = 2 → J j → Outcome Inv J E (parseState strtod j l stack) := fun htwo hj =>
    hstate _ l stack (by omega) hl hj hstack
  rw [parseValue.eq_def]
  split
  · simp only [Token.size] at hsize
    split
    · rename_i l₁ hkey
      have hkeySize : 2 * l₁.rest.length + 2 ≤ 2 * l.rest.length + 1 := Lexer.scan_size hkey
      exact hstate _ l₁ stack (by omega) (hk.scan hl hkey).1 (hk.object .nil (by simp)) hstack
    · rename_i key l₁ hkey
      obtain ⟨hl₁, ht₁⟩ := hk.scan hl hkey
      split
      · rename_i l₂ hcolon
        obtain ⟨hl₂, ht₂⟩ := hk.scan hl₁ hcolon
        split
        rename_i last l₃ hitem
        obtain ⟨hl₃, ht₃⟩ := hk.scan hl₂ hitem
        have hkeySize : 2 * l₁.rest.length + 2 ≤ 2 * l.rest.length + 1 := Lexer.scan_size hkey
        have hcolonSize : 2 * l₂.rest.length + 2 ≤ 2 * l₁.rest.length + 1 := Lexer.scan_size hcolon
        have hitemSize := Lexer.scan_size hitem
        have hframe : (Frame.object [] key).Kept T J := ⟨.nil, by simp, ht₁⟩
        exact hvalue last l₃ _ (by omega) hl₃ ht₃ (List.forall_mem_cons.mpr ⟨hframe, hstack⟩)
      · rename_i hcolon
        obtain ⟨hl₂, ht₂⟩ := hk.scan hl₁ hcolon
        exact hk.syntaxError hl₂ ht₂ (by simp)
    · rename_i hkey
      obtain ⟨hl₁, ht₁⟩ := hk.scan hl hkey
      exact hk.syntaxError hl₁ ht₁ (by simp)
  · simp only [Token.size] at hsize
    split
    · rename_i l₁ hitem
      have hitemSize : 2 * l₁.rest.length + 2 ≤ 2 * l.rest.length + 1 := Lexer.scan_size hitem
      exact hstate _ l₁ stack (by omega) (hk.scan hl hitem).1 (hk.array (by simp)) hstack
    · rename_i last l₁ _ hitem
      obtain ⟨hl₁, ht₁⟩ := hk.scan hl hitem
      have hitemSize := Lexer.scan_size hitem
      have hframe : (Frame.array []).Kept T J := by simp [Frame.Kept]
      exact hvalue last l₁ _ (by omega) hl₁ ht₁ (List.forall_mem_cons.mpr ⟨hframe, hstack⟩)
  · exact hk.overflow hl
  · exact hdone rfl (hk.float hlast)
  · exact hdone rfl (hk.bool false)
  · exact hdone rfl hk.null
  · exact hdone rfl (hk.bool true)
  · exact hdone rfl (hk.integer hlast)
  · exact hdone rfl (hk.string hlast)
  · exact hdone rfl (hk.unsigned hlast)
  · exact hk.syntaxError hl hlast (by simp)
  · exact hk.syntaxError hl hlast (by simp)

theorem stateKeeps_succ (hk : Kept strtod Inv T J E) {n : Nat} (hvalue : ValueKeeps strtod Inv T J E n)
    (hstate : StateKeeps strtod Inv T J E n) : StateKeeps strtod Inv T J E (n + 1) := by
  intro j l stack hsize hl hj hstack
  rw [parseState.eq_def]
  split
  · exact ⟨hj, hl⟩
  · rename_i items stack
    obtain ⟨hframe, hstack⟩ := List.forall_mem_cons.mp hstack
    split
    · rename_i l₁ hnext
      have hl₁ := (hk.scan hl hnext).1
      split
      rename_i last l₂ hitem
      obtain ⟨hl₂, ht₂⟩ := hk.scan hl₁ hitem
      have hnextSize : 2 * l₁.rest.length + 2 ≤ 2 * l.rest.length + 1 := Lexer.scan_size hnext
      have hitemSize := Lexer.scan_size hitem
      exact hvalue last l₂ _ (by omega) hl₂ ht₂ (List.forall_mem_cons.mpr ⟨hframe.item hj, hstack⟩)
    · rename_i l₁ hnext
      have hnextSize : 2 * l₁.rest.length + 2 ≤ 2 * l.rest.length + 1 := Lexer.scan_size hnext
      exact hstate _ l₁ stack (by omega) (hk.scan hl hnext).1 (hk.array (hframe.item hj)) hstack
    · rename_i hnext
      obtain ⟨hl₁, ht₁⟩ := hk.scan hl hnext
      exact hk.syntaxError hl₁ ht₁ (by simp)
  · rename_i members key stack
    obtain ⟨hframe, hstack⟩ := List.forall_mem_cons.mp hstack
    obtain ⟨hascending, hmembers⟩ := hframe.member hj
    split
    · rename_i l₁ hnext
      have hl₁ := (hk.scan hl hnext).1
      split
      · rename_i next l₂ hkey
        obtain ⟨hl₂, ht₂⟩ := hk.scan hl₁ hkey
        split
        · rename_i l₃ hcolon
          have hl₃ := (hk.scan hl₂ hcolon).1
          split
          rename_i last l₄ hitem
          obtain ⟨hl₄, ht₄⟩ := hk.scan hl₃ hitem
          have hnextSize : 2 * l₁.rest.length + 2 ≤ 2 * l.rest.length + 1 := Lexer.scan_size hnext
          have hkeySize : 2 * l₂.rest.length + 2 ≤ 2 * l₁.rest.length + 1 := Lexer.scan_size hkey
          have hcolonSize : 2 * l₃.rest.length + 2 ≤ 2 * l₂.rest.length + 1 := Lexer.scan_size hcolon
          have hitemSize := Lexer.scan_size hitem
          have hnextFrame : (Frame.object (insertMember key j members) next).Kept T J := ⟨hascending, hmembers, ht₂⟩
          exact hvalue last l₄ _ (by omega) hl₄ ht₄ (List.forall_mem_cons.mpr ⟨hnextFrame, hstack⟩)
        · rename_i hcolon
          obtain ⟨hl₃, ht₃⟩ := hk.scan hl₂ hcolon
          exact hk.syntaxError hl₃ ht₃ (by simp)
      · rename_i hkey
        obtain ⟨hl₂, ht₂⟩ := hk.scan hl₁ hkey
        exact hk.syntaxError hl₂ ht₂ (by simp)
    · rename_i l₁ hnext
      have hnextSize : 2 * l₁.rest.length + 2 ≤ 2 * l.rest.length + 1 := Lexer.scan_size hnext
      exact hstate _ l₁ stack (by omega) (hk.scan hl hnext).1 (hk.object hascending hmembers) hstack
    · rename_i hnext
      obtain ⟨hl₁, ht₁⟩ := hk.scan hl hnext
      exact hk.syntaxError hl₁ ht₁ (by simp)

theorem loop_keeps (hk : Kept strtod Inv T J E) (n : Nat) :
    ValueKeeps strtod Inv T J E n ∧ StateKeeps strtod Inv T J E n := by
  induction n with
  | zero =>
    refine ⟨fun last l stack hsize => ?_, fun j l stack hsize => absurd hsize (by omega)⟩
    cases last <;> simp [Token.size] at hsize
  | succ n ih => exact ⟨valueKeeps_succ hk ih.1 ih.2, stateKeeps_succ hk ih.1 ih.2⟩

/-- **The induction over a parse**: what tokens keep, its value or the text of
its error has. -/
theorem parse_keeps (hk : Kept strtod Inv T J E) (input : Bytes)
    (hl : Inv (Lexer.scanFirst strtod { rest := input }).2) (ht : T (Lexer.scanFirst strtod { rest := input }).1) :
    match Json.parse strtod input with
    | .ok j => J j
    | .error what => E what := by
  unfold Json.parse
  revert hl ht
  obtain ⟨first, l⟩ := Lexer.scanFirst strtod { rest := input }
  intro hl ht
  have hvalue := (loop_keeps hk _).1 first l [] (Nat.le_refl _) hl ht (by simp)
  cases hparse : parseValue strtod first l [] with
  | error what =>
    rw [hparse] at hvalue
    simp only [hparse, bind, Except.bind]
    exact hvalue
  | ok r =>
    obtain ⟨j, l'⟩ := r
    rw [hparse] at hvalue
    obtain ⟨hj, hl'⟩ := hvalue
    simp only [hparse, bind, Except.bind]
    split
    · rename_i h
      split at h
      · cases h
        exact hj
      · cases h
    · rename_i h
      split at h
      · cases h
      · rename_i hend
        cases h
        obtain ⟨hl'', ht''⟩ := hk.scan hl' hend
        exact hk.syntaxError hl'' ht'' (by simp)

end AudioToolApi
