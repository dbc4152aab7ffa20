/-
How `multipart_parser_execute` moves through a body.

`Moves buf i p j q`: turns of the loop take it from index `i` and parser `p`
to `j` and `q`. A turn goes on to the next byte, except that a failed match
reads its byte again, as data; so the loop ends (`execute_of_moves`).
-/
import AudioToolApi.Http.Multipart
import AudioToolApi.Lib.Delimiter

namespace AudioToolApi.Multipart

open Delimiter

variable {buf : Bytes}

/-! ## Turns -/

inductive Moves (buf : Bytes) : Nat → Parser → Nat → Parser → Prop
  | refl {i p} : Moves buf i p i p
  | step {i k j p r q c} : buf[i]? = some c → turn buf i c p = .next k r →
      Moves buf k r j q → Moves buf i p j q

theorem Moves.trans {i j k : Nat} {p q r : Parser} (h : Moves buf i p j q) (h' : Moves buf j q k r) :
    Moves buf i p k r := by
  induction h with
  | refl => exact h'
  | step hc ht _ ih => exact .step hc ht (ih h')

theorem Moves.one {i i' : Nat} {p p' : Parser} {c : UInt8} (hc : buf[i]? = some c)
    (ht : turn buf i c p = .next i' p') : Moves buf i p i' p' :=
  .step hc ht .refl

/-- A parser whose next turn is that of another goes where that one goes. -/
theorem Moves.enter {i j : Nat} {p p' q : Parser} (h : Moves buf i p' j q) (hij : i ≠ j)
    (hp : ∀ c, turn buf i c p = turn buf i c p') : Moves buf i p j q := by
  cases h with
  | refl => exact absurd rfl hij
  | step hc ht hr => exact .step hc ((hp _).trans ht) hr

/-- The parser is in the middle of a match that may fail. -/
def State.matching : State → Bool
  | .partDataAlmostBoundary | .partDataBoundary => true
  | _ => false

/-- What decreases with every turn. -/
def todo (buf : Bytes) (i : Nat) (p : Parser) : Nat :=
  2 * (buf.length - i) + if p.state.matching then 1 else 0

/-- A turn goes on to the next byte, or gives up a match. -/
def Turn.Forward (i : Nat) (p : Parser) : Turn → Prop
  | .next i' p' => i' = i + 1 ∨ (i' = i ∧ p.state.matching = true ∧ p'.state = .partData)
  | _ => True

theorem forward_ite {i : Nat} {p : Parser} {P : Prop} [Decidable P] {t e : Turn} (ht : t.Forward i p)
    (he : e.Forward i p) : (if P then t else e).Forward i p := by
  split
  · exact ht
  · exact he

theorem forward_next {i : Nat} {p q : Parser} : (Turn.next (i + 1) q).Forward i p := .inl rfl

theorem forward_setLookbehind {i k : Nat} {p q : Parser} {c : UInt8} {next : Parser → Turn}
    (h : ∀ q, (next q).Forward i p) : (q.setLookbehind k c next).Forward i p := forward_ite (h _) trivial

theorem forward_reread {i n : Nat} {p : Parser} (hp : p.state.matching = true) :
    (p.emitLookbehind n (reread i)).Forward i p := forward_ite (.inr ⟨rfl, hp, rfl⟩) trivial

theorem forward_withBoundary {i : Nat} {p q : Parser} {next : UInt8 → Turn}
    (h : ∀ b, (next b).Forward i p) : (q.withBoundary next).Forward i p := by
  unfold Parser.withBoundary
  split
  · exact h _
  · trivial

theorem forward_startBoundary {i : Nat} {c : UInt8} {p q : Parser} : (startBoundary i c q).Forward i p :=
  forward_ite (forward_ite trivial forward_next) (forward_ite (forward_ite trivial forward_next)
    (forward_withBoundary fun _ => forward_ite trivial forward_next))

theorem forward_headerField {i : Nat} {c : UInt8} {p q : Parser} : (headerField i c q).Forward i p :=
  forward_ite forward_next (forward_ite forward_next (forward_ite forward_next
    (forward_ite trivial forward_next)))

theorem forward_headerValue {i : Nat} {c : UInt8} {p q : Parser} : (headerValue i c q).Forward i p :=
  forward_ite forward_next forward_next

theorem forward_partData {i : Nat} {c : UInt8} {p q : Parser} : (partData buf i c q).Forward i p :=
  forward_ite (forward_setLookbehind fun _ => forward_next) (forward_ite forward_next forward_next)

theorem turn_forward {i : Nat} {c : UInt8} {p : Parser} : (turn buf i c p).Forward i p := by
  unfold turn
  cases hs : p.state with
  | start => exact forward_startBoundary
  | startBoundary => exact forward_startBoundary
  | headerFieldStart => exact forward_headerField
  | headerField => exact forward_headerField
  | headersAlmostDone => exact forward_ite trivial forward_next
  | headerValueStart => exact forward_ite forward_next forward_headerValue
  | headerValue => exact forward_headerValue
  | headerValueAlmostDone => exact forward_ite trivial forward_next
  | partDataStart => exact forward_partData
  | partData => exact forward_partData
  | partDataAlmostBoundary =>
    exact forward_ite (forward_setLookbehind fun _ => forward_next) (forward_reread (by rw [hs]; rfl))
  | partDataBoundary =>
    exact forward_withBoundary fun _ => forward_ite (forward_reread (by rw [hs]; rfl))
      (forward_setLookbehind fun _ => forward_ite forward_next forward_next)
  | partDataAlmostEnd => exact forward_ite forward_next (forward_ite forward_next trivial)
  | partDataEnd => exact forward_ite forward_next trivial
  | partDataFinalHyphen => exact forward_ite forward_next trivial
  | «end» => exact forward_next

theorem todo_decreases {i i' : Nat} {c : UInt8} {p p' : Parser} (hi : i < buf.length)
    (h : turn buf i c p = .next i' p') : todo buf i' p' < todo buf i p := by
  have hf : (Turn.next i' p').Forward i p := h ▸ turn_forward
  rcases hf with rfl | ⟨rfl, hm, hs⟩
  · unfold todo
    split <;> split <;> omega
  · unfold todo
    rw [hm, hs]
    exact Nat.add_lt_add_left Nat.zero_lt_one _

/-- The loop has fuel for every body. -/
theorem loop_isSome {fuel i : Nat} {p : Parser} (h : todo buf i p < fuel) : (loop buf fuel i p).isSome := by
  induction fuel generalizing i p with
  | zero => exact absurd h (Nat.not_lt_zero _)
  | succ fuel ih =>
    unfold loop
    cases hc : buf[i]? with
    | none => rfl
    | some c =>
      have hi : i < buf.length := (List.getElem?_eq_some_iff.mp hc).1
      cases ht : turn buf i c p with
      | next i' p' =>
        simp only [ht]
        exact ih (Nat.lt_of_lt_of_le (todo_decreases hi ht) (Nat.lt_succ_iff.mp h))
      | ret n p' => simp only [ht, Option.isSome_some]
      | fault => simp only [ht, Option.isSome_some]

theorem multipartParserExecute_isSome {p : Parser} : (multipartParserExecute p buf).isSome :=
  loop_isSome (by unfold todo; split <;> omega)

/-- What turns reach at the end of the body is what the loop returns. -/
theorem Moves.loop {fuel i : Nat} {p q : Parser} (h : Moves buf i p buf.length q) (hf : todo buf i p < fuel) :
    loop buf fuel i p = some (.returned buf.length q) := by
  generalize hj : buf.length = j at h
  induction h generalizing fuel with
  | refl =>
    obtain ⟨fuel, rfl⟩ : ∃ f, fuel = f + 1 := ⟨fuel - 1, by omega⟩
    simp [Multipart.loop, ← hj]
  | step hc ht _ ih =>
    obtain ⟨fuel, rfl⟩ : ∃ f, fuel = f + 1 := ⟨fuel - 1, by omega⟩
    have hi := (List.getElem?_eq_some_iff.mp hc).1
    have := todo_decreases hi ht
    simp only [Multipart.loop, hc, ht]
    exact ih (by omega) hj

theorem Moves.execute {p q : Parser} (h : Moves buf 0 p buf.length q) :
    multipartParserExecute p buf = some (.returned buf.length q) :=
  h.loop (by unfold todo; split <;> omega)

/-! ## Reading -/

theorem reads_cons {i : Nat} {c : UInt8} {xs : Bytes} (h : buf.drop i = c :: xs) :
    buf[i]? = some c ∧ buf.drop (i + 1) = xs := by
  constructor
  · rw [← List.head?_drop, h, List.head?_cons]
  · rw [← List.drop_drop, h]
    rfl

theorem reads_length {i : Nat} {xs : Bytes} (h : buf.drop i = xs) (hx : xs ≠ []) :
    i + xs.length = buf.length := by
  have := congrArg List.length h
  rw [List.length_drop] at this
  have := List.length_pos_iff.mpr hx
  omega

theorem slice_succ {mark i : Nat} {c : UInt8} (h : buf[i]? = some c) (hm : mark ≤ i) :
    slice buf mark (i + 1 - mark) = slice buf mark (i - mark) ++ [c] := by
  have hi : i + 1 - mark = i - mark + 1 := by omega
  rw [slice, hi, List.take_add_one, List.getElem?_drop, Nat.add_sub_cancel' hm, h]
  rfl

/-! ## Part data -/

variable {d : Bytes}

/-- The parser of the boundary `d`: what `multipart_parser_init` sets once and
for all. -/
structure Holds (d : Bytes) (p : Parser) : Prop where
  boundary : p.boundary = d ++ [0]
  boundaryLength : p.boundaryLength = d.length
  lookbehind : p.lookbehind.length = d.length + 9

/-- In the data of a part: `out` stands in `current_file_data` or between the
mark and `i`, and after it the first `k` bytes of CR LF `d` have been matched
and are in the lookbehind. -/
def InData (buf d : Bytes) (i : Nat) (out : Bytes) : Nat → Parser → Prop
  | 0, p => p.state = .partData ∧ p.mark ≤ i ∧ p.currentFileData ++ slice buf p.mark (i - p.mark) = out
  | 1, p => p.state = .partDataAlmostBoundary ∧ p.currentFileData = out ∧ p.lookbehind.take 1 = [CR]
  | k + 2, p => p.state = .partDataBoundary ∧ p.index = k ∧ k < d.length ∧ p.currentFileData = out ∧
      p.lookbehind.take (k + 2) = (crlf ++ d).take (k + 2)

theorem take_set {x y : Bytes} {k : Nat} {c : UInt8} (hk : k < x.length) (h : x.take k = y.take k)
    (hc : y[k]? = some c) : (x.set k c).take (k + 1) = y.take (k + 1) := by
  rw [List.take_add_one, List.take_add_one, List.take_set_of_le (Nat.le_refl k), h, hc,
    List.getElem?_set_self hk]

variable {p : Parser} {i k : Nat} {c : UInt8} {out : Bytes}

theorem Holds.withBoundary (hp : Holds d p) (hk : p.index < d.length) (next : UInt8 → Turn) :
    p.withBoundary next = next d[p.index] := by
  unfold Parser.withBoundary
  rw [hp.boundary, List.getElem?_append_left hk, List.getElem?_eq_getElem hk]

theorem Holds.setLookbehind (hp : Holds d p) (hk : k < d.length + 9) (next : Parser → Turn) :
    p.setLookbehind k c next = next { p with lookbehind := p.lookbehind.set k c } :=
  if_pos (hp.lookbehind ▸ hk)

theorem Holds.emitLookbehind (hp : Holds d p) (hk : k ≤ d.length + 9) (next : Parser → Turn) :
    p.emitLookbehind k next = next (p.emit (p.lookbehind.take k)) :=
  if_pos (hp.lookbehind ▸ hk)

theorem turn_partData_CR (hp : Holds d p) (hs : p.state = .partData) :
    turn buf i CR p = .next (i + 1) { p with
      state := .partDataAlmostBoundary, mark := i, lookbehind := p.lookbehind.set 0 CR
      currentFileData := p.currentFileData ++ slice buf p.mark (i - p.mark) } := by
  have hp' : Holds d { p.emit (slice buf p.mark (i - p.mark)) with mark := i, state := .partDataAlmostBoundary } :=
    ⟨hp.boundary, hp.boundaryLength, hp.lookbehind⟩
  simp only [turn, hs, partData, ↓reduceIte, hp'.setLookbehind (Nat.succ_pos _)]
  rfl

theorem turn_almostBoundary_LF (hp : Holds d p) (hs : p.state = .partDataAlmostBoundary) :
    turn buf i LF p = .next (i + 1) { p with
      state := .partDataBoundary, index := 0, lookbehind := p.lookbehind.set 1 LF } := by
  have hp' : Holds d { p with state := .partDataBoundary, index := 0 } :=
    ⟨hp.boundary, hp.boundaryLength, hp.lookbehind⟩
  simp only [turn, hs, ↓reduceIte, hp'.setLookbehind (show 1 < d.length + 9 by omega)]

theorem turn_boundary (hp : Holds d p) (hs : p.state = .partDataBoundary) (hc : d[p.index]? = some c) :
    turn buf i c p =
      let q := { p with lookbehind := p.lookbehind.set (2 + p.index) c, index := p.index + 1 }
      .next (i + 1) (if p.index + 1 = d.length then { q.partDataEnd with state := .partDataAlmostEnd } else q) := by
  obtain ⟨hk, rfl⟩ := List.getElem?_eq_some_iff.mp hc
  simp only [turn, hs, hp.withBoundary hk, ne_eq, not_true_eq_false, ↓reduceIte, hp.boundaryLength,
    hp.setLookbehind (show 2 + p.index < d.length + 9 by omega)]
  split <;> rfl

/-- A byte that goes on with the match. -/
theorem turn_matched (hp : Holds d p) (h : InData buf d i out k p)
    (hc : (crlf ++ d)[k]? = some c) (hk : k + 1 < (crlf ++ d).length) :
    ∃ p', turn buf i c p = .next (i + 1) p' ∧ Holds d p' ∧ InData buf d (i + 1) out (k + 1) p' ∧
      p'.files = p.files := by
  have hlb := hp.lookbehind
  have set (k) (c : UInt8) : (p.lookbehind.set k c).length = d.length + 9 := by rw [List.length_set, hlb]
  match k with
  | 0 =>
    obtain ⟨hs, -, rfl⟩ := h
    obtain rfl : CR = c := Option.some.inj hc
    refine ⟨_, turn_partData_CR hp hs, ⟨hp.boundary, hp.boundaryLength, set ..⟩, ⟨rfl, rfl, ?_⟩, rfl⟩
    exact take_set (y := [CR]) (by omega) rfl rfl
  | 1 =>
    obtain ⟨hs, rfl, ht⟩ := h
    obtain rfl : LF = c := Option.some.inj hc
    refine ⟨_, turn_almostBoundary_LF hp hs, ⟨hp.boundary, hp.boundaryLength, set ..⟩,
      ⟨rfl, rfl, Nat.succ_lt_succ_iff.mp (Nat.succ_lt_succ_iff.mp hk), rfl, ?_⟩, rfl⟩
    exact take_set (by omega) ht rfl
  | k + 2 =>
    obtain ⟨hs, rfl, hlt, rfl, ht⟩ := h
    have hne : p.index + 1 < d.length := Nat.succ_lt_succ_iff.mp (Nat.succ_lt_succ_iff.mp hk)
    have : turn buf i c p = _ := turn_boundary hp hs hc
    simp only [if_neg (Nat.ne_of_lt hne)] at this
    refine ⟨_, this, ⟨hp.boundary, hp.boundaryLength, set ..⟩, ⟨hs, rfl, hne, rfl, ?_⟩, rfl⟩
    rw [Nat.add_comm 2]
    exact take_set (by omega) ht hc

/-- The byte that completes the match ends the part. -/
theorem turn_completed (hp : Holds d p) (h : InData buf d i out k p) (hd : d ≠ [])
    (hc : (crlf ++ d)[k]? = some c) (hk : k + 1 = (crlf ++ d).length) :
    ∃ p', turn buf i c p = .next (i + 1) p' ∧ Holds d p' ∧ p'.state = .partDataAlmostEnd ∧
      p'.files = p.files ++ [out] ∧ p'.currentFileData = [] := by
  have hpos := List.length_pos_iff.mpr hd
  simp only [crlf, List.cons_append, List.nil_append, List.length_cons] at hk
  obtain ⟨k, rfl⟩ : ∃ j, k = j + 2 := ⟨k - 2, by omega⟩
  obtain ⟨hs, rfl, hlt, rfl, -⟩ := h
  have : turn buf i c p = _ := turn_boundary hp hs hc
  simp only [if_pos (show p.index + 1 = d.length by omega)] at this
  exact ⟨_, this, ⟨hp.boundary, hp.boundaryLength, (List.length_set ..).trans hp.lookbehind⟩, rfl, rfl, rfl⟩

/-- A byte of data, with bytes to come. -/
theorem turn_kept (h : InData buf d i out 0 p) (hi : buf[i]? = some c) (hlast : i + 1 < buf.length)
    (hc : (crlf ++ d)[0]? ≠ some c) :
    turn buf i c p = .next (i + 1) p ∧ InData buf d (i + 1) (out ++ [c]) 0 p := by
  obtain ⟨hs, hm, rfl⟩ := h
  have hc : c ≠ CR := fun e => hc (e ▸ rfl)
  refine ⟨?_, hs, by omega, ?_⟩
  · simp only [turn, hs, partData, if_neg hc, if_neg (show i ≠ buf.length - 1 by omega)]
  · rw [slice_succ hi hm, List.append_assoc]

/-- A byte that does not go on with the match gives back what was matched. -/
theorem turn_failed (hp : Holds d p) (h : InData buf d i out (k + 1) p) (hc : (crlf ++ d)[k + 1]? ≠ some c) :
    ∃ p', turn buf i c p = .next i p' ∧ Holds d p' ∧
      InData buf d i (out ++ (crlf ++ d).take (k + 1)) 0 p' ∧ p'.files = p.files := by
  have hcur : p.currentFileData = out := match k, h with
    | 0, h => h.2.1
    | _ + 1, h => h.2.2.2.1
  have ht : turn buf i c p = reread i (p.emit ((crlf ++ d).take (k + 1))) := by
    match k with
    | 0 =>
      obtain ⟨hs, -, ht⟩ := h
      have hc : c ≠ LF := fun e => hc (e ▸ rfl)
      simp only [turn, hs, if_neg hc, hp.emitLookbehind (show 1 ≤ d.length + 9 by omega), ht]
      rfl
    | k + 1 =>
      obtain ⟨hs, rfl, hlt, -, ht⟩ := h
      have hc : d[p.index] ≠ c := fun e => hc (e ▸ List.getElem?_eq_getElem hlt)
      simp only [turn, hs, hp.withBoundary hlt, if_pos hc]
      rw [hp.emitLookbehind (by omega), Nat.add_comm 2, ht]
  refine ⟨_, ht, ⟨hp.boundary, hp.boundaryLength, hp.lookbehind⟩, ⟨rfl, Nat.le_refl i, ?_⟩, rfl⟩
  rw [slice, Nat.sub_self, List.take_zero, List.append_nil]
  exact congrArg (· ++ _) hcur

/-- **The data of a part.** What the parser gives back before the delimiter
is what a scan for the delimiter gives back. -/
theorem scan_moves {o xs ys : Bytes} (hd : d ≠ []) (hscan : Scan (crlf ++ d) k xs o (some ys))
    (hr : buf.drop i = xs) (hp : Holds d p) (h : InData buf d i out k p) :
    ∃ j q, Moves buf i p j q ∧ i < j ∧ buf.drop j = ys ∧ Holds d q ∧ q.state = .partDataAlmostEnd ∧
      q.files = p.files ++ [out ++ o] ∧ q.currentFileData = [] := by
  generalize hsome : some ys = r at hscan
  induction hscan generalizing i p out with
  | stop => cases hsome
  | more hc hk _ ih =>
    obtain ⟨hi, hr⟩ := reads_cons hr
    obtain ⟨p', ht, hp', h', hf⟩ := turn_matched hp h hc hk
    obtain ⟨j, q, hm, hj, hrest⟩ := ih hr hp' h' hsome
    exact ⟨j, q, .step hi ht hm, by omega, hf ▸ hrest⟩
  | found hc hk =>
    obtain ⟨hi, hr⟩ := reads_cons hr
    obtain ⟨p', ht, hp', hs, hf, hcur⟩ := turn_completed hp h hd hc hk
    cases hsome
    exact ⟨_, p', .one hi ht, Nat.lt_succ_self i, hr, hp', hs, by rw [hf, List.append_nil], hcur⟩
  | @keep c xs o r hc hs ih =>
    obtain ⟨hi, hr⟩ := reads_cons hr
    have hlast : i + 1 < buf.length := by
      cases xs with
      | nil => cases hs; cases hsome
      | cons x xs => exact (List.getElem?_eq_some_iff.mp (reads_cons hr).1).1
    obtain ⟨ht, h'⟩ := turn_kept h hi hlast hc
    obtain ⟨j, q, hm, hj, hr, hq, hst, hf, hcur⟩ := ih hr hp h' hsome
    exact ⟨j, q, .step hi ht hm, by omega, hr, hq, hst, by rw [hf, List.append_assoc]; rfl, hcur⟩
  | back hc _ ih =>
    obtain ⟨hi, -⟩ := reads_cons hr
    obtain ⟨p', ht, hp', h', hf⟩ := turn_failed hp h hc
    obtain ⟨j, q, hm, hj, hr, hq, hst, hfiles, hcur⟩ := ih hr hp' h' hsome
    exact ⟨j, q, .step hi ht hm, hj, hr, hq, hst, by rw [hfiles, hf, List.append_assoc], hcur⟩

/-! ## Accesses

With a boundary that is not empty, no turn reads or writes outside the
allocation of `multipart_parser_init`. -/

/-- The index stays within the boundary and its terminating NUL. -/
structure Sound (d : Bytes) (p : Parser) : Prop where
  holds : Holds d p
  start : p.state = .startBoundary → p.index ≤ d.length + 1
  match_ : p.state = .partDataBoundary → p.index < d.length

theorem Sound.outside (h : Holds d p) (hs : p.state ≠ .startBoundary) (hs' : p.state ≠ .partDataBoundary) :
    Sound d p := ⟨h, fun e => absurd e hs, fun e => absurd e hs'⟩

def Turn.Sound (d : Bytes) : Turn → Prop
  | .next _ p => Multipart.Sound d p
  | .ret _ _ => True
  | .fault => False

theorem startBoundary_sound (h : Sound d p) (hs : p.state = .startBoundary) : (startBoundary i c p).Sound d := by
  have hh := h.holds
  have hle := h.start hs
  have next (k : Nat) (hk : k ≤ d.length + 1) : Sound d { p with index := k } :=
    ⟨⟨hh.boundary, hh.boundaryLength, hh.lookbehind⟩, fun _ => hk, (fun e => nomatch hs.symm.trans e)⟩
  have hbl := hh.boundaryLength
  unfold startBoundary
  split
  · split
    · trivial
    · exact next _ (by omega)
  · split
    · split
      · trivial
      · exact .outside ⟨hh.boundary, hh.boundaryLength, hh.lookbehind⟩ nofun nofun
    · rw [hh.withBoundary (by omega)]
      split
      · trivial
      · exact next _ (by omega)

theorem headerField_sound (h : Holds d p) (hs : p.state = .headerField) : (headerField i c p).Sound d := by
  have moved (s : State) (hs : s ≠ .startBoundary) (hs' : s ≠ .partDataBoundary) : Sound d { p with state := s } :=
    .outside ⟨h.boundary, h.boundaryLength, h.lookbehind⟩ hs hs'
  unfold headerField
  split
  · exact moved _ nofun nofun
  split
  · exact moved _ nofun nofun
  split
  · exact moved _ nofun nofun
  split
  · trivial
  · exact .outside h (by rw [hs]; nofun) (by rw [hs]; nofun)

theorem headerValue_sound (h : Holds d p) (hs : p.state = .headerValue) : (headerValue i c p).Sound d := by
  unfold headerValue
  split
  · exact .outside ⟨h.boundary, h.boundaryLength, h.lookbehind⟩ nofun nofun
  · exact .outside h (by rw [hs]; nofun) (by rw [hs]; nofun)

theorem partData_sound (h : Holds d p) (hs : p.state = .partData) : (partData buf i c p).Sound d := by
  have hh : Holds d { p.emit (slice buf p.mark (i - p.mark)) with mark := i, state := .partDataAlmostBoundary } :=
    ⟨h.boundary, h.boundaryLength, h.lookbehind⟩
  have hs' : p.state ≠ .startBoundary ∧ p.state ≠ .partDataBoundary := by rw [hs]; exact ⟨nofun, nofun⟩
  unfold partData
  split
  · simp only [hh.setLookbehind (show 0 < d.length + 9 by omega)]
    exact .outside ⟨h.boundary, h.boundaryLength, (List.length_set ..).trans h.lookbehind⟩ nofun nofun
  split
  · exact .outside ⟨h.boundary, h.boundaryLength, h.lookbehind⟩ hs'.1 hs'.2
  · exact .outside h hs'.1 hs'.2

theorem reread_sound (h : Holds d p) (hk : k ≤ d.length + 9) : (p.emitLookbehind k (reread i)).Sound d := by
  rw [h.emitLookbehind hk]
  exact .outside ⟨h.boundary, h.boundaryLength, h.lookbehind⟩ nofun nofun

theorem turn_sound (hd : d ≠ []) (h : Sound d p) : (turn buf i c p).Sound d := by
  have hpos := List.length_pos_iff.mpr hd
  have hh := h.holds
  have moved (q : Parser) (hq : Holds d q) (hs : q.state ≠ .startBoundary) (hs' : q.state ≠ .partDataBoundary) :
      (Turn.next (i + 1) q).Sound d := .outside hq hs hs'
  have set (m : Nat) (s : State) : Holds d { p with mark := m, state := s } :=
    ⟨hh.boundary, hh.boundaryLength, hh.lookbehind⟩
  unfold turn
  cases hs : p.state with
  | start =>
    exact startBoundary_sound
      ⟨⟨hh.boundary, hh.boundaryLength, hh.lookbehind⟩, fun _ => Nat.zero_le _, nofun⟩ rfl
  | startBoundary => exact startBoundary_sound h hs
  | headerFieldStart => exact headerField_sound (set ..) rfl
  | headerField => exact headerField_sound hh hs
  | headersAlmostDone => dsimp only; split; exacts [trivial, moved _ (set _ _) nofun nofun]
  | headerValueStart =>
    dsimp only
    split
    · exact moved p hh (by rw [hs]; nofun) (by rw [hs]; nofun)
    · exact headerValue_sound (set ..) rfl
  | headerValue => exact headerValue_sound hh hs
  | headerValueAlmostDone => dsimp only; split; exacts [trivial, moved _ (set _ _) nofun nofun]
  | partDataStart => exact partData_sound (set ..) rfl
  | partData => exact partData_sound hh hs
  | partDataAlmostBoundary =>
    dsimp only
    split
    · have hq : Holds d { p with state := .partDataBoundary, index := 0 } := ⟨hh.boundary, hh.boundaryLength, hh.lookbehind⟩
      rw [hq.setLookbehind (by omega)]
      exact ⟨⟨hh.boundary, hh.boundaryLength, (List.length_set ..).trans hh.lookbehind⟩, nofun, fun _ => hpos⟩
    · exact reread_sound hh (by omega)
  | partDataBoundary =>
    have hk := h.match_ hs
    simp only [hh.withBoundary hk]
    split
    · exact reread_sound hh (by omega)
    · simp only [hh.setLookbehind (show 2 + p.index < d.length + 9 by omega)]
      have hlb : (p.lookbehind.set (2 + p.index) c).length = d.length + 9 := (List.length_set ..).trans hh.lookbehind
      split
      · exact moved _ ⟨hh.boundary, hh.boundaryLength, hlb⟩ nofun nofun
      · rename_i hne
        exact ⟨⟨hh.boundary, hh.boundaryLength, hlb⟩, (fun e => nomatch hs.symm.trans e),
          fun _ => Nat.lt_of_le_of_ne hk (hh.boundaryLength ▸ hne)⟩
  | partDataAlmostEnd =>
    dsimp only
    split
    · exact moved _ (set ..) nofun nofun
    split
    · exact moved _ (set ..) nofun nofun
    · trivial
  | partDataFinalHyphen => dsimp only; split; exacts [moved _ (set _ _) nofun nofun, trivial]
  | partDataEnd => dsimp only; split; exacts [moved _ (set _ _) nofun nofun, trivial]
  | «end» => exact moved p hh (by rw [hs]; nofun) (by rw [hs]; nofun)

theorem loop_sound {fuel : Nat} (hd : d ≠ []) (h : Sound d p) : loop buf fuel i p ≠ some .fault := by
  induction fuel generalizing i p with
  | zero => nofun
  | succ fuel ih =>
    unfold loop
    cases hc : buf[i]? with
    | none => nofun
    | some c =>
      have ht : (turn buf i c p).Sound d := turn_sound hd h
      cases hturn : turn buf i c p with
      | next i' p' =>
        rw [hturn] at ht
        simp only [hturn]
        exact ih ht
      | ret n p' =>
        simp only [hturn]
        nofun
      | fault =>
        rw [hturn] at ht
        exact ht.elim

/-- **The parser stays in its allocation**, and returns. -/
theorem execute_returns (buf : Bytes) {b : Bytes} (hb : cStr b ≠ []) :
    ∃ n p, multipartParserExecute (init b) buf = some (.returned n p) := by
  have hinit : Sound (cStr b) (init b) :=
    .outside ⟨rfl, rfl, List.length_replicate⟩ nofun nofun
  have hf : multipartParserExecute (init b) buf ≠ some .fault := loop_sound hb hinit
  obtain ⟨e, he⟩ : ∃ e, multipartParserExecute (init b) buf = some e :=
    Option.isSome_iff_exists.mp multipartParserExecute_isSome
  cases e with
  | returned n p => exact ⟨n, p, he⟩
  | fault => exact absurd he hf

/-! ## Headers -/

/-- A byte of a header name: a letter or a hyphen. -/
def isNameByte (c : UInt8) : Prop := c = 45 ∨ 97 ≤ c ∧ c ≤ 122 ∨ 65 ≤ c ∧ c ≤ 90

instance : DecidablePred isNameByte := fun _ => inferInstanceAs (Decidable (_ ∨ _))

/-- A header of a part that can be written on a line. -/
structure Header where
  name : Bytes
  value : Bytes
  name_ne_nil : name ≠ []
  name_bytes : ∀ c ∈ name, isNameByte c
  value_no_CR : CR ∉ value

def Header.encode (h : Header) : Bytes := h.name ++ text ": " ++ h.value ++ crlf

structure Part where
  headers : List Header
  data : Bytes

def Part.encode (part : Part) : Bytes := part.headers.flatMap Header.encode ++ crlf ++ part.data

theorem headerField_nameByte (h : isNameByte c) : headerField i c p = .next (i + 1) p := by
  obtain ⟨h1, h2, h3, h4⟩ : c ≠ CR ∧ ¬ (c = 32 ∨ c = 9) ∧ c ≠ 58 ∧
      ¬ (c ≠ 45 ∧ (toLower c < 97 ∨ 122 < toLower c)) := by
    simp only [isNameByte, UInt8.le_iff_toNat_le, ← UInt8.toNat_inj, UInt8.reduceToNat] at h
    simp only [CR, UInt8.lt_iff_toNat_lt, ← UInt8.toNat_inj, ne_eq, UInt8.reduceToNat, toLower_toNat]
    split <;> omega
  simp only [headerField, if_neg h1, if_neg h2, if_neg h3, if_neg h4]

variable {rest : Bytes}

theorem name_moves {name : Bytes} (hs : p.state = .headerField) (hn : ∀ c ∈ name, isNameByte c)
    (hr : buf.drop i = name ++ 58 :: rest) :
    ∃ j, Moves buf i p j { p with state := .headerValueStart } ∧ i < j ∧ buf.drop j = rest := by
  induction name generalizing i with
  | nil =>
    obtain ⟨hi, hr⟩ := reads_cons hr
    exact ⟨i + 1, .one hi (by simp only [turn, hs]; rfl), Nat.lt_succ_self i, hr⟩
  | cons c name ih =>
    obtain ⟨hi, hr⟩ := reads_cons hr
    obtain ⟨j, hm, hj, hr⟩ := ih (fun c hc => hn c (.tail _ hc)) hr
    refine ⟨j, .step hi ?_ hm, by omega, hr⟩
    simp only [turn, hs]
    exact headerField_nameByte (hn c (.head _))

theorem value_moves {v : Bytes} (hs : p.state = .headerValue) (hv : CR ∉ v)
    (hr : buf.drop i = v ++ CR :: rest) :
    ∃ j, Moves buf i p j { p with state := .headerValueAlmostDone } ∧ i < j ∧ buf.drop j = rest := by
  induction v generalizing i with
  | nil =>
    obtain ⟨hi, hr⟩ := reads_cons hr
    exact ⟨i + 1, .one hi (by simp only [turn, hs]; rfl), Nat.lt_succ_self i, hr⟩
  | cons c v ih =>
    obtain ⟨hi, hr⟩ := reads_cons hr
    have hc : c ≠ CR := fun e => hv (e ▸ .head _)
    obtain ⟨j, hm, hj, hr⟩ := ih (fun h => hv (.tail _ h)) hr
    refine ⟨j, .step hi ?_ hm, by omega, hr⟩
    simp only [turn, hs, headerValue, if_neg hc]

/-- Blanks in front of a value are skipped. -/
theorem valueStart_moves {v : Bytes} (hs : p.state = .headerValueStart) (hv : CR ∉ v)
    (hr : buf.drop i = v ++ CR :: rest) :
    ∃ j m, Moves buf i p j { p with state := .headerValueAlmostDone, mark := m } ∧ i < j ∧ buf.drop j = rest := by
  have value {c : UInt8} {v : Bytes} (i : Nat) (hc : ¬ (c = 32 ∨ c = 9)) (hv : CR ∉ v)
      (hr : buf.drop i = v ++ CR :: rest) (hi : buf[i]? = some c) :
      ∃ j m, Moves buf i p j { p with state := .headerValueAlmostDone, mark := m } ∧ i < j ∧
        buf.drop j = rest := by
    obtain ⟨j, hm, hj, hr⟩ := value_moves (p := { p with mark := i, state := .headerValue }) rfl hv hr
    cases hm with
    | step hi' ht hm =>
      obtain rfl := Option.some.inj (hi.symm.trans hi')
      refine ⟨j, i, .step hi' ?_ hm, hj, hr⟩
      rw [← ht]
      simp only [turn, hs, if_neg hc]
  induction v generalizing i with
  | nil => exact value i (by decide) hv hr (reads_cons hr).1
  | cons c v ih =>
    obtain ⟨hi, hr'⟩ := reads_cons hr
    by_cases hc : c = 32 ∨ c = 9
    · obtain ⟨j, m, hm, hj, hr⟩ := ih (fun h => hv (.tail _ h)) hr'
      refine ⟨j, m, .step hi ?_ hm, by omega, hr⟩
      simp only [turn, hs, if_pos hc]
    · exact value i hc hv hr hi

/-- A header changes nothing but the mark. -/
theorem header_moves (h : Header) (hs : p.state = .headerFieldStart) (hr : buf.drop i = h.encode ++ rest) :
    ∃ j m, Moves buf i p j { p with mark := m } ∧ i < j ∧ buf.drop j = rest := by
  have hr : buf.drop i = h.name ++ 58 :: (32 :: h.value ++ CR :: (LF :: rest)) := by
    have colon : text ": " = [58, 32] := by decide
    simp only [hr, Header.encode, colon, crlf, List.append_assoc, List.cons_append, List.nil_append]
  obtain ⟨j₁, hm₁, hj₁, hr⟩ := name_moves (p := { p with mark := i, state := .headerField }) rfl h.name_bytes hr
  have hm₁ := hm₁.enter (p := p) (Nat.ne_of_lt hj₁) (fun c => by simp only [turn, hs])
  obtain ⟨j₂, m, hm₂, hj₂, hr⟩ := valueStart_moves (v := 32 :: h.value)
    (p := { p with mark := i, state := .headerValueStart }) rfl
    (fun hmem => h.value_no_CR ((List.mem_cons.mp hmem).resolve_left (by decide))) hr
  obtain ⟨hi, hr⟩ := reads_cons hr
  refine ⟨j₂ + 1, m, (hm₁.trans hm₂).trans (.one hi ?_), by omega, hr⟩
  simp only [turn, ne_eq, not_true_eq_false, ↓reduceIte, ← hs]

/-! ## Parts -/

/-- In front of a part's headers, with the parts before it in `files`. -/
structure AtPart (d : Bytes) (files : List Bytes) (p : Parser) : Prop where
  holds : Holds d p
  state : p.state = .headerFieldStart
  files : p.files = files
  current : p.currentFileData = []

variable {files : List Bytes}

theorem AtPart.setMark (h : AtPart d files p) (m : Nat) : AtPart d files { p with mark := m } :=
  ⟨⟨h.holds.boundary, h.holds.boundaryLength, h.holds.lookbehind⟩, h.state, h.files, h.current⟩

theorem headers_moves {hs : List Header} (h : AtPart d files p)
    (hr : buf.drop i = hs.flatMap Header.encode ++ rest) :
    ∃ j q, Moves buf i p j q ∧ AtPart d files q ∧ buf.drop j = rest := by
  induction hs generalizing i p with
  | nil => exact ⟨i, p, .refl, h, hr⟩
  | cons a hs ih =>
    rw [List.flatMap_cons, List.append_assoc] at hr
    obtain ⟨j, m, hm, -, hr⟩ := header_moves a h.state hr
    obtain ⟨k, q, hm', hq, hr⟩ := ih (h.setMark m) hr
    exact ⟨k, q, hm.trans hm', hq, hr⟩

/-- The empty line after the headers, up to the data. -/
theorem blank_moves (h : AtPart d files p) (hr : buf.drop i = crlf ++ rest) :
    ∃ p', Moves buf i p (i + 2) p' ∧ buf.drop (i + 2) = rest ∧ Holds d p' ∧ p'.state = .partDataStart ∧
      p'.files = files ∧ p'.currentFileData = [] := by
  obtain ⟨hi, hr⟩ := reads_cons hr
  obtain ⟨hi', hr⟩ := reads_cons hr
  refine ⟨{ p with mark := i, state := .partDataStart },
    .step (r := { p with mark := i, state := .headersAlmostDone }) hi ?_ (.one hi' rfl), hr,
    ⟨h.holds.boundary, h.holds.boundaryLength, h.holds.lookbehind⟩, rfl, h.files, h.current⟩
  simp only [turn, h.state, headerField, ↓reduceIte]

theorem simple_delimiter (hd : CR ∉ d) : Simple (crlf ++ d) := by
  refine simple_cons fun h => ?_
  rcases List.mem_cons.mp h with h | h
  · exact absurd h (by decide)
  · exact hd h

/-- A part, with the delimiter that ends it. -/
theorem part_moves (hd : d ≠ []) (hCR : CR ∉ d) (part : Part) (hpart : ¬ crlf ++ d <:+: part.data)
    (h : AtPart d files p) (hr : buf.drop i = part.encode ++ (crlf ++ d) ++ rest) :
    ∃ j q, Moves buf i p j q ∧ buf.drop j = rest ∧ Holds d q ∧ q.state = .partDataAlmostEnd ∧
      q.files = files ++ [part.data] ∧ q.currentFileData = [] := by
  rw [Part.encode, List.append_assoc, List.append_assoc, List.append_assoc] at hr
  obtain ⟨j, q, hm, hq, hr⟩ := headers_moves h hr
  obtain ⟨q', hm', hr, hh, hst, hf, hc⟩ := blank_moves hq hr
  have hsimple := simple_delimiter hCR
  have hfirst : NoneBefore (crlf ++ d) (part.data ++ (crlf ++ d) ++ rest) part.data.length :=
    hsimple.noneBefore hpart
  have hscan := Scan.of_first hsimple (by simp [crlf]) hfirst
  have hr : buf.drop (j + 2) = part.data ++ (crlf ++ d) ++ rest := by simp only [hr, List.append_assoc]
  have hin : InData buf d (j + 2) [] 0 { q' with mark := j + 2, state := .partData } := by
    refine ⟨rfl, Nat.le_refl _, ?_⟩
    rw [slice, Nat.sub_self, List.take_zero, List.append_nil]
    exact hc
  have hh' : Holds d { q' with mark := j + 2, state := .partData } := ⟨hh.boundary, hh.boundaryLength, hh.lookbehind⟩
  obtain ⟨k, r, hm'', hk, hr, hr', hst', hf', hc'⟩ := scan_moves hd hscan hr hh' hin
  have hm'' := hm''.enter (p := q') (Nat.ne_of_lt hk) (fun c => by simp only [turn, hst])
  exact ⟨k, r, (hm.trans hm').trans hm'', hr, hr', hst', by rw [hf', List.nil_append]; exact hf ▸ rfl, hc'⟩

/-- CR LF after the delimiter: another part. -/
theorem next_moves (h : Holds d p) (hs : p.state = .partDataAlmostEnd) (hc : p.currentFileData = [])
    (hr : buf.drop i = crlf ++ rest) :
    ∃ q, Moves buf i p (i + 2) q ∧ AtPart d p.files q ∧ buf.drop (i + 2) = rest := by
  obtain ⟨hi, hr⟩ := reads_cons hr
  obtain ⟨hi', hr⟩ := reads_cons hr
  refine ⟨{ p with state := .headerFieldStart }, .step (r := { p with state := .partDataEnd }) hi ?_ (.one hi' rfl),
    ⟨⟨h.boundary, h.boundaryLength, h.lookbehind⟩, rfl, rfl, hc⟩, hr⟩
  simp only [turn, hs, if_neg (show CR ≠ 45 by decide), ↓reduceIte]

/-- Two hyphens after the delimiter: no more parts. -/
theorem end_moves (hs : p.state = .partDataAlmostEnd) (hr : buf.drop i = text "--") :
    Moves buf i p buf.length { p with state := .end } := by
  have hyphens : text "--" = [45, 45] := by decide
  rw [hyphens] at hr
  obtain ⟨hi, hr'⟩ := reads_cons hr
  obtain ⟨hi', -⟩ := reads_cons hr'
  rw [← reads_length hr (by simp)]
  refine .step (r := { p with state := .partDataFinalHyphen }) hi ?_ (.one hi' rfl)
  simp only [turn, hs, ↓reduceIte]

/-- A byte where the first delimiter has `b` next. -/
theorem turn_startBoundary {done e : Bytes} {b : UInt8} (h : Holds (done ++ b :: e) p) (hs : p.state = .startBoundary)
    (hk : p.index = done.length) (c : UInt8) :
    turn buf i c p = if c ≠ b then .ret i p else .next (i + 1) { p with index := p.index + 1 } := by
  have hbl := h.boundaryLength
  rw [List.length_append, List.length_cons] at hbl
  have hget : (done ++ b :: e)[p.index]? = some b := by
    rw [hk, List.getElem?_append_right (Nat.le_refl _), Nat.sub_self]
    rfl
  obtain ⟨hlt, hb⟩ := List.getElem?_eq_some_iff.mp hget
  simp only [turn, hs, startBoundary, h.withBoundary hlt, hb, if_neg (show p.index ≠ p.boundaryLength by omega),
    if_neg (show p.index ≠ p.boundaryLength + 1 by omega)]

/-- One byte of the first delimiter is behind. -/
theorem Holds.startNext {done e : Bytes} {b : UInt8} (h : Holds (done ++ b :: e) p) (hk : p.index = done.length) :
    Holds ((done ++ [b]) ++ e) { p with index := p.index + 1 } ∧ p.index + 1 = (done ++ [b]).length := by
  have hd : done ++ b :: e = (done ++ [b]) ++ e := List.append_cons ..
  refine ⟨⟨hd ▸ h.boundary, hd ▸ h.boundaryLength, hd ▸ h.lookbehind⟩, ?_⟩
  rw [List.length_append, List.length_singleton, hk]

/-- The rest `e` of the first delimiter, and its line end. -/
theorem start_moves {done e : Bytes} (h : Holds (done ++ e) p) (hs : p.state = .startBoundary)
    (hk : p.index = done.length) (hr : buf.drop i = e ++ (crlf ++ rest)) :
    ∃ j, Moves buf i p j { p with index := 0, state := .headerFieldStart } ∧ i < j ∧ buf.drop j = rest := by
  induction e generalizing done i p with
  | nil =>
    obtain ⟨hi, hr⟩ := reads_cons hr
    obtain ⟨hi', hr⟩ := reads_cons hr
    have hlast : p.index = p.boundaryLength := by rw [hk, h.boundaryLength, List.append_nil]
    refine ⟨i + 2, .step (r := { p with index := p.index + 1 }) hi ?_ (.one hi' ?_), by omega, hr⟩
    · simp only [turn, hs, startBoundary, if_pos hlast, ne_eq, not_true_eq_false, ↓reduceIte]
    · simp only [turn, hs, startBoundary, hlast, if_neg (Nat.succ_ne_self _), ne_eq, not_true_eq_false, ↓reduceIte]
  | cons c e ih =>
    obtain ⟨hi, hr⟩ := reads_cons hr
    obtain ⟨hh, hlen⟩ := h.startNext hk
    obtain ⟨j, hm, hj, hr⟩ := ih hh hs hlen hr
    refine ⟨j, .step hi ?_ hm, by omega, hr⟩
    rw [turn_startBoundary h hs hk, if_neg (not_not_intro rfl)]

/-- What follows the first delimiter line: the parts, each ended by a
delimiter, and two hyphens. -/
def encodeParts (d : Bytes) : List Part → Bytes
  | [] => text "--"
  | part :: parts => crlf ++ part.encode ++ (crlf ++ d) ++ encodeParts d parts

theorem parts_moves (hd : d ≠ []) (hCR : CR ∉ d) {parts : List Part}
    (hparts : ∀ part ∈ parts, ¬ crlf ++ d <:+: part.data) (h : Holds d p) (hs : p.state = .partDataAlmostEnd)
    (hc : p.currentFileData = []) (hr : buf.drop i = encodeParts d parts) :
    ∃ q, Moves buf i p buf.length q ∧ q.files = p.files ++ parts.map Part.data := by
  induction parts generalizing i p with
  | nil => exact ⟨_, end_moves hs hr, (List.append_nil _).symm⟩
  | cons part parts ih =>
    have hr : buf.drop i = crlf ++ (part.encode ++ (crlf ++ d) ++ encodeParts d parts) := by
      simp only [hr, encodeParts, List.append_assoc]
    obtain ⟨q, hm, hq, hr⟩ := next_moves h hs hc hr
    obtain ⟨j, q', hm', hr, hh', hs', hf', hc'⟩ :=
      part_moves hd hCR part (hparts part (.head _)) hq hr
    obtain ⟨r, hm'', hf⟩ := ih (fun part h => hparts part (.tail _ h)) hh' hs' hc' hr
    exact ⟨r, (hm.trans hm').trans hm'', by rw [hf, hf', List.append_assoc]; rfl⟩

theorem init_holds {b : Bytes} (hb : 0 ∉ b) : Holds b (init b) := by
  have hstr := cStr_eq_self hb
  exact ⟨congrArg (· ++ [0]) hstr, congrArg List.length hstr, by simp only [init, hstr, List.length_replicate]⟩

/-- **A body is parsed into its parts.** -/
theorem execute_parts (hd : d ≠ []) (hCR : CR ∉ d) (h0 : 0 ∉ d) {parts : List Part} (hne : parts ≠ [])
    (hparts : ∀ part ∈ parts, ¬ crlf ++ d <:+: part.data) :
    ∃ q, multipartParserExecute (init d) (d ++ encodeParts d parts) =
        some (.returned (d ++ encodeParts d parts).length q) ∧ q.files = parts.map Part.data := by
  obtain ⟨part, parts, rfl⟩ := List.exists_cons_of_ne_nil hne
  generalize hbuf : d ++ encodeParts d (part :: parts) = buf
  have hr : buf.drop 0 = d ++ (crlf ++ (part.encode ++ (crlf ++ d) ++ encodeParts d parts)) := by
    simp only [← hbuf, encodeParts, List.drop_zero, List.append_assoc]
  have hh := init_holds h0
  have hstart : Holds ([] ++ d) { init d with state := .startBoundary } :=
    ⟨hh.boundary, hh.boundaryLength, hh.lookbehind⟩
  obtain ⟨i, hm, hi, hr⟩ := start_moves hstart rfl rfl hr
  have hm := hm.enter (p := init d) (Nat.ne_of_lt hi) (fun _ => rfl)
  have hat : AtPart d [] { init d with index := 0, state := .headerFieldStart } :=
    ⟨⟨hh.boundary, hh.boundaryLength, hh.lookbehind⟩, rfl, rfl, rfl⟩
  obtain ⟨j, q, hm', hr, hq, hs, hf, hc⟩ := part_moves hd hCR part (hparts part (.head _)) hat hr
  obtain ⟨q', hm'', hf'⟩ := parts_moves hd hCR (fun part h => hparts part (.tail _ h)) hq hs hc hr
  exact ⟨q', ((hm.trans hm').trans hm'').execute, by rw [hf', hf]; rfl⟩

end AudioToolApi.Multipart
