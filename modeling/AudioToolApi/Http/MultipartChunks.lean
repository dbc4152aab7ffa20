/-
A multipart body in pieces. `multipart_parser_execute` may be called with one
piece of a body after another: it keeps what it has matched of a delimiter in
its lookbehind, and lets data go out at the end of a piece. Whatever the
pieces, the files are those of the whole body, and so is what is left to read
(`pieces_agree`).

Each call comes to the same as the calls for its bytes one by one: the `mark`
only puts off what goes out.
-/
import AudioToolApi.Http.MultipartFacts

namespace AudioToolApi.Multipart

/-- The parser between two calls: `mark` is a variable of the call. -/
def Parser.settled (p : Parser) : Parser := { p with mark := 0 }

/-- The data from the mark on, which goes out with the last byte of the piece
at the latest. -/
def Parser.pending (buf : Bytes) (i : Nat) (p : Parser) : Bytes :=
  if p.state = .partData ∧ i < buf.length then slice buf p.mark (i - p.mark) else []

/-- The parser as if that had gone out. -/
def Parser.seen (buf : Bytes) (i : Nat) (p : Parser) : Parser :=
  { p with mark := 0, currentFileData := p.currentFileData ++ p.pending buf i }

def Turn.seen (buf : Bytes) (i : Nat) : Turn → Turn
  | .next i' p => .next (i' - i) (p.seen buf i')
  | .ret n p => .ret (n - i) p.settled
  | .fault => .fault

variable {buf : Bytes} {i : Nat} {c : UInt8} {p : Parser}

/-! ## One turn -/

theorem seen_outside (h : p.state ≠ .partData) : p.seen buf i = p.settled := by
  simp [Parser.seen, Parser.settled, Parser.pending, h]

theorem seen_end (h : buf.length ≤ i) : p.seen buf i = p.settled := by
  simp [Parser.seen, Parser.settled, Parser.pending, Nat.not_lt.mpr h]

theorem seen_mark (h : p.mark = i) : p.seen buf i = p.settled := by
  simp [Parser.seen, Parser.settled, Parser.pending, h, slice]

theorem startBoundary_seen (hs : p.state = .startBoundary) :
    (startBoundary i c p).seen buf i = (startBoundary 0 c p.settled).seen [c] 0 := by
  unfold startBoundary Parser.withBoundary
  cases hb : p.boundary[p.index]? <;>
    simp [Parser.settled, hb] <;> split_ifs <;> simp [Turn.seen, Parser.seen, Parser.pending, Parser.settled, hs]

theorem headerField_seen (hs : p.state = .headerField) :
    (headerField i c p).seen buf i = (headerField 0 c p.settled).seen [c] 0 := by
  unfold headerField
  split_ifs <;> simp [Turn.seen, Parser.seen, Parser.pending, Parser.settled, hs]

theorem headerValue_seen (hs : p.state = .headerValue) :
    (headerValue i c p).seen buf i = (headerValue 0 c p.settled).seen [c] 0 := by
  unfold headerValue
  split_ifs <;> simp [Turn.seen, Parser.seen, Parser.pending, Parser.settled, hs]

theorem setLookbehind_seen {q : Parser} {next next' : Parser → Turn} {buf' : Bytes} {i' k : Nat}
    (hlb : p.lookbehind = q.lookbehind)
    (h : (next { p with lookbehind := p.lookbehind.set k c }).seen buf i =
      (next' { q with lookbehind := q.lookbehind.set k c }).seen buf' i') :
    (p.setLookbehind k c next).seen buf i = (q.setLookbehind k c next').seen buf' i' := by
  unfold Parser.setLookbehind
  rw [← hlb] at h ⊢
  split_ifs
  · exact h
  · rfl

theorem emitLookbehind_seen {q : Parser} {next next' : Parser → Turn} {buf' : Bytes} {i' k : Nat}
    (hlb : p.lookbehind = q.lookbehind)
    (h : (next (p.emit (p.lookbehind.take k))).seen buf i = (next' (q.emit (q.lookbehind.take k))).seen buf' i') :
    (p.emitLookbehind k next).seen buf i = (q.emitLookbehind k next').seen buf' i' := by
  unfold Parser.emitLookbehind
  rw [← hlb] at h ⊢
  split_ifs
  · exact h
  · rfl

/-- A byte of data goes out with those before it. -/
theorem partData_seen (hc : buf[i]? = some c) (hs : p.state = .partData) (hmark : p.mark ≤ i) :
    (partData buf i c p).seen buf i = (partData [c] 0 c (p.seen buf i)).seen [c] 0 := by
  have hi : i < buf.length := (List.getElem?_eq_some_iff.mp hc).1
  have hslice := slice_succ hc hmark
  have hseen : p.seen buf i =
      { p with mark := 0, currentFileData := p.currentFileData ++ slice buf p.mark (i - p.mark) } := by
    simp [Parser.seen, Parser.pending, hs, hi]
  have hnone : slice [c] 0 0 = [] := rfl
  have hone : slice [c] 0 1 = [c] := rfl
  rw [hseen]
  unfold partData
  by_cases hCR : c = CR
  · rw [if_pos hCR, if_pos hCR]
    refine setLookbehind_seen rfl ?_
    simp [Turn.seen, Parser.seen, Parser.pending, Parser.emit, hnone]
  · rw [if_neg hCR, if_neg hCR, if_pos (show 0 = [c].length - 1 from rfl)]
    split_ifs with hlast
    · have hend : i - p.mark + 1 = i + 1 - p.mark := by omega
      have hlength : ¬ i + 1 < buf.length := by omega
      simp [Turn.seen, Parser.seen, Parser.pending, Parser.emit, hone, hend, hslice, hlength]
    · have hlength : i + 1 < buf.length := by omega
      simp [Turn.seen, Parser.seen, Parser.pending, Parser.emit, hs, hone, hslice, hlength]

theorem reread_seen (p : Parser) : (reread i p).seen buf i = (reread 0 p.settled).seen [c] 0 := by
  simp [reread, Turn.seen, Parser.seen, Parser.pending, Parser.settled, slice]

/-- **A turn on a byte of a piece** is the turn on the byte alone. -/
theorem turn_seen (hc : buf[i]? = some c) (hmark : p.state = .partData → p.mark ≤ i) :
    (turn buf i c p).seen buf i = (turn [c] 0 c (p.seen buf i)).seen [c] 0 := by
  by_cases hdata : p.state = .partData
  · have hs : (p.seen buf i).state = .partData := hdata
    simp only [turn, hdata, hs]
    exact partData_seen hc hdata (hmark hdata)
  rw [seen_outside hdata]
  have hnext {s : State} (hs : s ≠ .partData) :
      (Turn.next (i + 1) { p with state := s }).seen buf i = (Turn.next 1 { p.settled with state := s }).seen [c] 0 := by
    simp [Turn.seen, Parser.seen, Parser.pending, Parser.settled, hs]
  have hret : (Turn.ret i p).seen buf i = (Turn.ret 0 p.settled).seen [c] 0 := by
    simp [Turn.seen, Parser.settled]
  have hstate : p.settled.state = p.state := rfl
  unfold turn
  rw [hstate]
  cases hs : p.state with
  | partData => exact absurd hs hdata
  | start => exact startBoundary_seen (p := { p with index := 0, state := .startBoundary }) rfl
  | startBoundary => exact startBoundary_seen hs
  | headerFieldStart => exact headerField_seen (p := { p with mark := i, state := .headerField }) rfl
  | headerField => exact headerField_seen hs
  | headersAlmostDone | headerValueAlmostDone =>
    dsimp only
    split_ifs
    · exact hret
    · exact hnext (by simp)
  | headerValueStart =>
    dsimp only
    split_ifs
    · simp [Turn.seen, seen_outside, hdata, Parser.settled]
    · exact headerValue_seen (p := { p with mark := i, state := .headerValue }) rfl
  | headerValue => exact headerValue_seen hs
  | partDataStart =>
    let q : Parser := { p with mark := i, state := .partData }
    have hdata : (partData buf i c q).seen buf i = (partData [c] 0 c (q.seen buf i)).seen [c] 0 :=
      partData_seen hc rfl (Nat.le_refl i)
    have hq : q.seen buf i = q.settled := seen_mark rfl
    rw [hq] at hdata
    exact hdata
  | partDataAlmostBoundary =>
    dsimp only
    split_ifs
    · refine setLookbehind_seen rfl ?_
      simp [Turn.seen, Parser.seen, Parser.pending, Parser.settled]
    · exact emitLookbehind_seen rfl (reread_seen _)
  | partDataBoundary =>
    show (p.withBoundary _).seen buf i = (p.settled.withBoundary _).seen [c] 0
    unfold Parser.withBoundary
    rw [show p.settled.boundary = p.boundary from rfl, show p.settled.index = p.index from rfl]
    cases p.boundary[p.index]? with
    | none => rfl
    | some b =>
      dsimp only
      split_ifs
      · exact emitLookbehind_seen rfl (reread_seen _)
      · refine setLookbehind_seen rfl ?_
        by_cases hend : p.index + 1 = p.boundaryLength
        · simp [Turn.seen, Parser.seen, Parser.pending, Parser.settled, Parser.partDataEnd, hend]
        · simp [Turn.seen, Parser.seen, Parser.pending, Parser.settled, hs, hend]
  | partDataAlmostEnd =>
    dsimp only
    split_ifs
    · exact hnext (by simp)
    · exact hnext (by simp)
    · exact hret
  | partDataFinalHyphen | partDataEnd =>
    dsimp only
    split_ifs
    · exact hnext (by simp)
    · exact hret
  | «end» => simp [Turn.seen, seen_outside, hdata, Parser.settled]

/-- The mark is not ahead of the byte, and the loop is left at it. -/
def Turn.Marked (i : Nat) : Turn → Prop
  | .next i' p => p.state = .partData → p.mark ≤ i'
  | .ret n _ => n = i
  | .fault => True

theorem marked_ite {P : Prop} [Decidable P] {t e : Turn} (ht : t.Marked i) (he : e.Marked i) :
    (if P then t else e).Marked i := by
  split
  · exact ht
  · exact he

theorem marked_next {q : Parser} {j : Nat} (hq : q.state ≠ .partData) : (Turn.next j q).Marked i :=
  fun h => absurd h hq

theorem setLookbehind_marked {q : Parser} {k : Nat} {next : Parser → Turn}
    (h : (next { q with lookbehind := q.lookbehind.set k c }).Marked i) : (q.setLookbehind k c next).Marked i :=
  marked_ite h trivial

theorem reread_marked {q : Parser} {k : Nat} : (q.emitLookbehind k (reread i)).Marked i :=
  marked_ite (fun _ => Nat.le_refl i) trivial

theorem startBoundary_marked (hs : p.state = .startBoundary) : (startBoundary i c p).Marked i := by
  have hstay (k : Nat) : (Turn.next (i + 1) { p with index := k }).Marked i := marked_next (by simp [hs])
  unfold startBoundary Parser.withBoundary
  refine marked_ite (marked_ite rfl (hstay _)) (marked_ite (marked_ite rfl (marked_next (by simp))) ?_)
  split
  · exact marked_ite rfl (hstay _)
  · trivial

theorem headerField_marked (hs : p.state = .headerField) : (headerField i c p).Marked i := by
  have hmoved {s : State} (h : s ≠ .partData) : (Turn.next (i + 1) { p with state := s }).Marked i := marked_next h
  refine marked_ite (hmoved (by simp)) (marked_ite (hmoved (by simp)) (marked_ite (hmoved (by simp)) ?_))
  exact marked_ite rfl (marked_next (by simp [hs]))

theorem headerValue_marked (hs : p.state = .headerValue) : (headerValue i c p).Marked i :=
  marked_ite (marked_next (by simp)) (marked_next (by simp [hs]))

theorem partData_marked (hmark : p.mark ≤ i) : (partData buf i c p).Marked i := by
  have hstay {data : Bytes} : (Turn.next (i + 1) (p.emit data)).Marked i := fun _ => Nat.le_succ_of_le hmark
  exact marked_ite (setLookbehind_marked (marked_next (by simp)))
    (marked_ite hstay fun _ => Nat.le_succ_of_le hmark)

theorem turn_marked (hmark : p.state = .partData → p.mark ≤ i) : (turn buf i c p).Marked i := by
  have hmoved {s : State} (h : s ≠ .partData) : (Turn.next (i + 1) { p with state := s }).Marked i := marked_next h
  unfold turn
  cases hs : p.state with
  | start => exact startBoundary_marked rfl
  | startBoundary => exact startBoundary_marked hs
  | headerFieldStart => exact headerField_marked rfl
  | headerField => exact headerField_marked hs
  | headersAlmostDone => exact marked_ite rfl (hmoved (by simp))
  | headerValueStart => exact marked_ite (marked_next (by simp [hs])) (headerValue_marked rfl)
  | headerValue => exact headerValue_marked hs
  | headerValueAlmostDone => exact marked_ite rfl (hmoved (by simp))
  | partDataStart => exact partData_marked (Nat.le_refl i)
  | partData => exact partData_marked (hmark hs)
  | partDataAlmostBoundary => exact marked_ite (setLookbehind_marked (marked_next (by simp))) reread_marked
  | partDataBoundary =>
    dsimp only
    unfold Parser.withBoundary
    split
    · refine marked_ite reread_marked (setLookbehind_marked (marked_ite (marked_next (by simp)) (marked_next ?_)))
      simp [hs]
    · trivial
  | partDataAlmostEnd => exact marked_ite (hmoved (by simp)) (marked_ite (hmoved (by simp)) rfl)
  | partDataFinalHyphen => exact marked_ite (hmoved (by simp)) rfl
  | partDataEnd => exact marked_ite (hmoved (by simp)) rfl
  | «end» => exact marked_next (by simp [hs])

/-! ## The loop -/

theorem loop_fuel {fuel : Nat} (h : todo buf i p < fuel) : loop buf (fuel + 1) i p = loop buf fuel i p := by
  induction fuel generalizing i p with
  | zero => exact absurd h (Nat.not_lt_zero _)
  | succ fuel ih =>
    rw [loop, loop]
    cases hc : buf[i]? with
    | none => rfl
    | some c =>
      have hi : i < buf.length := (List.getElem?_eq_some_iff.mp hc).1
      cases ht : turn buf i c p with
      | next i' p' =>
        have hless := todo_decreases hi ht
        simp only [ht]
        exact ih (by omega)
      | ret n p' => simp only [ht]
      | fault => simp only [ht]

/-- Not more than the piece is read. -/
theorem loop_le {fuel n : Nat} {q : Parser} (hmark : p.state = .partData → p.mark ≤ i)
    (h : loop buf fuel i p = some (.returned n q)) : n ≤ buf.length := by
  induction fuel generalizing i p with
  | zero => cases h
  | succ fuel ih =>
    rw [loop] at h
    cases hc : buf[i]? with
    | none =>
      simp only [hc, Option.some.injEq, Ended.returned.injEq] at h
      omega
    | some c =>
      have hi : i < buf.length := (List.getElem?_eq_some_iff.mp hc).1
      have hmarked : (turn buf i c p).Marked i := turn_marked hmark
      cases ht : turn buf i c p with
      | next i' p' =>
        rw [ht] at hmarked
        simp only [hc, ht] at h
        exact ih hmarked h
      | ret m p' =>
        rw [ht] at hmarked
        have hm : m = i := hmarked
        simp only [hc, ht, Option.some.injEq, Ended.returned.injEq] at h
        omega
      | fault =>
        simp only [hc, ht] at h
        cases h

theorem execute_le {n : Nat} {q : Parser} (h : multipartParserExecute p.settled buf = some (.returned n q)) :
    n ≤ buf.length := loop_le (fun _ => Nat.le_refl 0) h

/-! ## Pieces -/

/-- The end, as the next call finds it. -/
def Ended.settled : Ended → Ended
  | .returned n p => .returned n p.settled
  | .fault => .fault

/-- The end, where `k` bytes were read before. -/
def Ended.after (k : Nat) : Ended → Ended
  | .returned n p => .returned (k + n) p
  | .fault => .fault

/-- A call for each piece, until one is not read to its end: how many bytes
are read in all. -/
def feed (p : Parser) : List Bytes → Option Ended
  | [] => some (.returned 0 p)
  | piece :: pieces =>
    match multipartParserExecute p.settled piece with
    | some (.returned n q) => if n = piece.length then (feed q pieces).map (.after n) else some (.returned n q)
    | ended => ended

theorem feed_settled (p : Parser) (pieces : List Bytes) :
    (feed p.settled pieces).map Ended.settled = (feed p pieces).map Ended.settled := by
  cases pieces <;> rfl

theorem settled_after (k : Nat) (e : Ended) : (e.after k).settled = e.settled.after k := by
  cases e <;> rfl

@[simp] theorem after_zero (e : Ended) : e.after 0 = e := by
  cases e <;> simp [Ended.after]

theorem after_after (j k : Nat) (e : Ended) : (e.after k).after j = e.after (j + k) := by
  cases e with
  | returned n p => simp [Ended.after, Nat.add_assoc]
  | fault => rfl

theorem feed_settled_map {α : Type} (p : Parser) (pieces : List Bytes) (f : Ended → α) :
    (feed p.settled pieces).map (fun e => f e.settled) = (feed p pieces).map fun e => f e.settled := by
  have h := congrArg (Option.map f) (feed_settled p pieces)
  rwa [Option.map_map, Option.map_map] at h

/-- The bytes one by one. -/
def bytewise (buf : Bytes) : List Bytes := buf.map fun c => [c]

theorem bytewise_flatten (buf : Bytes) : (bytewise buf).flatten = buf := by
  induction buf with
  | nil => rfl
  | cons c buf ih => simpa [bytewise] using ih

/-- What a turn on the byte alone makes of the call for it. -/
theorem execute_one (p : Parser) (c : UInt8) :
    multipartParserExecute p [c] = match turn [c] 0 c p with
      | .next i' p' => loop [c] 3 i' p'
      | .ret n p' => some (.returned n p')
      | .fault => some .fault := rfl

/-- A byte that is read again is data, and its call is the one for data. -/
theorem execute_data (hs : p.state = .partData) (hmark : p.mark ≤ 0) :
    p.seen [c] 0 = p ∧ loop [c] 3 0 p = multipartParserExecute p.settled [c] := by
  have hzero : p.mark = 0 := Nat.le_zero.mp hmark
  have hsettled : p.settled = p := by rw [Parser.settled, ← hzero]
  have htodo : todo [c] 0 p < 3 := by simp [todo, hs, State.matching]
  refine ⟨(seen_mark hzero).trans hsettled, ?_⟩
  rw [hsettled]
  exact (loop_fuel htodo).symm

/-- **A call is as good as the calls for its bytes one by one.** -/
theorem loop_seen {fuel : Nat} (hi : i ≤ buf.length) (hmark : p.state = .partData → p.mark ≤ i)
    (hfuel : todo buf i p < fuel) :
    (loop buf fuel i p).map Ended.settled =
      (feed (p.seen buf i) (bytewise (buf.drop i))).map fun e => (e.after i).settled := by
  induction fuel generalizing i p with
  | zero => exact absurd hfuel (Nat.not_lt_zero _)
  | succ fuel ih =>
    rw [loop]
    cases hc : buf[i]? with
    | none =>
      have hend : buf.length ≤ i := List.getElem?_eq_none_iff.mp hc
      have hlength : i = buf.length := Nat.le_antisymm hi hend
      rw [List.drop_of_length_le hend, seen_end hend]
      simp [bytewise, feed, Ended.settled, Ended.after, Parser.settled, hlength]
    | some c =>
      have hlt : i < buf.length := (List.getElem?_eq_some_iff.mp hc).1
      have hdrop : buf.drop i = c :: buf.drop (i + 1) := by
        rw [List.drop_eq_getElem_cons hlt, (List.getElem?_eq_some_iff.mp hc).2]
      have hseen := turn_seen hc hmark
      have hmarked : (turn buf i c p).Marked i := turn_marked hmark
      have halone : (turn [c] 0 c (p.seen buf i)).Marked 0 := turn_marked fun _ => Nat.le_refl 0
      have hforward : (turn buf i c p).Forward i p := turn_forward
      have hsettled : (p.seen buf i).settled = p.seen buf i := rfl
      have hdecreases : ∀ i' p', turn buf i c p = .next i' p' → todo buf i' p' < todo buf i p :=
        fun _ _ => todo_decreases hlt
      rw [hdrop, bytewise, List.map_cons, feed, hsettled, execute_one]
      dsimp only
      generalize turn [c] 0 c (p.seen buf i) = alone at hseen halone ⊢
      generalize turn buf i c p = whole at hseen hmarked hforward hdecreases ⊢
      cases whole with
      | fault =>
        cases alone with
        | fault => rfl
        | next => cases hseen
        | ret => cases hseen
      | ret n p' =>
        cases alone with
        | fault => cases hseen
        | next => cases hseen
        | ret m q =>
          obtain rfl : m = 0 := halone
          obtain rfl : n = i := hmarked
          have hp' : p'.settled = q.settled := by simpa [Turn.seen] using hseen
          simp [Ended.settled, Ended.after, hp']
      | next i' p' =>
        cases alone with
        | fault => cases hseen
        | ret => cases hseen
        | next j q =>
          have hless := hdecreases i' p' rfl
          obtain ⟨hj, hq⟩ : i' - i = j ∧ p'.seen buf i' = q.seen [c] j := by simpa [Turn.seen] using hseen
          rcases hforward with rfl | ⟨rfl, -, hs⟩
          · obtain rfl : 1 = j := by omega
            have hend : q.seen [c] 1 = q.settled := seen_end (Nat.le_refl 1)
            have hnext := @ih (i + 1) p' hlt hmarked (by omega)
            rw [hq, hend] at hnext
            show _ = ((feed q (bytewise (buf.drop (i + 1)))).map (Ended.after 1)).map fun e : Ended => (e.after i).settled
            simp only [hnext, settled_after, after_after, Option.map_map, Function.comp_def]
            exact feed_settled_map q _ _
          · obtain rfl : 0 = j := by omega
            have hstate : q.state = .partData := (congrArg Parser.state hq).symm.trans hs
            obtain ⟨hqseen, hcall⟩ := @execute_data c q hstate (halone hstate)
            have hagain := ih hi hmarked (by omega)
            rw [hq, hqseen, hdrop, bytewise, List.map_cons, feed, ← hcall] at hagain
            exact hagain

theorem execute_bytewise (p : Parser) (buf : Bytes) :
    (multipartParserExecute p.settled buf).map Ended.settled = (feed p (bytewise buf)).map Ended.settled := by
  have hfuel : todo buf 0 p.settled < 2 * buf.length + 2 := by
    unfold todo
    split <;> omega
  have hseen : p.settled.seen buf 0 = p.settled := seen_mark rfl
  have hloop := loop_seen (Nat.zero_le _) (fun _ => Nat.le_refl 0) hfuel
  rw [hseen, List.drop_zero] at hloop
  rw [← feed_settled, multipartParserExecute, hloop]
  simp only [after_zero]

theorem feed_append (p : Parser) (xs ys : List Bytes) :
    feed p (xs ++ ys) = match feed p xs with
      | some (.returned n q) => if n = xs.flatten.length then (feed q ys).map (.after n) else some (.returned n q)
      | ended => ended := by
  induction xs generalizing p with
  | nil =>
    have hafter : Ended.after 0 = id := funext after_zero
    simp [feed, hafter]
  | cons piece xs ih =>
    rw [List.cons_append, feed, feed]
    cases hcall : multipartParserExecute p.settled piece with
    | none => rfl
    | some e =>
      cases e with
      | fault => rfl
      | returned n q =>
        have hle := execute_le hcall
        dsimp only
        by_cases hn : n = piece.length
        · rw [if_pos hn, if_pos hn, ih]
          match feed q xs with
          | none | some .fault => rfl
          | some (.returned m r) =>
            have hlength : n + m = (piece :: xs).flatten.length ↔ m = xs.flatten.length := by simp [hn]
            show Option.map (Ended.after n) (if m = xs.flatten.length then _ else _) =
              if n + m = (piece :: xs).flatten.length then _ else _
            simp only [hlength]
            split_ifs
            · simp [Function.comp_def, after_after]
            · rfl
        · have hlength : n ≠ (piece :: xs).flatten.length := by
            simp only [List.flatten_cons, List.length_append]
            omega
          rw [if_neg hn, if_neg hn]
          exact (if_neg hlength).symm

/-- **Whatever the pieces**, what is read of a body is what is read of it as a
whole: how many bytes, which files, and where the parser stands. -/
theorem pieces_agree (p : Parser) (pieces : List Bytes) :
    (feed p pieces).map Ended.settled = (multipartParserExecute p.settled pieces.flatten).map Ended.settled := by
  rw [execute_bytewise]
  induction pieces generalizing p with
  | nil => rfl
  | cons piece pieces ih =>
    have hbytes : bytewise (piece :: pieces).flatten = bytewise piece ++ bytewise pieces.flatten := by simp [bytewise]
    have hcall := execute_bytewise p piece
    rw [feed, hbytes, feed_append, bytewise_flatten]
    generalize multipartParserExecute p.settled piece = whole at hcall ⊢
    generalize feed p (bytewise piece) = single at hcall ⊢
    match whole, single with
    | none, none | some .fault, some .fault => rfl
    | some (.returned n q), some (.returned m r) =>
      obtain ⟨rfl, hqr⟩ : n = m ∧ q.settled = r.settled := by simpa [Ended.settled] using hcall
      have hrest : (feed q pieces).map Ended.settled = (feed r (bytewise pieces.flatten)).map Ended.settled := by
        rw [← feed_settled, hqr, feed_settled, ih]
      have hafter := congrArg (Option.map (Ended.after n)) hrest
      simp only [Option.map_map, Function.comp_def, ← settled_after] at hafter
      dsimp only
      split_ifs
      · simpa [Function.comp_def] using hafter
      · exact hcall
    | none, some _ | some _, none | some .fault, some (.returned ..) | some (.returned ..), some .fault =>
      simp [Ended.settled] at hcall

end AudioToolApi.Multipart
