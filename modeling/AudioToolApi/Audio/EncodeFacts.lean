/-
Which packets the encoding side of `AP::process` writes.

Both loops go on until their queue is empty, so between two calls nothing is
waiting anywhere: every send finds an empty queue, and the source may well
drop its result. What has been written for a stream is what its encoder
makes of what its graph makes of what the stream was fed (`Progress`); each
call adds its part (`Progress.feed`).
-/
import Mathlib.Data.List.FinRange
import AudioToolApi.Audio.Encode
import AudioToolApi.Audio.DecodeFacts

namespace AudioToolApi.Audio

variable {F G P : Type} {n : Nat}

/-- FFmpeg reports no error but `EAGAIN` and `EOF`. -/
structure Kit.Works (K : Kit F G P n) : Prop where
  feeds : ∀ i fed frame, (K.graph i).feeds fed frame = true
  graph_fails : ∀ i fed k, (K.graph i).fails fed k = false
  codec_fails : ∀ i sent k, (K.codec i).fails sent k = false
  writes : ∀ written packet, K.writes written packet = true

/-! ## What graphs and codecs make of longer inputs -/

theorem Graph.frames_append (g : Graph F G) (fed xs ys : List (Option F)) :
    g.frames fed (xs ++ ys) = g.frames fed xs ++ g.frames (fed ++ xs) ys := by
  induction xs generalizing fed with
  | nil => simp [Graph.frames]
  | cons x xs ih => simp [Graph.frames, ih]

theorem Codec.frames_append (c : Codec G P) (sent xs ys : List G) :
    c.frames sent (xs ++ ys) = c.frames sent xs ++ c.frames (sent ++ xs) ys := by
  induction xs generalizing sent with
  | nil => simp [Codec.frames]
  | cons x xs ih => simp [Codec.frames, ih]

/-! ## The state after some packets -/

/-- The packets of stream `i`, as they stand among the written ones. -/
def tagged (i : Fin n) (packets : List P) : List (P × Fin n) := packets.map fun packet => (packet, i)

/-- `s` once the encoder of stream `i` has become `e` and `packets` have been
written. -/
def EncodeState.wrote (s : EncodeState F G P n) (i : Fin n) (e : Encoder G P) (packets : List P) :
    EncodeState F G P n :=
  { s.setEnc i e with written := s.written ++ tagged i packets }

@[simp] theorem EncodeState.wrote_self (s : EncodeState F G P n) (i : Fin n) (e : Encoder G P) (packets : List P) :
    (s.wrote i e packets).encs i = e := by simp [wrote, setEnc]

@[simp] theorem EncodeState.wrote_filters (s : EncodeState F G P n) (i : Fin n) (e : Encoder G P)
    (packets : List P) : (s.wrote i e packets).filters = s.filters := rfl

@[simp] theorem EncodeState.wrote_wrote (s : EncodeState F G P n) (i : Fin n) (e e' : Encoder G P)
    (packets packets' : List P) : (s.wrote i e packets).wrote i e' packets' = s.wrote i e' (packets ++ packets') := by
  simp [wrote, setEnc, tagged]

theorem EncodeState.wrote_nil (s : EncodeState F G P n) {i : Fin n} {e : Encoder G P} (h : s.encs i = e) :
    s.wrote i e [] = s := by
  subst h
  simp [wrote, setEnc, tagged]

theorem writtenOf_wrote_self (s : EncodeState F G P n) (i : Fin n) (e : Encoder G P) (packets : List P) :
    (s.wrote i e packets).writtenOf i = s.writtenOf i ++ packets := by
  simp [EncodeState.wrote, EncodeState.writtenOf, tagged, List.filterMap_map]

theorem writtenOf_wrote_other (s : EncodeState F G P n) {i j : Fin n} (e : Encoder G P) (packets : List P)
    (h : j ≠ i) : (s.wrote i e packets).writtenOf j = s.writtenOf j := by
  simp [EncodeState.wrote, EncodeState.writtenOf, tagged, List.filterMap_map, Ne.symm h]

section
variable {K : Kit F G P n}

/-! ## One call -/

theorem encodeLoop_done {i : Fin n} {s : EncodeState F G P n}
    (h : (K.codec i).receivePacket (s.encs i) = .again ∨ (K.codec i).receivePacket (s.encs i) = .eof) :
    encodeLoop K i s = .ok s := by
  rw [encodeLoop]
  split
  · rfl
  · rfl
  · rename_i hr
    simp [hr] at h
  · rename_i hr
    simp [hr] at h

theorem encodeLoop_got {i : Fin n} {s : EncodeState F G P n} {packet : P} {e : Encoder G P}
    (h : (K.codec i).receivePacket (s.encs i) = .got (packet, e)) (hw : K.writes s.written (packet, i) = true) :
    encodeLoop K i s = encodeLoop K i (s.wrote i e [packet]) := by
  rw [encodeLoop]
  split
  · rename_i hr
    cases h.symm.trans hr
  · rename_i hr
    cases h.symm.trans hr
  · rename_i hr
    cases h.symm.trans hr
  · rename_i hr
    cases h.symm.trans hr
    rw [if_pos hw]
    rfl

/-- The loop writes every packet that is ready. -/
theorem encodeLoop_run (hK : K.Works) (i : Fin n) :
    ∀ (packets : List P) (s : EncodeState F G P n), (s.encs i).queue = packets →
      encodeLoop K i s = .ok (s.wrote i { s.encs i with queue := [] } packets)
  | [], s, hq => by
    rw [encodeLoop_done, s.wrote_nil (by rw [← hq])]
    cases hd : (s.encs i).draining <;> simp [EncoderCodec.receivePacket, hK.codec_fails, hq, hd]
  | packet :: packets, s, hq => by
    have hr : (K.codec i).receivePacket (s.encs i) = .got (packet, { s.encs i with queue := packets }) := by
      simp [EncoderCodec.receivePacket, hK.codec_fails, hq]
    rw [encodeLoop_got hr (hK.writes _ _), encodeLoop_run hK i packets _ (by simp)]
    simp

/-- With nothing waiting, a frame is taken and its packets are written. -/
theorem encodeWrite_frame (hK : K.Works) {i : Fin n} {s : EncodeState F G P n} {sent : List G}
    (he : s.encs i = { sent }) (frame : G) :
    encodeWrite K (some frame) i s =
      .ok (s.wrote i { sent := sent ++ [frame] } ((K.codec i).yields sent frame)) := by
  have hsend : (K.codec i).sendFrame (some frame) (s.encs i) =
      (.ok, { sent := sent ++ [frame], queue := (K.codec i).yields sent frame }) := by
    simp [EncoderCodec.sendFrame, he, (K.codec i).takes_empty]
  rw [encodeWrite, hsend]
  simp only [reduceCtorEq, if_false]
  rw [encodeLoop_run hK i _ _ rfl]
  simp [EncodeState.wrote, EncodeState.setEnc]

/-- NULL for an encoder that has not had it yet. -/
theorem encodeWrite_null (hK : K.Works) {i : Fin n} {s : EncodeState F G P n} {sent : List G}
    (he : s.encs i = { sent }) :
    encodeWrite K none i s = .ok (s.wrote i { sent, draining := true } ((K.codec i).delayed sent)) := by
  have hsend : (K.codec i).sendFrame none (s.encs i) =
      (.ok, { sent, queue := (K.codec i).delayed sent, draining := true }) := by
    simp [EncoderCodec.sendFrame, he]
  rw [encodeWrite, hsend]
  simp only [reduceCtorEq, if_false]
  rw [encodeLoop_run hK i _ _ rfl]
  simp [EncodeState.wrote, EncodeState.setEnc]

/-- NULL for one that has. -/
theorem encodeWrite_null_again (hK : K.Works) {i : Fin n} {s : EncodeState F G P n} {sent : List G}
    (he : s.encs i = { sent, draining := true }) : encodeWrite K none i s = .ok s := by
  have hsend : (K.codec i).sendFrame none (s.encs i) = (.eof, s.encs i) := by
    simp [EncoderCodec.sendFrame, he]
  have hsame : s.setEnc i (s.encs i) = s := by simp [EncodeState.setEnc]
  rw [encodeWrite, hsend]
  simp only [reduceCtorEq, if_false, hsame]
  rw [encodeLoop_run hK i [] s (by rw [he]), s.wrote_nil (by rw [he])]

theorem filterLoop_done {i : Fin n} {s : EncodeState F G P n}
    (h : (K.graph i).getFrame (s.filters i) = .again ∨ (K.graph i).getFrame (s.filters i) = .eof) :
    filterLoop K i s = .ok s := by
  rw [filterLoop]
  split
  · rfl
  · rfl
  · rename_i hr
    simp [hr] at h
  · rename_i hr
    simp [hr] at h

theorem filterLoop_got {i : Fin n} {s s' : EncodeState F G P n} {frame : G} {f : Filtering F G}
    (h : (K.graph i).getFrame (s.filters i) = .got (frame, f))
    (hw : encodeWrite K (some frame) i (s.setFilter i f) = .ok s') : filterLoop K i s = filterLoop K i s' := by
  rw [filterLoop]
  split
  · rename_i hr
    cases h.symm.trans hr
  · rename_i hr
    cases h.symm.trans hr
  · rename_i hr
    cases h.symm.trans hr
  · rename_i hr
    cases h.symm.trans hr
    split
    · rename_i hw'
      cases hw.symm.trans hw'
      rfl
    · rename_i hw'
      cases hw.symm.trans hw'

/-- The loop encodes every frame that is ready. The encoder is empty at
each turn, since `encode_write` leaves it so. -/
theorem filterLoop_run (hK : K.Works) (i : Fin n) (fed : List (Option F)) :
    ∀ (frames : List G) (s : EncodeState F G P n) (sent : List G),
      s.filters i = { fed, queue := frames } → s.encs i = { sent } →
      filterLoop K i s =
        .ok ((s.setFilter i { fed }).wrote i { sent := sent ++ frames } ((K.codec i).frames sent frames))
  | [], s, sent, hf, he => by
    have hsame : s.setFilter i { fed } = s := by simp [EncodeState.setFilter, ← hf]
    rw [filterLoop_done, hsame, List.append_nil, Codec.frames, s.wrote_nil he]
    cases hd : fed.any Option.isNone <;> simp [Graph.getFrame, hK.graph_fails, hf, hd]
  | frame :: frames, s, sent, hf, he => by
    have hr : (K.graph i).getFrame (s.filters i) = .got (frame, { fed, queue := frames }) := by
      simp [Graph.getFrame, hK.graph_fails, hf]
    have hw := encodeWrite_frame hK (s := s.setFilter i { fed, queue := frames }) he frame
    rw [filterLoop_got hr hw, filterLoop_run hK i fed frames _ (sent ++ [frame]) (by simp) (by simp)]
    simp [EncodeState.setFilter, EncodeState.wrote, EncodeState.setEnc, Codec.frames, tagged]

/-! ## Runs -/

/-- How far each stream has come: what it has been fed, and whether its
encoder has had NULL. -/
structure Progress (K : Kit F G P n) (s : EncodeState F G P n) (fed : Fin n → List (Option F))
    (flushed : Fin n → Bool) : Prop where
  filters : ∀ i, s.filters i = { fed := fed i }
  encs : ∀ i, s.encs i = { sent := (K.graph i).frames [] (fed i), draining := flushed i }
  written : ∀ i, s.writtenOf i = (K.codec i).frames [] ((K.graph i).frames [] (fed i)) ++
    if flushed i then (K.codec i).delayed ((K.graph i).frames [] (fed i)) else []
  refused : s.refused = []

theorem Progress.init : Progress K {} (fun _ => []) fun _ => false :=
  ⟨fun _ => rfl, fun _ => rfl, fun _ => rfl, rfl⟩

/-- A frame, or NULL, for a stream whose encoder has not been flushed. -/
theorem Progress.feed (hK : K.Works) {s : EncodeState F G P n} {fed : Fin n → List (Option F)}
    {flushed : Fin n → Bool} (h : Progress K s fed flushed) (frame : Option F) {i : Fin n} (hi : flushed i = false) :
    ∃ s', K.filterEncodeWrite frame i s = .ok s' ∧
      Progress K s' (Function.update fed i (fed i ++ [frame])) flushed := by
  have hf := h.filters i
  have he := h.encs i
  rw [hi] at he
  have hadd : (K.graph i).addFrame frame (s.filters i) =
      some { fed := fed i ++ [frame], queue := (K.graph i).yields (fed i) frame } := by
    simp [Graph.addFrame, hK.feeds, hf]
  have hrun := filterLoop_run hK i (fed i ++ [frame]) ((K.graph i).yields (fed i) frame)
    (s.setFilter i { fed := fed i ++ [frame], queue := (K.graph i).yields (fed i) frame })
    ((K.graph i).frames [] (fed i)) (by simp) he
  have hcall : K.filterEncodeWrite frame i s = filterLoop K i
      (s.setFilter i { fed := fed i ++ [frame], queue := (K.graph i).yields (fed i) frame }) := by
    rw [Kit.filterEncodeWrite, hadd]
  refine ⟨_, hcall.trans hrun, ?_, ?_, ?_, h.refused⟩
  · intro j
    by_cases hj : j = i
    · subst hj
      simp [EncodeState.setFilter]
    · simp [EncodeState.setFilter, hj, h.filters j]
  · intro j
    by_cases hj : j = i
    · subst hj
      simp [hi, Graph.frames_append, Graph.frames]
    · simp [EncodeState.wrote, EncodeState.setEnc, EncodeState.setFilter, hj, h.encs j]
  · intro j
    by_cases hj : j = i
    · subst hj
      have hw := h.written j
      rw [hi] at hw
      rw [writtenOf_wrote_self]
      simpa [hi, Graph.frames_append, Graph.frames, Codec.frames_append, EncodeState.writtenOf,
        EncodeState.setFilter] using hw
    · rw [writtenOf_wrote_other _ _ _ hj, Function.update_of_ne hj]
      exact h.written j

/-- NULL for an encoder with `AV_CODEC_CAP_DELAY`: what it held back is
written. -/
theorem Progress.null (hK : K.Works) {s : EncodeState F G P n} {fed : Fin n → List (Option F)}
    {flushed : Fin n → Bool} (h : Progress K s fed flushed) {i : Fin n} (hi : flushed i = false) :
    ∃ s', encodeWrite K none i s = .ok s' ∧ Progress K s' fed (Function.update flushed i true) := by
  have he := h.encs i
  rw [hi] at he
  refine ⟨_, encodeWrite_null hK he, h.filters, ?_, ?_, h.refused⟩
  · intro j
    by_cases hj : j = i
    · subst hj
      simp
    · simp [EncodeState.wrote, EncodeState.setEnc, hj, h.encs j]
  · intro j
    by_cases hj : j = i
    · subst hj
      have hw := h.written j
      rw [hi] at hw
      rw [writtenOf_wrote_self]
      simpa using hw
    · rw [writtenOf_wrote_other _ _ _ hj, Function.update_of_ne hj]
      exact h.written j

/-! ## Frames of the streams -/

@[simp] theorem framesOf_cons_self (frame : F) (i : Fin n) (frames : List (F × Fin n)) :
    framesOf ((frame, i) :: frames) i = frame :: framesOf frames i := by simp [framesOf]

theorem framesOf_cons_other (frame : F) {i j : Fin n} (h : i ≠ j) (frames : List (F × Fin n)) :
    framesOf ((frame, i) :: frames) j = framesOf frames j := by simp [framesOf, h]

/-- A frame, or NULL, is passed on. -/
theorem filterEncodeWrite_progress (hK : K.Works) {s : DecodeState P F (EncodeState F G P n) n}
    {fed : Fin n → List (Option F)} (h : Progress K s.out fed fun _ => false) (frame : Option F) (i : Fin n) :
    ∃ out, (filterEncodeWrite K.encodeSide frame i).run s = .ok () { s with out, passed := s.passed ++ [(frame, i)] } ∧
      Progress K out (Function.update fed i (fed i ++ [frame])) fun _ => false := by
  obtain ⟨out, hout, hprogress⟩ := h.feed hK frame (i := i) rfl
  refine ⟨out, ?_, hprogress⟩
  have hcall : K.encodeSide.filterEncodeWrite s.out frame i = .ok out := hout
  simp [filterEncodeWrite, hcall]

/-- Any interleaving of frames of the streams. -/
theorem filterEncodeWrites_progress (hK : K.Works) :
    ∀ (frames : List (F × Fin n)) {s : DecodeState P F (EncodeState F G P n) n} {fed : Fin n → List (Option F)},
      Progress K s.out fed (fun _ => false) →
      ∃ s', (filterEncodeWrites K.encodeSide frames).run s = .ok () s' ∧
        Progress K s'.out (fun j => fed j ++ (framesOf frames j).map some) fun _ => false
  | [], s, fed, h => ⟨s, rfl, by simpa [framesOf] using h⟩
  | (frame, i) :: frames, s, fed, h => by
    obtain ⟨out, hout, h₁⟩ := filterEncodeWrite_progress hK h (some frame) i
    obtain ⟨s', hs', h'⟩ := filterEncodeWrites_progress hK frames
      (s := { s with out, passed := s.passed ++ [(some frame, i)] }) h₁
    have hfed : (fun j => Function.update fed i (fed i ++ [some frame]) j ++ (framesOf frames j).map some) =
        fun j => fed j ++ (framesOf ((frame, i) :: frames) j).map some := by
      funext j
      by_cases hj : j = i
      · subst hj
        simp
      · rw [Function.update_of_ne hj, framesOf_cons_other frame (Ne.symm hj)]
    refine ⟨s', by simpa [filterEncodeWrites, hout] using hs', ?_⟩
    rw [← hfed]
    exact h'

/-! ## The flush -/

/-- An encoder that has had NULL gives nothing more, however often it is sent
NULL again. -/
theorem drain_flushed (hK : K.Works) {i : Fin n} {s : DecodeState P F (EncodeState F G P n) n}
    {fed : Fin n → List (Option F)} {flushed : Fin n → Bool} (h : Progress K s.out fed flushed)
    (hi : flushed i = true) (turns : Nat) : (drain K.encodeSide i turns).run s = .error .hangs s := by
  have he := h.encs i
  rw [hi] at he
  have hcall : K.encodeSide.encodeNull s.out i = .ok s.out := encodeWrite_null_again hK he
  induction turns with
  | zero => rfl
  | succ turns ih => simpa [drain, hcall] using ih

/-- The first turn of the loop takes what the encoder has held back, and the
others nothing. -/
theorem drain_progress (hK : K.Works) (turns : Nat) (i : Fin n) {s : DecodeState P F (EncodeState F G P n) n}
    {fed : Fin n → List (Option F)} {flushed : Fin n → Bool} (h : Progress K s.out fed flushed)
    (hi : flushed i = false) :
    ∃ s', (drain K.encodeSide i turns).run s = .error .hangs s' ∧
      Progress K s'.out fed (Function.update flushed i (decide (0 < turns))) := by
  cases turns with
  | zero =>
    refine ⟨s, rfl, ?_⟩
    rw [show decide (0 < 0) = flushed i from hi.symm, Function.update_eq_self]
    exact h
  | succ turns =>
    obtain ⟨out, hout, h'⟩ := h.null hK hi
    have hcall : K.encodeSide.encodeNull s.out i = .ok out := hout
    have hrest := drain_flushed hK (s := { s with out }) h' (Function.update_self i true flushed) turns
    exact ⟨{ s with out }, by simpa [drain, hcall] using hrest, h'⟩

/-- The streams that the flush gets to: none after the first whose encoder may
hold something back. -/
def Kit.flushed (K : Kit F G P n) : List (Fin n) → List (Fin n)
  | [] => []
  | i :: is => if (K.codec i).delay then [i] else i :: K.flushed is

theorem Kit.mem_flushed {is : List (Fin n)} (his : is.Pairwise (· < ·)) {j : Fin n} (hj : j ∈ is) :
    j ∈ K.flushed is ↔ ∀ i ∈ is, i < j → (K.codec i).delay = false := by
  induction is with
  | nil => cases hj
  | cons i is ih =>
    obtain ⟨hfirst, his⟩ := List.pairwise_cons.mp his
    rw [Kit.flushed]
    rcases List.mem_cons.mp hj with rfl | hj
    · refine iff_of_true ?_ fun k hk hlt => ?_
      · split <;> exact List.mem_cons_self
      · rcases List.mem_cons.mp hk with rfl | hk
        · exact absurd hlt (lt_irrefl _)
        · exact absurd hlt (not_lt_of_gt (hfirst k hk))
    · have hlt := hfirst j hj
      cases hdelay : (K.codec i).delay with
      | true =>
        refine iff_of_false ?_ fun h => ?_
        · simp [hlt.ne']
        · exact absurd (h i List.mem_cons_self hlt) (by simp [hdelay])
      | false =>
        have hne : j ≠ i := hlt.ne'
        simp [hne, ih his hj, hdelay]

theorem Kit.flushed_subset (is : List (Fin n)) : K.flushed is ⊆ is := by
  induction is with
  | nil => exact List.Subset.refl []
  | cons i is ih =>
    rw [Kit.flushed]
    split
    · simp
    · exact List.cons_subset_cons i ih

/-- What the streams have been fed after the flush of these. -/
def Kit.fedNull (K : Kit F G P n) (is : List (Fin n)) (fed : Fin n → List (Option F)) (j : Fin n) : List (Option F) :=
  if j ∈ K.flushed is then fed j ++ [none] else fed j

/-- The encoders that have had NULL by then. -/
def Kit.drained (K : Kit F G P n) (turns : Nat) (is : List (Fin n)) (j : Fin n) : Bool :=
  decide (j ∈ K.flushed is) && (K.codec j).delay && decide (0 < turns)

section
variable {i : Fin n} {is : List (Fin n)} {fed : Fin n → List (Option F)}

theorem Kit.fedNull_delay (hdelay : (K.codec i).delay = true) :
    K.fedNull (i :: is) fed = Function.update fed i (fed i ++ [none]) := by
  funext j
  by_cases hj : j = i <;> simp [Kit.fedNull, Kit.flushed, hdelay, hj]

theorem Kit.drained_delay (hdelay : (K.codec i).delay = true) (turns : Nat) :
    K.drained turns (i :: is) = Function.update (fun _ => false) i (decide (0 < turns)) := by
  funext j
  by_cases hj : j = i <;> simp [Kit.drained, Kit.flushed, hdelay, hj]

theorem Kit.fedNull_plain (hdelay : (K.codec i).delay = false) (hi : i ∉ is) :
    K.fedNull (i :: is) fed = K.fedNull is (Function.update fed i (fed i ++ [none])) := by
  have hnot : i ∉ K.flushed is := fun hmem => hi (K.flushed_subset is hmem)
  funext j
  by_cases hj : j = i
  · subst hj
    simp [Kit.fedNull, Kit.flushed, hdelay, hnot]
  · simp [Kit.fedNull, Kit.flushed, hdelay, hj]

theorem Kit.drained_plain (hdelay : (K.codec i).delay = false) (turns : Nat) :
    K.drained turns (i :: is) = K.drained turns is := by
  funext j
  by_cases hj : j = i
  · subst hj
    simp [Kit.drained, hdelay]
  · simp [Kit.drained, Kit.flushed, hdelay, hj]

end

/-- NULL is passed on for each stream that the flush gets to, and nothing else;
where an encoder may hold something back it gets no further. -/
theorem flush_progress (hK : K.Works) {graph : Fin n → Bool} (hgraph : ∀ i, graph i = true) (turns : Nat) :
    ∀ (is : List (Fin n)) {s : DecodeState P F (EncodeState F G P n) n} {fed : Fin n → List (Option F)},
      is.Nodup → Progress K s.out fed (fun _ => false) →
      ∃ s', (flush K.encodeSide graph turns is).run s =
          (if ∀ i ∈ is, (K.codec i).delay = false then .ok () s' else .error .hangs s') ∧
        Progress K s'.out (K.fedNull is fed) (K.drained turns is)
  | [], s, fed, _, h => by
    refine ⟨s, by simp [flush, pure, EStateM.pure, EStateM.run], ?_⟩
    have hdrained : K.drained turns [] = fun _ => false := funext fun j => by simp [Kit.drained, Kit.flushed]
    rw [hdrained]
    exact h
  | i :: is, s, fed, hnd, h => by
    obtain ⟨hi, hnd⟩ := List.nodup_cons.mp hnd
    obtain ⟨out, hout, h₁⟩ := filterEncodeWrite_progress hK h none i
    cases hdelay : (K.codec i).delay with
    | true =>
      -- the loop around `encode_write(NULL, i)`, and nothing after it
      have hdelays : K.encodeSide.delays i = true := hdelay
      obtain ⟨s', hrun, h'⟩ := drain_progress hK turns i (s := { s with out, passed := s.passed ++ [(none, i)] }) h₁ rfl
      refine ⟨s', by simp [flush, hgraph, hout, hdelays, hrun, hdelay], ?_⟩
      rw [K.fedNull_delay hdelay, K.drained_delay hdelay]
      exact h'
    | false =>
      have hdelays : K.encodeSide.delays i = false := hdelay
      obtain ⟨s', hrun, h'⟩ := flush_progress hK hgraph turns is hnd
        (s := { s with out, passed := s.passed ++ [(none, i)] }) h₁
      refine ⟨s', ?_, ?_⟩
      · simp only [List.forall_mem_cons, hdelay, true_and]
        simpa [flush, hgraph, hout, hdelays] using hrun
      · rw [K.fedNull_plain hdelay hi, K.drained_plain hdelay]
        exact h'

/-- All of it: frames of the streams, and the flush. -/
theorem encodeFrames_progress (hK : K.Works) (codec : Fin n → Codec P F) (frames : List (F × Fin n)) (turns : Nat) :
    Progress K (finalState ((encodeFrames K.encodeSide turns frames).run (.init codec {}))).out
      (K.fedNull (List.finRange n) fun j => (framesOf frames j).map some) (K.drained turns (List.finRange n)) := by
  obtain ⟨s, hs, h⟩ := filterEncodeWrites_progress hK frames (s := .init codec {}) Progress.init
  obtain ⟨s', hs', h'⟩ := flush_progress hK (fun _ => rfl) turns (List.finRange n) (List.nodup_finRange n) h
  have hrun : finalState ((encodeFrames K.encodeSide turns frames).run (.init codec {})) = s' := by
    have hflush : (encodeFrames K.encodeSide turns frames).run (.init codec {}) =
        (flush K.encodeSide (fun _ => true) turns (List.finRange n)).run s := by
      simp [encodeFrames, hs]
    rw [hflush, hs']
    split <;> rfl
  rw [hrun]
  simpa using h'

/-! ## What is lost -/

/-- All that the encoder of a stream makes of its filtered frames is what was
written and what is held back. -/
theorem Kit.produces_eq (K : Kit F G P n) (i : Fin n) (frames : List F) :
    (K.codec i).produces ((K.graph i).filtered frames) =
      (K.codec i).frames [] ((K.graph i).frames [] (frames.map some)) ++ K.heldBack i frames := by
  simp [Codec.produces, Graph.filtered, Graph.frames_append, Graph.frames, Codec.frames_append, Kit.heldBack]

/-- A stream that is flushed loses nothing, and another what was held back. -/
theorem Progress.written_iff {s : EncodeState F G P n} {fed : Fin n → List (Option F)} {flushed : Fin n → Bool}
    (h : Progress K s fed flushed) {i : Fin n} {frames : List F} (reached : Bool)
    (hfed : fed i = if reached then frames.map some ++ [none] else frames.map some)
    (hflushed : flushed i = (reached && (K.codec i).delay)) :
    s.writtenOf i = (K.codec i).produces ((K.graph i).filtered frames) ↔ reached = true ∨ K.heldBack i frames = [] := by
  rw [h.written i, hfed, hflushed]
  cases reached with
  | true =>
    refine iff_of_true ?_ (.inl rfl)
    cases hdelay : (K.codec i).delay with
    | true => rfl
    | false =>
      have hnone := (K.codec i).delayed_eq hdelay ((K.graph i).filtered frames)
      simpa [Codec.produces, Graph.filtered] using hnone
  | false =>
    rw [K.produces_eq]
    simp

end

/-- No frame was refused, and what was written for each stream is all that its
encoder makes of the filtered frames of the stream, in order and each once. -/
structure LosesNothing (K : Kit F G P n) (frames : List (F × Fin n)) (s : EncodeState F G P n) : Prop where
  refused : s.refused = []
  written : ∀ i, s.writtenOf i = (K.codec i).produces ((K.graph i).filtered (framesOf frames i))

/-- **When the encoding side loses nothing.** For any graphs and encoders, any
interleaving of frames of the streams and then the flush, once its loop has
turned: if and only if no stream after one whose encoder has a delay has
anything held back. -/
theorem encode_side_loses_nothing_iff (K : Kit F G P n) (hK : K.Works) (codec : Fin n → Codec P F)
    (frames : List (F × Fin n)) {turns : Nat} (hturns : 0 < turns) :
    LosesNothing K frames (finalState ((encodeFrames K.encodeSide turns frames).run (.init codec {}))).out ↔
      ∀ i j, i < j → (K.codec i).delay = true → K.heldBack j (framesOf frames j) = [] := by
  have h := encodeFrames_progress hK codec frames turns
  generalize finalState ((encodeFrames K.encodeSide turns frames).run (.init codec {})) = s at h
  have hwritten (j : Fin n) : s.out.writtenOf j = (K.codec j).produces ((K.graph j).filtered (framesOf frames j)) ↔
      (∀ i, i < j → (K.codec i).delay = false) ∨ K.heldBack j (framesOf frames j) = [] := by
    have hreached := K.mem_flushed (List.pairwise_lt_finRange n) (List.mem_finRange j)
    rw [h.written_iff (decide (j ∈ K.flushed (List.finRange n))) (by simp [Kit.fedNull])
      (by simp [Kit.drained, hturns])]
    simp [hreached]
  constructor
  · intro hloses i j hij hdelay
    refine ((hwritten j).mp (hloses.written j)).resolve_left fun hnone => ?_
    rw [hnone i hij] at hdelay
    cases hdelay
  · intro hheld
    refine ⟨h.refused, fun j => (hwritten j).mpr ?_⟩
    by_cases hnone : ∀ i, i < j → (K.codec i).delay = false
    · exact .inl hnone
    · obtain ⟨i, hi⟩ := not_forall.mp hnone
      obtain ⟨hij, hdelay⟩ := Classical.not_imp.mp hi
      exact .inr (hheld i j hij (Bool.eq_true_of_not_eq_false hdelay))

/-- A graph that holds each frame back until the next, or NULL. -/
def laggingGraph : Graph Nat Nat where
  yields fed _ := (fed.getLast?.bind id).toList
  feeds _ _ := true
  fails _ _ := false

/-- An encoder that takes a frame only when it is empty, and makes two
packets of it. -/
def pairEncoder : EncoderCodec Nat Nat where
  yields _ frame := [frame, frame]
  delayed _ := []
  takes _ waiting := waiting == 0
  takes_empty _ := rfl
  delay := false
  delayed_eq _ _ := rfl
  fails _ _ := false

/-- One that holds each frame back until the next, or NULL. -/
def laggingEncoder : EncoderCodec Nat Nat where
  toCodec := laggingCodec
  delay := true
  delayed_eq := by simp
  fails _ _ := false

def twoStreams : Kit Nat Nat Nat 2 where
  graph _ := laggingGraph
  codec i := if i = 0 then pairEncoder else laggingEncoder
  writes _ _ := true

theorem twoStreams_works : twoStreams.Works := by
  refine ⟨fun _ _ _ => rfl, fun _ _ _ => rfl, fun i sent k => ?_, fun _ _ => rfl⟩
  match i with
  | 0 | 1 => rfl

/-- The encoder with a delay is the last. -/
theorem two_streams_lose_nothing :
    ∃ s, s = (finalState ((encodeFrames twoStreams.encodeSide 1 [(7, 0), (8, 1), (9, 0)]).run
        (.init (fun _ => plainCodec) {}))).out ∧
      LosesNothing twoStreams [(7, 0), (8, 1), (9, 0)] s ∧ s.writtenOf 0 = [7, 7, 9, 9] ∧ s.writtenOf 1 = [8] := by
  have hloses := (encode_side_loses_nothing_iff twoStreams twoStreams_works (fun _ => plainCodec)
    [(7, 0), (8, 1), (9, 0)] Nat.one_pos).mpr fun i j hij hdelay => by
      have hi : i = 1 := by
        match i with
        | 0 => cases hdelay
        | 1 => rfl
      exact absurd hij (not_lt_of_ge (hi ▸ Fin.le_last j))
  exact ⟨_, rfl, hloses, hloses.written 0, hloses.written 1⟩

/-- Both encoders have a delay. -/
def twoDelays : Kit Nat Nat Nat 2 where
  graph _ := laggingGraph
  codec _ := laggingEncoder
  writes _ _ := true

theorem twoDelays_works : twoDelays.Works :=
  ⟨fun _ _ _ => rfl, fun _ _ _ => rfl, fun _ _ _ => rfl, fun _ _ => rfl⟩

/-- The frame of the second stream is never written, however long one waits. -/
theorem second_stream_lost : twoDelays.Works ∧ ¬ ∃ turns, LosesNothing twoDelays [(7, 0), (8, 1)]
    (finalState ((encodeFrames twoDelays.encodeSide turns [(7, 0), (8, 1)]).run (.init (fun _ => plainCodec) {}))).out := by
  refine ⟨twoDelays_works, ?_⟩
  rintro ⟨turns, h⟩
  have hprogress := encodeFrames_progress twoDelays_works (fun _ => plainCodec) [(7, 0), (8, 1)] turns
  have hlost := (hprogress.written_iff false rfl rfl).mp (h.written 1)
  rcases hlost with hreached | hheld
  · cases hreached
  · revert hheld
    decide

end AudioToolApi.Audio
