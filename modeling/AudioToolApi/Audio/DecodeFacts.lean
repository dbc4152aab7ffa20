/-
Which frames the decode loop of `AP::process` passes on.

After any packets, what a stream has passed on and what its decoder still
holds are together what its packets have queued (`decodeLoop_cases`): the
loop reorders nothing and drops nothing by itself. What it leaves in the
decoder at the end is lost, since nothing drains it and it is never sent
NULL. So nothing is dropped exactly when one `receive_frame` a packet is
enough for every stream: `nothing_dropped_iff`.
-/
import AudioToolApi.Audio.Decode

namespace AudioToolApi.Audio

variable {P F σ : Type} {n : Nat}

/-- The encoding side reports no error of its own. -/
structure EncodeSide.Works (E : EncodeSide P F σ n) : Prop where
  filterEncodeWrite : ∀ out frame i, ∃ out', E.filterEncodeWrite out frame i = .ok out'
  writeFrame : ∀ out p i, (E.writeFrame out p i).1 = true
  encodeNull : ∀ out i, ∃ out', E.encodeNull out i = .ok out'

/-! ## One call -/

@[simp] theorem DecodeState.setDec_self (s : DecodeState P F σ n) (i : Fin n) (d : Decoder P F) :
    (s.setDec i d).dec i = d := by simp [setDec]

@[simp] theorem DecodeState.setDec_passed (s : DecodeState P F σ n) (i : Fin n) (d : Decoder P F) :
    (s.setDec i d).passed = s.passed := rfl

@[simp] theorem DecodeState.setDec_setDec (s : DecodeState P F σ n) (i : Fin n) (d d' : Decoder P F) :
    (s.setDec i d).setDec i d' = s.setDec i d' := by simp [setDec]

theorem DecodeState.setDec_other (s : DecodeState P F σ n) {i j : Fin n} (d : Decoder P F) (h : j ≠ i) :
    (s.setDec i d).dec j = s.dec j := by simp [setDec, h]

theorem filterEncodeWrite_run {E : EncodeSide P F σ n} (hE : E.Works) (frame : Option F) (i : Fin n)
    (s : DecodeState P F σ n) :
    ∃ out, (filterEncodeWrite E frame i).run s =
      .ok () { s with out, passed := s.passed ++ [(frame, i)] } := by
  obtain ⟨out, ho⟩ := hE.filterEncodeWrite s.out frame i
  exact ⟨out, by simp [filterEncodeWrite, ho]⟩

/-- Stream `i` of `s'` is stream `i` of `s` after the frames `fs` were queued
and one was received. -/
def Received (s s' : DecodeState P F σ n) (i : Fin n) (fs : List F) : Prop :=
  (s'.dec i).queue = ((s.dec i).queue ++ fs).tail ∧
    s'.passedOf i = s.passedOf i ++ ((s.dec i).queue ++ fs).head?.toList

theorem Received.conserves {s s' : DecodeState P F σ n} {i : Fin n} {fs : List F} (h : Received s s' i fs) :
    s'.passedOf i ++ (s'.dec i).queue = s.passedOf i ++ (s.dec i).queue ++ fs := by
  rw [h.1, h.2, List.append_assoc, List.append_assoc]
  cases (s.dec i).queue ++ fs <;> rfl

theorem Received.length {s s' : DecodeState P F σ n} {i : Fin n} {fs : List F} (h : Received s s' i fs) :
    (s'.dec i).queue.length = (s.dec i).queue.length + fs.length - 1 := by
  rw [h.1]
  simp

/-- A packet of a stream with a filter graph. -/
theorem decodePacket_run {E : EncodeSide P F σ n} (hE : E.Works) {graph : Fin n → Bool} {i : Fin n}
    (hi : graph i = true) (p : P) {s : DecodeState P F σ n} {d : Decoder P F} (hd : s.dec i = d) :
    (d.codec.takes d.sent d.queue.length = false ∧
      (decodePacket E graph p i).run s = .error (.threw "Problem sending packet") s) ∨
    (d.codec.takes d.sent d.queue.length = true ∧ ∃ s', (decodePacket E graph p i).run s = .ok () s' ∧
      (s'.dec i).codec = d.codec ∧ (s'.dec i).sent = d.sent ++ [p] ∧
      Received s s' i (d.codec.yields d.sent p) ∧
      ∀ j, j ≠ i → s'.dec j = s.dec j ∧ s'.passedOf j = s.passedOf j) := by
  cases ht : d.codec.takes d.sent d.queue.length with
  | false => exact .inl ⟨rfl, by simp [decodePacket, hi, Decoder.sendPacket, hd, ht]⟩
  | true =>
    refine .inr ⟨rfl, ?_⟩
    have hsend : d.sendPacket p =
        some { d with sent := d.sent ++ [p], queue := d.queue ++ d.codec.yields d.sent p } := by
      simp [Decoder.sendPacket, ht]
    cases hq : d.queue ++ d.codec.yields d.sent p with
    | nil =>
      refine ⟨s.setDec i { d with sent := d.sent ++ [p], queue := [] }, ?_, ?_, ?_, ⟨?_, ?_⟩, fun j hj => ⟨?_, ?_⟩⟩
      · simp [decodePacket, hi, hd, hsend, hq, Decoder.receiveFrame]
      · simp
      · simp
      · simp [hd, hq]
      · simp [DecodeState.passedOf, hd, hq]
      · exact s.setDec_other _ hj
      · rfl
    | cons f fs =>
      obtain ⟨out, ho⟩ := filterEncodeWrite_run hE (some f) i
        (s.setDec i { d with sent := d.sent ++ [p], queue := fs })
      refine ⟨{ s.setDec i { d with sent := d.sent ++ [p], queue := fs } with
          out, passed := s.passed ++ [(some f, i)] }, ?_, ?_, ?_, ⟨?_, ?_⟩, fun j hj => ⟨?_, ?_⟩⟩
      · simpa [decodePacket, hi, hd, hsend, hq, Decoder.receiveFrame] using ho
      · simp
      · simp
      · simp [hd, hq]
      · simp [DecodeState.passedOf, hd, hq]
      · exact s.setDec_other _ hj
      · simp [DecodeState.passedOf, Ne.symm hj]

/-- A packet of a stream without one goes straight to the output. -/
theorem decodePacket_passThrough {E : EncodeSide P F σ n} (hE : E.Works) {graph : Fin n → Bool}
    {i : Fin n} (hi : graph i = false) (p : P) (s : DecodeState P F σ n) :
    ∃ out, (decodePacket E graph p i).run s = .ok () { s with out } := by
  have hw := hE.writeFrame s.out p i
  exact ⟨(E.writeFrame s.out p i).2, by simp [decodePacket, hi, hw]⟩

/-! ## The loop -/

@[simp] theorem packetsOf_cons_self (p : P) (i : Fin n) (ps : List (P × Fin n)) :
    packetsOf ((p, i) :: ps) i = p :: packetsOf ps i := by simp [packetsOf]

theorem packetsOf_cons_other (p : P) {i j : Fin n} (h : i ≠ j) (ps : List (P × Fin n)) :
    packetsOf ((p, i) :: ps) j = packetsOf ps j := by simp [packetsOf, h]

/-- Stream `i` before the packets `ps` of its own and after them. -/
structure Drained (s s' : DecodeState P F σ n) (i : Fin n) (ps : List P) : Prop where
  conserves : s'.passedOf i ++ (s'.dec i).queue =
    s.passedOf i ++ (s.dec i).queue ++ (s.dec i).codec.frames (s.dec i).sent ps
  left : (s'.dec i).queue.length =
    Backlog.after (s.dec i).queue.length ((s.dec i).codec.counts (s.dec i).sent ps)

/-- The decoder of stream `i` takes each of its packets `ps` from `s` on. -/
def TakesFrom (s : DecodeState P F σ n) (i : Fin n) (ps : List P) : Prop :=
  (s.dec i).codec.TakesAll (s.dec i).sent (s.dec i).queue.length ps

/-- The loop ends with every stream drained as far as one frame a packet
does it, unless some decoder refuses a packet. -/
theorem decodeLoop_cases {E : EncodeSide P F σ n} (hE : E.Works) (graph : Fin n → Bool) :
    ∀ (ps : List (P × Fin n)) (s : DecodeState P F σ n),
      ((∀ i, graph i = true → TakesFrom s i (packetsOf ps i)) ∧
        ∃ s', (decodeLoop E graph ps).run s = .ok () s' ∧
          ∀ i, graph i = true → Drained s s' i (packetsOf ps i)) ∨
      ((¬ ∀ i, graph i = true → TakesFrom s i (packetsOf ps i)) ∧
        ∃ s', (decodeLoop E graph ps).run s = .error (.threw "Problem sending packet") s')
  | [], s => .inl ⟨fun _ _ => trivial, s, rfl, fun _ _ => ⟨by simp [packetsOf, Codec.frames], rfl⟩⟩
  | (p, i) :: ps, s => by
    cases hi : graph i with
    | false =>
      obtain ⟨out, hrun⟩ := decodePacket_passThrough hE hi p s
      have skip : ∀ j, graph j = true → packetsOf ((p, i) :: ps) j = packetsOf ps j := fun j hj =>
        packetsOf_cons_other p (by rintro rfl; simp [hi] at hj) ps
      rcases decodeLoop_cases hE graph ps { s with out } with ⟨ht, s', hl, hd⟩ | ⟨ht, s', hl⟩
      · refine .inl ⟨fun j hj => skip j hj ▸ ht j hj, s', ?_, fun j hj => ?_⟩
        · simpa [decodeLoop, hrun] using hl
        · rw [skip j hj]
          exact ⟨(hd j hj).conserves, (hd j hj).left⟩
      · refine .inr ⟨fun h => ht fun j hj => skip j hj ▸ h j hj, s', ?_⟩
        simpa [decodeLoop, hrun] using hl
    | true =>
      rcases decodePacket_run hE hi p (s := s) rfl with ⟨ht, hrun⟩ | ⟨ht, s₁, hrun, hcodec, hsent, hrec, hother⟩
      · refine .inr ⟨fun h => ?_, s, by simp [decodeLoop, hrun]⟩
        have := (packetsOf_cons_self p i ps ▸ h i hi).1
        simp [ht] at this
      · -- the rest of the run starts from `s₁`, where stream `i` has one packet fewer to go
        have key : ∀ j, graph j = true →
            (TakesFrom s j (packetsOf ((p, i) :: ps) j) ↔ TakesFrom s₁ j (packetsOf ps j)) := by
          intro j hj
          by_cases hji : j = i
          · subst hji
            simp only [TakesFrom, packetsOf_cons_self, Codec.TakesAll, ht, true_and, hcodec, hsent, hrec.length]
          · rw [packetsOf_cons_other p (Ne.symm hji), TakesFrom, TakesFrom, (hother j hji).1]
        rcases decodeLoop_cases hE graph ps s₁ with ⟨ht', s', hl, hd⟩ | ⟨ht', s', hl⟩
        · refine .inl ⟨fun j hj => (key j hj).mpr (ht' j hj), s', ?_, fun j hj => ?_⟩
          · simpa [decodeLoop, hrun] using hl
          · obtain ⟨hcons, hleft⟩ := hd j hj
            by_cases hji : j = i
            · subst hji
              simp only [packetsOf_cons_self]
              refine ⟨?_, ?_⟩
              · rw [hcons, hrec.conserves, hcodec, hsent, Codec.frames, List.append_assoc]
              · rw [hleft, hrec.length, hcodec, hsent, Codec.counts, Backlog.after_cons]
            · rw [packetsOf_cons_other p (Ne.symm hji)]
              rw [(hother j hji).1, (hother j hji).2] at hcons
              rw [(hother j hji).1] at hleft
              exact ⟨hcons, hleft⟩
        · refine .inr ⟨fun h => ht' fun j hj => (key j hj).mp (h j hj), s', ?_⟩
          simpa [decodeLoop, hrun] using hl

theorem drain_hangs {E : EncodeSide P F σ n} (hE : E.Works) (i : Fin n) (turns : Nat) :
    ∀ s : DecodeState P F σ n, ∃ out, (drain E i turns).run s = .error .hangs { s with out } := by
  induction turns with
  | zero => exact fun s => ⟨s.out, rfl⟩
  | succ turns ih =>
    intro s
    obtain ⟨out, hout⟩ := hE.encodeNull s.out i
    obtain ⟨out', hrun⟩ := ih { s with out }
    exact ⟨out', by simpa [drain, hout] using hrun⟩

/-- The flush passes no frame. -/
theorem flush_cases {E : EncodeSide P F σ n} (hE : E.Works) (graph : Fin n → Bool) (turns : Nat) :
    ∀ (is : List (Fin n)) (s : DecodeState P F σ n), ∃ s', (∀ i, s'.passedOf i = s.passedOf i) ∧
      ((flush E graph turns is).run s = .ok () s' ∨ (flush E graph turns is).run s = .error .hangs s')
  | [], s => ⟨s, fun _ => rfl, .inl rfl⟩
  | i :: is, s => by
    cases hi : graph i with
    | false =>
      obtain ⟨s', hp, hr⟩ := flush_cases hE graph turns is s
      exact ⟨s', hp, by simpa [flush, hi] using hr⟩
    | true =>
      obtain ⟨out, ho⟩ := filterEncodeWrite_run hE none i s
      have same : ∀ (out : σ) j, (DecodeState.passedOf { s with out, passed := s.passed ++ [(none, i)] } j) =
          s.passedOf j := fun out j => by simp [DecodeState.passedOf]
      cases hdel : E.delays i with
      | true =>
        obtain ⟨out', hdrain⟩ := drain_hangs hE i turns { s with out, passed := s.passed ++ [(none, i)] }
        exact ⟨_, same out', .inr (by simp [flush, hi, ho, hdel, hdrain])⟩
      | false =>
        obtain ⟨s', hp, hr⟩ := flush_cases hE graph turns is { s with out, passed := s.passed ++ [(none, i)] }
        exact ⟨s', fun j => (hp j).trans (same out j), by simpa [flush, hi, ho, hdel] using hr⟩

/-! ## Dropped frames -/

/-- The state a run of `process` ends in, however it ends. -/
def finalState {α : Type} : EStateM.Result Stop (DecodeState P F σ n) α → DecodeState P F σ n
  | .ok _ s | .error _ s => s

/-- A decoder refused a packet. -/
def Refused {α : Type} : EStateM.Result Stop (DecodeState P F σ n) α → Prop
  | .ok _ _ => False
  | .error e _ => e = .threw "Problem sending packet"

/-- No packet was refused, and the frames of every decoded stream reached
`filter_encode_write`, each once and in order. -/
def NothingDropped (codec : Fin n → Codec P F) (graph : Fin n → Bool) (packets : List (P × Fin n))
    (r : EStateM.Result Stop (DecodeState P F σ n) Unit) : Prop :=
  ¬ Refused r ∧ ∀ i, graph i = true →
    (finalState r).passedOf i = (codec i).produces (packetsOf packets i)

/-- **When no decoded audio is dropped.** For any codecs and packets, with an
encoding side that works: `process` passes on every frame of every decoded
stream, in order, and no packet is refused, if and only if one
`receive_frame` a packet is enough for each of these streams. -/
theorem nothing_dropped_iff (E : EncodeSide P F σ n) (hE : E.Works) (graph : Fin n → Bool)
    (codec : Fin n → Codec P F) (out : σ) (turns : Nat) (packets : List (P × Fin n)) :
    NothingDropped codec graph packets ((process E graph turns packets).run (.init codec out)) ↔
      ∀ i, graph i = true → (codec i).OneAPacket (packetsOf packets i) := by
  rcases decodeLoop_cases hE graph packets (.init codec out) with ⟨ht, s, hl, hd⟩ | ⟨ht, s, hl⟩
  · obtain ⟨s', hp, hf⟩ := flush_cases hE graph turns (List.finRange n) s
    have hend : ∃ r, (process E graph turns packets).run (.init codec out) = r ∧ ¬ Refused r ∧ finalState r = s' := by
      rcases hf with hf | hf
      · exact ⟨.ok () s', by simpa [process, hl] using hf, id, rfl⟩
      · exact ⟨.error .hangs s', by simpa [process, hl] using hf, by simp [Refused], rfl⟩
    obtain ⟨r, hr, hnr, hs'⟩ := hend
    simp only [NothingDropped, hr, hnr, not_false_eq_true, hs', hp, true_and]
    refine forall₂_congr fun i hi => ?_
    obtain ⟨hcons, hleft⟩ := hd i hi
    simp only [DecodeState.init, DecodeState.passedOf, List.filterMap_nil, List.nil_append,
      List.length_nil] at hcons hleft
    have hzero : (s.dec i).queue = [] ↔ Backlog.KeepsUp ((codec i).counts [] (packetsOf packets i)) := by
      rw [← Backlog.after_eq_zero_iff, ← hleft, List.length_eq_zero_iff]
    have hsplit : s.passedOf i = (codec i).produces (packetsOf packets i) ↔
        (s.dec i).queue = [] ∧ (codec i).delayed (packetsOf packets i) = [] := by
      rw [Codec.produces, ← hcons, List.append_assoc]
      constructor
      · intro h
        simpa using List.self_eq_append_right.mp h
      · intro h
        obtain ⟨hq, hdel⟩ := h
        simp [hq, hdel, DecodeState.passedOf]
    rw [hsplit, hzero]
    exact ⟨fun ⟨hk, hdel⟩ => ⟨hdel, hk, ht i hi⟩, fun h => ⟨h.keeps_up, h.no_delay⟩⟩
  · have hr : (process E graph turns packets).run (.init codec out) = .error (.threw "Problem sending packet") s := by
      simp [process, hl]
    rw [hr]
    refine ⟨fun h => absurd rfl h.1, fun h => absurd (fun i hi => (h i hi).takes) ht⟩

/-- An encoding side that accepts everything. -/
def acceptAll : EncodeSide P F Unit n where
  filterEncodeWrite _ _ _ := .ok ()
  writeFrame _ _ _ := (true, ())
  encodeNull _ _ := .ok ()
  delays _ := false

/-- A codec that decodes each packet by itself, as PCM does. -/
def plainCodec : Codec Nat Nat where
  yields _ p := [p]
  delayed _ := []
  takes _ _ := true
  takes_empty _ := rfl

/-- A codec that holds each frame back until the next packet. -/
def laggingCodec : Codec Nat Nat where
  yields sent _ := sent.getLast?.toList
  delayed sent := sent.getLast?.toList
  takes _ _ := true
  takes_empty _ := rfl

theorem nothing_dropped_iff_plain :
    NothingDropped (fun _ => plainCodec) (fun _ => true) [(7, 0), (8, 1), (9, 0)]
        ((process (acceptAll (n := 2)) (fun _ => true) 0 [(7, 0), (8, 1), (9, 0)]).run
          (.init (fun _ => plainCodec) ())) ↔
      ∀ i : Fin 2, true = true → plainCodec.OneAPacket (packetsOf [(7, 0), (8, 1), (9, 0)] i) :=
  nothing_dropped_iff acceptAll ⟨fun _ _ _ => ⟨(), rfl⟩, fun _ _ _ => rfl, fun _ _ => ⟨(), rfl⟩⟩ _ _ () _ _

/-- The last frame of a lagging decoder never leaves it. -/
theorem last_frame_dropped :
    ¬ ∀ (codec : Fin 1 → Codec Nat Nat) (packets : List (Nat × Fin 1)),
      NothingDropped codec (fun _ => true) packets
        ((process acceptAll (fun _ => true) 0 packets).run (.init codec ())) := by
  intro h
  have h1 := (h (fun _ => laggingCodec) [(7, 0), (8, 0)]).2 0 rfl
  revert h1
  decide

end AudioToolApi.Audio
