/-
Which packets `AudioProcessor::execute` writes.

`encode_audio_frame` takes one packet from the encoder each time it is
called. What is not taken after a frame is waiting after the next, and after
the last (`Written`); NULL is sent once, and the second `encode_audio_frame`
of the flush finds the encoder draining and takes nothing.
-/
import AudioToolApi.Audio.EncodeFacts
import AudioToolApi.Audio.ProcessorReturns

namespace AudioToolApi.Audio

theorem Codec.counts_append {P F : Type} (c : Codec P F) (sent xs ys : List P) :
    c.counts sent (xs ++ ys) = c.counts sent xs ++ c.counts (sent ++ xs) ys := by
  induction xs generalizing sent with
  | nil => simp [Codec.counts]
  | cons x xs ih => simp [Codec.counts, ih]

namespace Processor

variable {σ P : Type} {calls : Calls σ P} {input : List (Reading σ)} {s s' : AudioProcessor σ P} {finished : Bool}

/-- What sending a frame, or NULL, queues. -/
def queued (calls : Calls σ P) (frame : Option (List σ)) (s : AudioProcessor σ P) : List P :=
  match frame with
  | none => calls.codec.delayed s.enc.sent
  | some samples => calls.codec.yields s.enc.sent ⟨samples, s.pts⟩

theorem sendFrame_queued {frame : Option (List σ)} {enc : Encoder (Frame σ) P}
    (h : calls.codec.sendFrame (frame.map fun samples => ⟨samples, s.pts⟩) s.enc = (.ok, enc)) :
    enc.queue = s.enc.queue ++ queued calls frame s := by
  unfold EncoderCodec.sendFrame at h
  split at h
  · cases h
  · cases frame with
    | none =>
      cases h
      rfl
    | some samples =>
      simp only [Option.map_some] at h
      split at h
      · cases h
        rfl
      · cases h

theorem receivePacket_nothing {enc : Encoder (Frame σ) P}
    (h : calls.codec.receivePacket enc = .again ∨ calls.codec.receivePacket enc = .eof) : enc.queue = [] := by
  unfold EncoderCodec.receivePacket at h
  split at h
  · simp at h
  · split at h
    · assumption
    · simp at h

/-- `encode_audio_frame` takes one packet, if there is one. -/
theorem encodeAudioFrame_takes {frame : Option (List σ)} {present : Bool}
    (h : encodeAudioFrame calls frame s = .ok (present, s')) (hdraining : s.enc.draining = false) :
    s'.written ++ s'.enc.queue = s.written ++ s.enc.queue ++ queued calls frame s ∧
      s'.enc.queue.length = s.enc.queue.length + (queued calls frame s).length - 1 := by
  unfold encodeAudioFrame at h
  simp only at h
  split at h
  · cases h
  · generalize hsend : calls.codec.sendFrame (frame.map fun samples => ⟨samples, s.pts⟩) s.enc = sent at h
    obtain ⟨result, enc⟩ := sent
    cases result with
    | again => cases h
    | eof => simp [(EncoderCodec.sendFrame_eof hsend).1] at hdraining
    | ok =>
      have hqueue := sendFrame_queued hsend
      have hlength : enc.queue.length = s.enc.queue.length + (queued calls frame s).length := by simp [hqueue]
      simp only at h
      split at h
      · rename_i hreceive
        cases h
        have hempty := receivePacket_nothing (.inl hreceive)
        simp_all
      · rename_i hreceive
        cases h
        have hempty := receivePacket_nothing (.inr hreceive)
        simp_all
      · cases h
      · rename_i packet enc' hreceive
        split at h
        · cases h
          rw [EncoderCodec.receivePacket_got hreceive] at hqueue hlength
          simp only [List.length_cons] at hlength
          exact ⟨by simp [← hqueue], by simp only; omega⟩
        · cases h

/-- One packet was taken after each frame, and no NULL was sent. -/
structure Written (calls : Calls σ P) (s : AudioProcessor σ P) : Prop where
  packets : s.written ++ s.enc.queue = calls.codec.frames [] s.enc.sent
  waiting : s.enc.queue.length = Backlog.after 0 (calls.codec.counts [] s.enc.sent)
  draining : s.enc.draining = false

theorem Written.fill (hs : Written calls s) (h : fill s = .ok (finished, s')) : Written calls s' := by
  fun_induction Processor.fill s with
  | case1 => cases h
  | case2 s hroom read hread =>
    cases h
    obtain ⟨frame, -, rfl⟩ := readDecodeConvertAndStore_ok hread
    exact ⟨hs.packets, hs.waiting, hs.draining⟩
  | case3 s hroom read hread ih =>
    obtain ⟨frame, -, rfl⟩ := readDecodeConvertAndStore_ok hread
    exact ih ⟨hs.packets, hs.waiting, hs.draining⟩ h
  | case4 s =>
    cases h
    exact hs

theorem Written.encode (hs : Written calls s) {samples : List σ} {present : Bool}
    (h : encodeAudioFrame calls (some samples) s = .ok (present, s')) : Written calls s' := by
  obtain ⟨hpackets, hwaiting⟩ := encodeAudioFrame_takes h hs.draining
  obtain ⟨hsent, hdraining⟩ := (encodeAudioFrame_ok h).sent hs.draining
  refine ⟨?_, ?_, by simpa using hdraining⟩
  · rw [hpackets, hs.packets, hsent]
    simp [Codec.frames_append, Codec.frames, queued]
  · rw [hwaiting, hs.waiting, hsent]
    simp [Codec.counts_append, Codec.counts, Backlog.after_append, queued]

theorem Written.load (hs : Written calls s) (h : loadEncodeAndWrite calls s = .ok s') : Written calls s' := by
  unfold loadEncodeAndWrite at h
  simp only at h
  split at h
  · cases hencode : encodeAudioFrame calls (some (s.fifo.take (min s.fifo.length outputFrameSize)))
        { s with fifo := s.fifo.drop (min s.fifo.length outputFrameSize) } with
    | error e => simp [hencode, Except.map] at h
    | ok r =>
      obtain ⟨present, s₁⟩ := r
      simp only [hencode, Except.map, Except.ok.injEq] at h
      subst h
      have hstart : Written calls { s with fifo := s.fifo.drop (min s.fifo.length outputFrameSize) } :=
        ⟨hs.packets, hs.waiting, hs.draining⟩
      exact hstart.encode hencode
  · cases h

theorem Written.drain (hs : Written calls s) (h : drain calls finished s = .ok s') : Written calls s' := by
  fun_induction Processor.drain calls finished s with
  | case1 => cases h
  | case2 s hready r hload ih => exact ih (hs.load hload) h
  | case3 s hready =>
    cases h
    exact hs

/-! ## The flush -/

/-- Once NULL was sent, nothing is taken any more. -/
theorem encodeAudioFrame_draining {present : Bool} (hdraining : s.enc.draining = true)
    (h : encodeAudioFrame calls none s = .ok (present, s')) : s'.written = s.written ∧ s'.enc = s.enc := by
  unfold encodeAudioFrame at h
  simp only [EncoderCodec.sendFrame, hdraining, if_true] at h
  split at h
  · cases h
  · cases h
    exact ⟨rfl, rfl⟩

theorem flush_draining (hdraining : s.enc.draining = true) (h : flush calls s = .ok s') :
    s'.written = s.written ∧ s'.enc = s.enc := by
  fun_induction flush calls s with
  | case1 => cases h
  | case2 s flushed hencode => simpa using ((encodeAudioFrame_ok hencode).flushed hdraining).1
  | case3 s flushed hencode =>
    cases h
    exact encodeAudioFrame_draining hdraining hencode

/-- The flush takes one packet more. -/
theorem Written.flush (hs : Written calls s) (h : flush calls s = .ok s') :
    s'.written ++ s'.enc.queue = calls.codec.produces s'.enc.sent ∧
      s'.enc.queue.length =
        Backlog.after 0 (calls.codec.counts [] s'.enc.sent) + (calls.codec.delayed s'.enc.sent).length - 1 := by
  have hsent := (flush_keeps h).2.2
  obtain ⟨present, flushed, hencode, hwritten, henc⟩ : ∃ present flushed,
      encodeAudioFrame calls none s = .ok (present, flushed) ∧ s'.written = flushed.written ∧ s'.enc = flushed.enc := by
    rw [Processor.flush] at h
    split at h
    · cases h
    · rename_i flushed hencode
      have hdraining := ((encodeAudioFrame_ok hencode).sent hs.draining).2
      exact ⟨true, flushed, hencode, flush_draining hdraining h⟩
    · rename_i flushed hencode
      cases h
      exact ⟨false, _, hencode, rfl, rfl⟩
  obtain ⟨hpackets, hwaiting⟩ := encodeAudioFrame_takes hencode hs.draining
  rw [hsent, hwritten, henc, hpackets, hwaiting, hs.packets, hs.waiting]
  exact ⟨rfl, rfl⟩

/-! ## The whole run -/

theorem Written.processLoop (hs : Written calls s) (h : processLoop calls s = .ok s') :
    ∃ drained, Written calls drained ∧ Processor.flush calls drained = .ok s' := by
  fun_induction Processor.processLoop calls s with
  | case1 => cases h
  | case2 => cases h
  | case3 s filled drained hfill hdrain => exact ⟨drained, (hs.fill hfill).drain hdrain, h⟩
  | case4 s finished filled hfill drained hdrain hend ih => exact ih ((hs.fill hfill).drain hdrain) h

/-- **Which packets `execute` writes.** A clean run returns. Whatever run
returns, what it has written and what it has left in the encoder are together
the packets that the encoder makes of the frames sent to it, in order; what
is left is the backlog of one packet taken a frame, with what NULL releases,
but for one. So all packets are written exactly when that is one at most. -/
theorem execute_writes :
    (Clean calls input → ∃ s, execute calls { input } = .ok s) ∧
      ∀ s, execute calls { input } = .ok s →
        s.written ++ s.enc.queue = calls.codec.produces s.enc.sent ∧
        s.enc.queue.length =
          Backlog.after 0 (calls.codec.counts [] s.enc.sent) + (calls.codec.delayed s.enc.sent).length - 1 ∧
        (s.written = calls.codec.produces s.enc.sent ↔
          Backlog.after 0 (calls.codec.counts [] s.enc.sent) + (calls.codec.delayed s.enc.sent).length ≤ 1) := by
  refine ⟨execute_returns, fun s h => ?_⟩
  obtain ⟨drained, hwritten, hflush⟩ : ∃ drained, Written calls drained ∧ flush calls drained = .ok s := by
    unfold execute at h
    split at h
    · split at h
      · cases h
      · rename_i looped hloop
        split at h
        · cases h
          have hstart : Written calls ({ input } : AudioProcessor σ P) := ⟨rfl, rfl, rfl⟩
          exact hstart.processLoop hloop
        · cases h
    · cases h
  obtain ⟨hpackets, hleft⟩ := hwritten.flush hflush
  refine ⟨hpackets, hleft, ?_⟩
  rw [← hpackets, List.self_eq_append_right, ← List.length_eq_zero_iff, hleft]
  omega

/-- An encoder that makes two packets of each frame, and one of NULL. -/
def twoPackets : EncoderCodec (Frame Nat) Nat where
  yields _ frame := [frame.samples.length, frame.pts]
  delayed _ := [0]
  takes _ _ := true
  takes_empty _ := rfl
  delay := true
  delayed_eq := by simp
  fails _ _ := false

theorem twoPackets_clean : Clean { codec := twoPackets } twoFrames where
  calls := by constructor <;> simp [twoPackets]
  readings := by
    intro r hr
    simp only [twoFrames, List.mem_cons, List.not_mem_nil, or_false] at hr
    rcases hr with rfl | rfl | rfl <;> exact ⟨rfl, ⟨_, rfl⟩, rfl, rfl, rfl, rfl⟩
  frames := by decide
  samples := by decide

/-- Its last packet is left. -/
theorem execute_writes_two_frames :
    ∃ s, execute { codec := twoPackets } { input := twoFrames } = .ok s ∧
      s.written ++ s.enc.queue = [3, 0, 0] ∧ s.enc.queue.length = 1 := by
  have hsent : (execute { codec := twoPackets } { input := twoFrames }).toOption.map (fun s => s.enc.sent) =
      some [⟨[1, 2, 3], 0⟩] := by decide +kernel
  obtain ⟨hreturns, hwrites⟩ := @execute_writes _ _ { codec := twoPackets } twoFrames
  obtain ⟨s, hs⟩ := hreturns twoPackets_clean
  obtain ⟨hpackets, hleft, -⟩ := hwrites s hs
  have hsent : s.enc.sent = [⟨[1, 2, 3], 0⟩] := by simpa [hs, Except.toOption] using hsent
  rw [hsent] at hpackets hleft
  exact ⟨s, hs, hpackets, hleft⟩

end Processor

end AudioToolApi.Audio
