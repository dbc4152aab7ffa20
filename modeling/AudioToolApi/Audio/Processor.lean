/-
`AudioProcessor::execute` and the FIFO it goes through (audio/processor.cpp,
33-73, 445-494, 566-639 and 684-770).

What FFmpeg answers while one frame is read is a `Reading`; the samples of a
frame are given as `convert_samples` leaves them. Where the readings end,
`av_read_frame` reports the end of the file. The encoder is that of `AP`.

A call that fails leads to `cleanup`, and nothing is done after it. So do
sums that their type cannot hold, which C leaves undefined.
-/
import AudioToolApi.Audio.Encode

namespace AudioToolApi.Audio.Processor

variable {σ P : Type}

/-- `output_frame_size`. -/
def outputFrameSize : Nat := 1024 * 1024 * 20

/-- How `execute` can end before its trailer. -/
inductive Halt | cleanup | overflow
  deriving DecidableEq, Repr

/-- An `AVFrame` for the encoder. -/
structure Frame (σ : Type) where
  samples : List σ
  pts : Nat
  deriving DecidableEq, Repr

/-- What is answered during one `read_decode_convert_and_store`; a `Bool` is
`false` where the call fails. -/
structure Reading (σ : Type) where
  initInputFrame : Bool := true
  readFrame : Reply Unit := .got ()
  sendPacket : Bool := true
  receiveFrame : Reply (List σ)
  initConvertedSamples : Bool := true
  convertSamples : Bool := true
  fifoRealloc : Bool := true
  fifoWrite : Bool := true

/-- At the end of the file, and of what the decoder has. -/
def Reading.atEnd : Reading σ := { readFrame := .eof, receiveFrame := .eof }

/-- What the other calls report, given the frames sent so far. -/
structure Calls (σ P : Type) where
  openInputFile : Bool := true
  openOutputFile : Bool := true
  initResampler : Bool := true
  initFifo : Bool := true
  writeOutputFileHeader : Bool := true
  initOutputFrame : List (Frame σ) → Nat → Bool := fun _ _ => true
  /-- `av_audio_fifo_read` gives as many samples as it was asked for. -/
  fifoRead : List (Frame σ) → Nat → Bool := fun _ _ => true
  codec : EncoderCodec (Frame σ) P
  writeFrame : List P → P → Bool := fun _ _ => true
  writeOutputFileTrailer : List P → Bool := fun _ => true

structure AudioProcessor (σ P : Type) where
  input : List (Reading σ)
  fifo : List σ := []
  pts : Nat := 0
  enc : Encoder (Frame σ) P := {}
  /-- What `av_write_frame` has written. -/
  written : List P := []
  /-- What was put into the FIFO, frame by frame. -/
  stored : List (List σ) := []

/-! ## Into the FIFO -/

/-- `*data_present`, with the frame, and `*finished`. -/
def decodeAudioFrame (r : Reading σ) : Except Halt (Option (List σ) × Bool) := do
  let finished ← match r.readFrame with
    | .got () => pure false
    | .eof => pure true
    | .again | .error => throw .cleanup
  if !r.sendPacket then throw .cleanup
  match r.receiveFrame with
  | .got samples => return (some samples, finished)
  | .again => return (none, finished)
  | .eof => return (none, true)
  | .error => throw .cleanup

def addSamplesToFifo (r : Reading σ) (samples : List σ) (s : AudioProcessor σ P) :
    Except Halt (AudioProcessor σ P) :=
  if 2 ^ 31 ≤ s.fifo.length + samples.length then .error .overflow
  else if r.fifoRealloc && r.fifoWrite then
    .ok { s with fifo := s.fifo ++ samples, stored := s.stored ++ [samples] }
  else .error .cleanup

/-- `*finished` is what is returned. Where it is set, a decoded frame is not
stored. -/
def readDecodeConvertAndStore (s : AudioProcessor σ P) : Except Halt (Bool × AudioProcessor σ P) :=
  let r := s.input.headD .atEnd
  let s := { s with input := s.input.tail }
  if !r.initInputFrame then .error .cleanup
  else match decodeAudioFrame r with
    | .error e => .error e
    | .ok (_, true) => .ok (true, s)
    | .ok (none, false) => .ok (false, s)
    | .ok (some samples, false) =>
      if r.initConvertedSamples && r.convertSamples then (addSamplesToFifo r samples s).map (false, ·)
      else .error .cleanup

/-- What one call does that returns. -/
theorem readDecodeConvertAndStore_ok {s s' : AudioProcessor σ P} {finished : Bool}
    (h : readDecodeConvertAndStore s = .ok (finished, s')) :
    ∃ frame, decodeAudioFrame (s.input.headD .atEnd) = .ok (frame, finished) ∧
      s' = { s with
        input := s.input.tail
        fifo := if finished then s.fifo else s.fifo ++ frame.getD []
        stored := if finished then s.stored else s.stored ++ frame.toList } := by
  unfold readDecodeConvertAndStore at h
  simp only at h
  split at h
  · cases h
  · split at h
    · cases h
    · rename_i frame hdecode
      cases h
      exact ⟨frame, hdecode, by simp⟩
    · rename_i hdecode
      cases h
      exact ⟨none, hdecode, by simp⟩
    · rename_i samples hdecode
      split at h
      · unfold addSamplesToFifo at h
        split at h
        · cases h
        · split at h
          · cases h
            exact ⟨some samples, hdecode, by simp⟩
          · cases h
      · cases h

/-- As long as it does not report the end it has read something. -/
theorem readDecodeConvertAndStore_reads {s s' : AudioProcessor σ P}
    (h : readDecodeConvertAndStore s = .ok (false, s')) :
    s'.input.length < s.input.length := by
  obtain ⟨frame, hdecode, rfl⟩ := readDecodeConvertAndStore_ok h
  cases hinput : s.input with
  | nil =>
    rw [hinput] at hdecode
    cases hdecode
  | cons r rs => simp

/-- The loop that fills the FIFO, with `finished`. -/
def fill (s : AudioProcessor σ P) : Except Halt (Bool × AudioProcessor σ P) :=
  if s.fifo.length < outputFrameSize then
    match _h : readDecodeConvertAndStore s with
    | .error e => .error e
    | .ok (true, s') => .ok (true, s')
    | .ok (false, s') => fill s'
  else .ok (false, s)
termination_by s.input.length
decreasing_by exact readDecodeConvertAndStore_reads _h

/-! ## Out of the FIFO -/

/-- `encode_audio_frame`, with `*data_present`. A frame that is not NULL gets
its `pts` here. -/
def encodeAudioFrame (calls : Calls σ P) (frame : Option (List σ)) (s : AudioProcessor σ P) :
    Except Halt (Bool × AudioProcessor σ P) :=
  let samples := frame.getD []
  if 2 ^ 63 ≤ s.pts + samples.length then .error .overflow
  else
    let sent := calls.codec.sendFrame (frame.map fun samples => ⟨samples, s.pts⟩) s.enc
    let s := { s with pts := s.pts + samples.length, enc := sent.2 }
    match sent.1 with
    | .eof => .ok (false, s)
    | .again => .error .cleanup
    | .ok =>
      match calls.codec.receivePacket s.enc with
      | .again | .eof => .ok (false, s)
      | .error => .error .cleanup
      | .got (packet, enc) =>
        if calls.writeFrame s.written packet then .ok (true, { s with enc, written := s.written ++ [packet] })
        else .error .cleanup

def loadEncodeAndWrite (calls : Calls σ P) (s : AudioProcessor σ P) : Except Halt (AudioProcessor σ P) :=
  let frameSize := min s.fifo.length outputFrameSize
  if calls.initOutputFrame s.enc.sent frameSize && calls.fifoRead s.enc.sent frameSize then
    (encodeAudioFrame calls (some (s.fifo.take frameSize)) { s with fifo := s.fifo.drop frameSize }).map Prod.snd
  else .error .cleanup

/-- What `encode_audio_frame` leaves: the encoder was sent `frame` if it is
not draining, and the rest is as it was. -/
structure Encoded (frame : Option (List σ)) (s : AudioProcessor σ P) (present : Bool)
    (s' : AudioProcessor σ P) : Prop where
  input : s'.input = s.input
  fifo : s'.fifo = s.fifo
  stored : s'.stored = s.stored
  pts : s'.pts = s.pts + (frame.getD []).length
  flushed : s.enc.draining = true → present = false ∧ s'.enc = s.enc
  sent : s.enc.draining = false →
    s'.enc.sent = s.enc.sent ++ (frame.map fun samples => (⟨samples, s.pts⟩ : Frame σ)).toList ∧
      s'.enc.draining = frame.isNone

theorem encodeAudioFrame_ok {calls : Calls σ P} {frame : Option (List σ)} {s s' : AudioProcessor σ P}
    {present : Bool} (h : encodeAudioFrame calls frame s = .ok (present, s')) : Encoded frame s present s' := by
  unfold encodeAudioFrame at h
  simp only at h
  split at h
  · cases h
  · generalize hsend : calls.codec.sendFrame (frame.map fun samples => ⟨samples, s.pts⟩) s.enc = sent at h
    obtain ⟨result, enc⟩ := sent
    cases result with
    | again => cases h
    | eof =>
      cases h
      obtain ⟨hdraining, rfl⟩ := EncoderCodec.sendFrame_eof hsend
      exact ⟨rfl, rfl, rfl, rfl, fun _ => ⟨rfl, rfl⟩, fun hnot => nomatch hdraining.symm.trans hnot⟩
    | ok =>
      obtain ⟨hdraining, hsent, hnull⟩ := EncoderCodec.sendFrame_ok hsend
      have hflushed : ∀ {p : Prop}, s.enc.draining = true → p := fun hd => nomatch hdraining.symm.trans hd
      rw [Option.isNone_map] at hnull
      simp only at h
      split at h
      · cases h
        exact ⟨rfl, rfl, rfl, rfl, hflushed, fun _ => ⟨hsent, hnull⟩⟩
      · cases h
        exact ⟨rfl, rfl, rfl, rfl, hflushed, fun _ => ⟨hsent, hnull⟩⟩
      · cases h
      · rename_i packet enc' hreceive
        rw [EncoderCodec.receivePacket_got hreceive] at hsent hnull
        split at h
        · cases h
          exact ⟨rfl, rfl, rfl, rfl, hflushed, fun _ => ⟨hsent, hnull⟩⟩
        · cases h

theorem loadEncodeAndWrite_ok {calls : Calls σ P} {s s' : AudioProcessor σ P}
    (h : loadEncodeAndWrite calls s = .ok s') :
    ∃ present, Encoded (some (s.fifo.take outputFrameSize)) { s with fifo := s.fifo.drop outputFrameSize }
      present s' := by
  have htake : s.fifo.take (min s.fifo.length outputFrameSize) = s.fifo.take outputFrameSize := by
    rw [List.take_eq_take_iff]
    omega
  have hdrop : s.fifo.drop (min s.fifo.length outputFrameSize) = s.fifo.drop outputFrameSize := by
    rw [List.drop_eq_drop_iff]
    omega
  unfold loadEncodeAndWrite at h
  simp only [htake, hdrop] at h
  split at h
  · cases hencode : encodeAudioFrame calls (some (s.fifo.take outputFrameSize))
        { s with fifo := s.fifo.drop outputFrameSize } with
    | error e =>
      rw [hencode] at h
      cases h
    | ok r =>
      rw [hencode] at h
      cases h
      exact ⟨r.1, encodeAudioFrame_ok hencode⟩
  · cases h

/-- The FIFO has a whole frame, or its last one. -/
def AudioProcessor.Ready (s : AudioProcessor σ P) (finished : Bool) : Prop :=
  outputFrameSize ≤ s.fifo.length ∨ finished = true ∧ 0 < s.fifo.length

instance (s : AudioProcessor σ P) (finished : Bool) : Decidable (s.Ready finished) :=
  inferInstanceAs (Decidable (_ ∨ _))

theorem loadEncodeAndWrite_shrinks {calls : Calls σ P} {s s' : AudioProcessor σ P} {finished : Bool}
    (hready : s.Ready finished) (h : loadEncodeAndWrite calls s = .ok s') : s'.fifo.length < s.fifo.length := by
  obtain ⟨present, hencode⟩ := loadEncodeAndWrite_ok h
  have hsize : 0 < outputFrameSize := by decide
  rw [hencode.fifo, List.length_drop]
  rcases hready with hfull | ⟨-, hpos⟩ <;> omega

/-- The loop that empties it. -/
def drain (calls : Calls σ P) (finished : Bool) (s : AudioProcessor σ P) : Except Halt (AudioProcessor σ P) :=
  if _hready : s.Ready finished then
    match _h : loadEncodeAndWrite calls s with
    | .error e => .error e
    | .ok s' => drain calls finished s'
  else .ok s
termination_by s.fifo.length
decreasing_by exact loadEncodeAndWrite_shrinks _hready _h

/-- The `do ... while (data_written)`. -/
def flush (calls : Calls σ P) (s : AudioProcessor σ P) : Except Halt (AudioProcessor σ P) :=
  match _h : encodeAudioFrame calls none s with
  | .error e => .error e
  | .ok (true, s') => flush calls s'
  | .ok (false, s') => .ok s'
termination_by if s.enc.draining then 0 else 1
decreasing_by
  have hok := encodeAudioFrame_ok _h
  cases hdraining : s.enc.draining with
  | true => exact nomatch (hok.flushed hdraining).1
  | false => simp [(hok.sent hdraining).2]

/-! ## The whole run -/

/-- Filling ends at the end of the input, or with a whole frame: one that
was there, or it has read something. -/
theorem fill_cases {s s' : AudioProcessor σ P} {finished : Bool} (h : fill s = .ok (finished, s')) :
    finished = true ∨ outputFrameSize ≤ s'.fifo.length ∧ (s' = s ∨ s'.input.length < s.input.length) := by
  fun_induction fill s with
  | case1 => cases h
  | case2 =>
    cases h
    exact .inl rfl
  | case3 s _ read hread ih =>
    have hless := readDecodeConvertAndStore_reads hread
    rcases ih h with hend | ⟨hfull, rfl | hinput⟩
    · exact .inl hend
    · exact .inr ⟨hfull, .inr hless⟩
    · exact .inr ⟨hfull, .inr (hinput.trans hless)⟩
  | case4 s hfull =>
    cases h
    exact .inr ⟨not_lt.mp hfull, .inl rfl⟩

theorem drain_input {calls : Calls σ P} {finished : Bool} {s s' : AudioProcessor σ P}
    (h : drain calls finished s = .ok s') : s'.input = s.input ∧ ¬ s'.Ready finished := by
  fun_induction drain calls finished s with
  | case1 => cases h
  | case2 s hready r hload ih =>
    obtain ⟨present, hencode⟩ := loadEncodeAndWrite_ok hload
    exact ⟨(ih h).1.trans hencode.input, (ih h).2⟩
  | case3 s hready =>
    cases h
    exact ⟨rfl, hready⟩

/-- The `while (1)` of `execute`. -/
def processLoop (calls : Calls σ P) (s : AudioProcessor σ P) : Except Halt (AudioProcessor σ P) :=
  match _hfill : fill s with
  | .error e => .error e
  | .ok (finished, filled) =>
    match _hdrain : drain calls finished filled with
    | .error e => .error e
    | .ok drained => if _h : finished then flush calls drained else processLoop calls drained
termination_by s.input.length + if outputFrameSize ≤ s.fifo.length then 1 else 0
decreasing_by
  obtain ⟨hinput, hready⟩ := drain_input _hdrain
  rw [hinput, if_neg fun hfull => hready (.inl hfull)]
  rcases fill_cases _hfill with hend | ⟨hfull, rfl | hless⟩
  · exact absurd hend _h
  · rw [if_pos hfull]
    omega
  · omega

/-- `execute`, as far as its trailer. -/
def execute (calls : Calls σ P) (s : AudioProcessor σ P) : Except Halt (AudioProcessor σ P) :=
  if calls.openInputFile && calls.openOutputFile && calls.initResampler && calls.initFifo &&
      calls.writeOutputFileHeader then
    match processLoop calls s with
    | .error e => .error e
    | .ok s' => if calls.writeOutputFileTrailer s'.written then .ok s' else .error .cleanup
  else .error .cleanup

end AudioToolApi.Audio.Processor
