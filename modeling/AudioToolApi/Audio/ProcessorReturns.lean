/-
When `execute` runs without errors: no call fails and no sum overflows
(`Clean`). Then it returns, whatever the sizes of the frames are.
-/
import AudioToolApi.Audio.ProcessorFacts

namespace AudioToolApi.Audio.Processor

variable {σ P : Type} {calls : Calls σ P} {input : List (Reading σ)} {s s' : AudioProcessor σ P} {finished : Bool}

/-- No call fails while the frame is read. -/
structure Reading.Works (r : Reading σ) : Prop where
  initInputFrame : r.initInputFrame = true
  decodes : ∃ decoded, decodeAudioFrame r = .ok decoded
  initConvertedSamples : r.initConvertedSamples = true
  convertSamples : r.convertSamples = true
  fifoRealloc : r.fifoRealloc = true
  fifoWrite : r.fifoWrite = true

/-- Nor does any other call; in particular the encoder takes every frame. -/
structure Calls.Work (calls : Calls σ P) : Prop where
  openInputFile : calls.openInputFile = true
  openOutputFile : calls.openOutputFile = true
  initResampler : calls.initResampler = true
  initFifo : calls.initFifo = true
  writeOutputFileHeader : calls.writeOutputFileHeader = true
  initOutputFrame : ∀ sent size, calls.initOutputFrame sent size = true
  fifoRead : ∀ sent size, calls.fifoRead sent size = true
  takes : ∀ sent waiting, calls.codec.takes sent waiting = true
  receives : ∀ sent waiting, calls.codec.fails sent waiting = false
  writeFrame : ∀ written packet, calls.writeFrame written packet = true
  writeOutputFileTrailer : ∀ written, calls.writeOutputFileTrailer written = true

/-- A run without errors: the FIFO's size stays an `int`, the number of
samples an `int64_t`. -/
structure Clean (calls : Calls σ P) (input : List (Reading σ)) : Prop where
  calls : calls.Work
  readings : ∀ r ∈ input, r.Works
  frames : ∀ frame ∈ storedFrames input, outputFrameSize + frame.length ≤ 2 ^ 31
  samples : (storedFrames input).flatten.length < 2 ^ 63

theorem samplesIn_eq (frames : List (Frame σ)) : samplesIn frames = (frames.map Frame.samples).flatten.length := by
  simp [samplesIn, List.length_flatten, Function.comp_def]

/-- No sample is counted that is not stored. -/
theorem Inv.pts_le (hs : Inv input finished s) : s.pts + s.fifo.length ≤ (storedFrames input).flatten.length := by
  have hsamples := congrArg List.length hs.samples
  rw [List.length_append, ← samplesIn_eq, ← hs.pts] at hsamples
  rw [hsamples, hs.stored, List.flatten_append, List.length_append]
  omega

theorem Reading.atEnd_works : (Reading.atEnd : Reading σ).Works := ⟨rfl, ⟨_, rfl⟩, rfl, rfl, rfl, rfl⟩

theorem headD_works {readings : List (Reading σ)} (h : ∀ r ∈ readings, r.Works) : (readings.headD .atEnd).Works := by
  cases readings with
  | nil => exact Reading.atEnd_works
  | cons r rs => exact h r List.mem_cons_self

theorem readDecodeConvertAndStore_returns (hclean : Clean calls input) (hs : Inv input false s)
    (hreadings : ∀ r ∈ s.input, r.Works) (hroom : s.fifo.length < outputFrameSize) :
    ∃ finished s', readDecodeConvertAndStore s = .ok (finished, s') := by
  have hworks := headD_works hreadings
  obtain ⟨⟨frame, finished⟩, hdecode⟩ := hworks.decodes
  simp only [readDecodeConvertAndStore, hworks.initInputFrame, hdecode]
  cases finished with
  | true => exact ⟨true, _, rfl⟩
  | false =>
    cases frame with
    | none => exact ⟨false, _, rfl⟩
    | some samples =>
      have hmem : samples ∈ storedFrames input := by
        rw [hs.stored, if_neg Bool.false_ne_true, storedFrames_read hdecode]
        simp
      have hfits : ¬ 2 ^ 31 ≤ s.fifo.length + samples.length := by
        have := hclean.frames samples hmem
        omega
      simp only [hworks.initConvertedSamples, hworks.convertSamples, Bool.and_self, if_true, addSamplesToFifo,
        if_neg hfits, hworks.fifoRealloc, hworks.fifoWrite]
      exact ⟨false, _, rfl⟩

theorem fill_returns (hclean : Clean calls input) (hs : Inv input false s) (hreadings : ∀ r ∈ s.input, r.Works) :
    ∃ finished s', fill s = .ok (finished, s') ∧ ∀ r ∈ s'.input, r.Works := by
  fun_induction fill s with
  | case1 s hroom e hread =>
    obtain ⟨finished, s', hreturns⟩ := readDecodeConvertAndStore_returns hclean hs hreadings hroom
    cases hreturns.symm.trans hread
  | case2 s hroom read hread =>
    obtain ⟨frame, -, rfl⟩ := readDecodeConvertAndStore_ok hread
    exact ⟨true, _, rfl, fun r hr => hreadings r (List.mem_of_mem_tail hr)⟩
  | case3 s hroom read hread ih =>
    refine ih (hs.read hread) ?_
    obtain ⟨frame, -, rfl⟩ := readDecodeConvertAndStore_ok hread
    exact fun r hr => hreadings r (List.mem_of_mem_tail hr)
  | case4 s => exact ⟨false, s, rfl, hreadings⟩

theorem sendFrame_taken (hcalls : calls.Work) (frame : Option (Frame σ)) (e : Encoder (Frame σ) P) :
    (calls.codec.sendFrame frame e).1 ≠ .again := by
  unfold EncoderCodec.sendFrame
  split
  · nofun
  · split
    · nofun
    · rw [if_pos (hcalls.takes _ _)]
      nofun

theorem encodeAudioFrame_returns (hcalls : calls.Work) (frame : Option (List σ))
    (hpts : s.pts + (frame.getD []).length < 2 ^ 63) :
    ∃ present s', encodeAudioFrame calls frame s = .ok (present, s') := by
  have htaken := sendFrame_taken hcalls (frame.map fun samples => ⟨samples, s.pts⟩) s.enc
  unfold encodeAudioFrame
  simp only
  rw [if_neg (by omega)]
  generalize calls.codec.sendFrame (frame.map fun samples => ⟨samples, s.pts⟩) s.enc = sent at htaken
  obtain ⟨result, enc⟩ := sent
  cases result with
  | again => exact absurd rfl htaken
  | eof => exact ⟨false, _, rfl⟩
  | ok =>
    simp only
    split
    · exact ⟨false, _, rfl⟩
    · exact ⟨false, _, rfl⟩
    · rename_i hreceive
      simp only [EncoderCodec.receivePacket, hcalls.receives, Bool.false_eq_true, if_false] at hreceive
      split at hreceive
      · split at hreceive <;> cases hreceive
      · cases hreceive
    · rename_i packet enc' _
      rw [if_pos (hcalls.writeFrame _ _)]
      exact ⟨true, _, rfl⟩

theorem loadEncodeAndWrite_returns (hclean : Clean calls input) (hs : Inv input finished s) :
    ∃ s', loadEncodeAndWrite calls s = .ok s' := by
  have hpts := hs.pts_le
  have htotal := hclean.samples
  have hfits : s.pts + (s.fifo.take (min s.fifo.length outputFrameSize)).length < 2 ^ 63 := by
    rw [List.length_take]
    omega
  obtain ⟨present, s', hencode⟩ := @encodeAudioFrame_returns _ _ calls
    { s with fifo := s.fifo.drop (min s.fifo.length outputFrameSize) } hclean.calls
    (some (s.fifo.take (min s.fifo.length outputFrameSize))) hfits
  unfold loadEncodeAndWrite
  simp only [hclean.calls.initOutputFrame, hclean.calls.fifoRead, Bool.and_self, if_true, hencode]
  exact ⟨s', rfl⟩

theorem drain_returns (hclean : Clean calls input) (hs : Inv input finished s) :
    ∃ s', drain calls finished s = .ok s' := by
  fun_induction drain calls finished s with
  | case1 s hready e hload =>
    obtain ⟨s', hreturns⟩ := loadEncodeAndWrite_returns hclean hs
    cases hreturns.symm.trans hload
  | case2 s hready loaded hload ih => exact ih (hs.load hready hload)
  | case3 s hready => exact ⟨s, rfl⟩

theorem flush_returns (hcalls : calls.Work) (hpts : s.pts < 2 ^ 63) : ∃ s', flush calls s = .ok s' := by
  fun_induction flush calls s with
  | case1 s e hencode =>
    obtain ⟨present, s', hreturns⟩ := @encodeAudioFrame_returns _ _ calls s hcalls none hpts
    cases hreturns.symm.trans hencode
  | case2 s flushed hencode ih =>
    have hsame := (encodeAudioFrame_ok hencode).pts
    exact ih (by simpa [hsame] using hpts)
  | case3 s flushed hencode => exact ⟨flushed, rfl⟩

theorem processLoop_returns (hclean : Clean calls input) (hs : Inv input false s)
    (hreadings : ∀ r ∈ s.input, r.Works) : ∃ s', processLoop calls s = .ok s' := by
  fun_induction processLoop calls s with
  | case1 s e hfill =>
    obtain ⟨finished, s', hreturns, -⟩ := fill_returns hclean hs hreadings
    cases hreturns.symm.trans hfill
  | case2 s finished filled hfill e hdrain =>
    obtain ⟨s', hreturns⟩ := drain_returns hclean (hs.fill hfill)
    cases hreturns.symm.trans hdrain
  | case3 s filled drained hfill hdrain =>
    obtain ⟨hinv, -⟩ := (hs.fill hfill).drain hdrain
    have hpts := hinv.pts_le
    have htotal := hclean.samples
    exact flush_returns hclean.calls (by omega)
  | case4 s finished filled hfill drained hdrain hend ih =>
    cases Bool.eq_false_iff.mpr hend
    obtain ⟨finished, s', hreturns, hleft⟩ := fill_returns hclean hs hreadings
    cases hreturns.symm.trans hfill
    rw [← (drain_input hdrain).1] at hleft
    exact ih ((hs.fill hfill).drain hdrain).1 hleft

/-- **A clean run returns.** -/
theorem execute_returns (hclean : Clean calls input) : ∃ s, execute calls { input } = .ok s := by
  obtain ⟨s, hloop⟩ := processLoop_returns hclean (inv_init input) hclean.readings
  refine ⟨s, ?_⟩
  simp [execute, hclean.calls.openInputFile, hclean.calls.openOutputFile, hclean.calls.initResampler,
    hclean.calls.initFifo, hclean.calls.writeOutputFileHeader, hclean.calls.writeOutputFileTrailer, hloop]

end AudioToolApi.Audio.Processor
