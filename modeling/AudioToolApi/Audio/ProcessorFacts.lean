/-
What `execute` sends to the encoder. Filling, draining and filling again
keep one invariant (`Inv`): the samples sent and those in the FIFO are the
samples stored, in order; `pts` counts the samples sent; and every frame
sent is whole, but for the last one after the end was reported, with which
the FIFO is empty.
-/
import AudioToolApi.Audio.Processor

namespace AudioToolApi.Audio.Processor

variable {σ P : Type} {calls : Calls σ P} {s s' : AudioProcessor σ P} {finished : Bool}

/-- The frames that are put into the FIFO: those decoded before the end is
reported. -/
def storedFrames : List (Reading σ) → List (List σ)
  | [] => []
  | r :: rs =>
    match decodeAudioFrame r with
    | .ok (frame, false) => frame.toList ++ storedFrames rs
    | _ => []

/-- How many samples there are in `frames`. -/
def samplesIn (frames : List (Frame σ)) : Nat := (frames.map fun frame => frame.samples.length).sum

/-- Each frame starts where those before it end. -/
def Clocked (frames : List (Frame σ)) : Prop :=
  ∀ k frame, frames[k]? = some frame → frame.pts = samplesIn (frames.take k)

theorem samplesIn_append (frames : List (Frame σ)) (frame : Frame σ) :
    samplesIn (frames ++ [frame]) = samplesIn frames + frame.samples.length := by
  simp [samplesIn]

theorem clocked_nil : Clocked ([] : List (Frame σ)) := fun _ _ h => nomatch h

theorem Clocked.append {frames : List (Frame σ)} (h : Clocked frames) (samples : List σ) :
    Clocked (frames ++ [⟨samples, samplesIn frames⟩]) := by
  intro k frame hk
  rcases lt_or_ge k frames.length with hlt | hge
  · rw [List.getElem?_append_left hlt] at hk
    rw [h k frame hk, List.take_append_of_le_length hlt.le]
  · rw [List.getElem?_append_right hge, List.getElem?_singleton] at hk
    obtain ⟨hk, hframe⟩ := Option.ite_none_right_eq_some.mp hk
    rw [← Option.some.inj hframe, show k = frames.length by omega, List.take_left']
    rfl

/-- Where a run is that read `input`, before (`finished` is `false`) and
after the end was reported. -/
structure Inv (input : List (Reading σ)) (finished : Bool) (s : AudioProcessor σ P) : Prop where
  samples : (s.enc.sent.map Frame.samples).flatten ++ s.fifo = s.stored.flatten
  stored : storedFrames input = s.stored ++ if finished then [] else storedFrames s.input
  pts : s.pts = samplesIn s.enc.sent
  clocked : Clocked s.enc.sent
  whole : finished = false ∨ s.fifo ≠ [] → ∀ frame ∈ s.enc.sent, frame.samples.length = outputFrameSize
  atMost : ∀ frame ∈ s.enc.sent, frame.samples.length ≤ outputFrameSize
  butLast : ∀ frame ∈ s.enc.sent.dropLast, frame.samples.length = outputFrameSize
  draining : s.enc.draining = false

variable {input : List (Reading σ)}

theorem inv_init (input : List (Reading σ)) : Inv input false ({ input } : AudioProcessor σ P) where
  samples := rfl
  stored := rfl
  pts := rfl
  clocked := clocked_nil
  whole := fun _ _ h => (List.not_mem_nil h).elim
  atMost := fun _ h => (List.not_mem_nil h).elim
  butLast := fun _ h => (List.not_mem_nil h).elim
  draining := rfl

/-- What one more reading gives. -/
theorem storedFrames_read {readings : List (Reading σ)} {frame : Option (List σ)}
    (h : decodeAudioFrame (readings.headD .atEnd) = .ok (frame, finished)) :
    storedFrames readings = if finished then [] else frame.toList ++ storedFrames readings.tail := by
  cases readings with
  | nil =>
    cases h
    rfl
  | cons r rs =>
    rw [List.headD_cons] at h
    rw [storedFrames, h]
    cases finished <;> rfl

theorem Inv.read (hs : Inv input false s) (h : readDecodeConvertAndStore s = .ok (finished, s')) :
    Inv input finished s' := by
  obtain ⟨frame, hdecode, rfl⟩ := readDecodeConvertAndStore_ok h
  have hstored := hs.stored
  rw [if_neg Bool.false_ne_true, storedFrames_read hdecode] at hstored
  refine ⟨?_, ?_, hs.pts, hs.clocked, fun _ => hs.whole (.inl rfl), hs.atMost, hs.butLast, hs.draining⟩
  · cases finished with
    | true => exact hs.samples
    | false =>
      rw [if_neg Bool.false_ne_true, if_neg Bool.false_ne_true, ← List.append_assoc, hs.samples, List.flatten_append]
      cases frame <;> simp
  · cases finished with
    | true => exact hstored
    | false => simpa using hstored

theorem Inv.fill (hs : Inv input false s) (h : fill s = .ok (finished, s')) : Inv input finished s' := by
  fun_induction Processor.fill s with
  | case1 => cases h
  | case2 s _ read hread =>
    cases h
    exact hs.read hread
  | case3 s _ read hread ih => exact ih (hs.read hread) h
  | case4 =>
    cases h
    exact hs

/-- A frame more: it is whole, or takes all there is after the end. -/
theorem Inv.load (hs : Inv input finished s) (hready : s.Ready finished) (h : loadEncodeAndWrite calls s = .ok s') :
    Inv input finished s' := by
  obtain ⟨present, hencoded⟩ := loadEncodeAndWrite_ok h
  obtain ⟨hsent, hdraining⟩ := hencoded.sent hs.draining
  simp only [Option.map_some, Option.toList_some] at hsent
  have hsize : 0 < outputFrameSize := by decide
  have hne : s.fifo ≠ [] := List.ne_nil_of_length_pos (by rcases hready with hfull | ⟨-, hpos⟩ <;> omega)
  have hwhole := hs.whole (.inr hne)
  have hpts := hencoded.pts
  simp only [Option.getD_some] at hpts
  refine ⟨?_, ?_, ?_, ?_, fun hmore => ?_, ?_, ?_, hdraining⟩
  · rw [hsent, hencoded.fifo, hencoded.stored, ← hs.samples]
    simp
  · rw [hencoded.stored, hencoded.input]
    exact hs.stored
  · rw [hpts, hs.pts, hsent, samplesIn_append]
  · rw [hsent, hs.pts]
    exact hs.clocked.append _
  · have hfull : outputFrameSize ≤ s.fifo.length := by
      rcases hready with hfull | ⟨hend, -⟩
      · exact hfull
      · rcases hmore with hnot | hmore
        · exact nomatch hend.symm.trans hnot
        · rw [hencoded.fifo] at hmore
          have := List.length_pos_of_ne_nil hmore
          rw [List.length_drop] at this
          omega
    rw [hsent, List.forall_mem_append]
    exact ⟨hwhole, List.forall_mem_singleton.mpr (List.length_take_of_le hfull)⟩
  · rw [hsent, List.forall_mem_append]
    exact ⟨hs.atMost, List.forall_mem_singleton.mpr (List.length_take_le _ _)⟩
  · rw [hsent, List.dropLast_concat]
    exact hwhole

theorem Inv.drain (hs : Inv input finished s) (h : drain calls finished s = .ok s') :
    Inv input finished s' ∧ ¬ s'.Ready finished := by
  fun_induction Processor.drain calls finished s with
  | case1 => cases h
  | case2 s hready loaded hload ih => exact ih (hs.load hready hload) h
  | case3 s hready =>
    cases h
    exact ⟨hs, hready⟩

/-- NULL is no frame. -/
theorem Encoded.null {present : Bool} (h : Encoded none s present s') : s'.enc.sent = s.enc.sent := by
  cases hdraining : s.enc.draining with
  | true => rw [(h.flushed hdraining).2]
  | false => simpa using (h.sent hdraining).1

theorem flush_keeps (h : flush calls s = .ok s') :
    s'.fifo = s.fifo ∧ s'.stored = s.stored ∧ s'.enc.sent = s.enc.sent := by
  fun_induction flush calls s with
  | case1 => cases h
  | case2 s flushed hflush ih =>
    have hencoded := encodeAudioFrame_ok hflush
    obtain ⟨hfifo, hstored, hsent⟩ := ih h
    exact ⟨hfifo.trans hencoded.fifo, hstored.trans hencoded.stored, hsent.trans hencoded.null⟩
  | case3 s flushed hflush =>
    cases h
    have hencoded := encodeAudioFrame_ok hflush
    exact ⟨hencoded.fifo, hencoded.stored, hencoded.null⟩

/-- Where the loop ends. -/
theorem Inv.processLoop (hs : Inv input false s) (h : processLoop calls s = .ok s') :
    ∃ drained, Inv input true drained ∧ drained.fifo = [] ∧ flush calls drained = .ok s' := by
  fun_induction Processor.processLoop calls s with
  | case1 => cases h
  | case2 => cases h
  | case3 s filled drained hfill hdrain =>
    obtain ⟨hinv, hready⟩ := (hs.fill hfill).drain hdrain
    refine ⟨drained, hinv, ?_, h⟩
    by_contra hne
    exact hready (.inr ⟨rfl, List.length_pos_of_ne_nil hne⟩)
  | case4 s finished filled hfill drained hdrain hend ih =>
    cases Bool.eq_false_iff.mpr hend
    exact ih ((hs.fill hfill).drain hdrain).1 h

/-- **The FIFO keeps every sample and a continuous clock.** A run without
errors ends with the FIFO empty. The frames it has sent to the encoder are
together the samples that were stored, in order; each holds at most
`outputFrameSize` samples, and all but the last hold as many; and the `pts`
of each is the number of samples sent before it. -/
theorem execute_keeps_samples (h : execute calls { input } = .ok s) :
    s.fifo = [] ∧ s.stored = storedFrames input ∧ (s.enc.sent.map Frame.samples).flatten = s.stored.flatten ∧
      (∀ frame ∈ s.enc.sent, frame.samples.length ≤ outputFrameSize) ∧
      (∀ frame ∈ s.enc.sent.dropLast, frame.samples.length = outputFrameSize) ∧
      ∀ k frame, s.enc.sent[k]? = some frame → frame.pts = samplesIn (s.enc.sent.take k) := by
  obtain ⟨drained, hinv, hempty, hflush⟩ : ∃ drained, Inv input true drained ∧ drained.fifo = [] ∧
      flush calls drained = .ok s := by
    unfold execute at h
    split at h
    · split at h
      · cases h
      · rename_i looped hloop
        split at h
        · cases h
          exact (inv_init input).processLoop hloop
        · cases h
    · cases h
  obtain ⟨hfifo, hstored, hsent⟩ := flush_keeps hflush
  have hsamples := hinv.samples
  have hall := hinv.stored
  rw [hempty, List.append_nil] at hsamples
  rw [if_pos rfl, List.append_nil] at hall
  rw [hfifo, hstored, hsent]
  exact ⟨hempty, hall.symm, hsamples, hinv.atMost, hinv.butLast, hinv.clocked⟩

/-- An encoder that makes a packet of each frame: its length. -/
def lengthEncoder : EncoderCodec (Frame Nat) Nat where
  yields _ frame := [frame.samples.length]
  delayed _ := []
  takes _ _ := true
  takes_empty _ := rfl
  delay := false
  delayed_eq _ _ := rfl
  fails _ _ := false

/-- A packet without a frame between two frames. -/
def twoFrames : List (Reading Nat) :=
  [{ receiveFrame := .got [1, 2] }, { receiveFrame := .again }, { receiveFrame := .got [3] }]

theorem execute_keeps_samples_two :
    ∃ s, execute { codec := lengthEncoder } { input := twoFrames } = .ok s ∧ s.fifo = [] ∧
      (s.enc.sent.map Frame.samples).flatten = [1, 2, 3] := by
  have hreturns : (execute { codec := lengthEncoder } { input := twoFrames }).isOk = true := by decide +kernel
  cases hrun : execute { codec := lengthEncoder } { input := twoFrames } with
  | error e =>
    rw [hrun] at hreturns
    cases hreturns
  | ok s =>
    obtain ⟨hempty, hstored, hsent, -⟩ := execute_keeps_samples hrun
    refine ⟨s, rfl, hempty, ?_⟩
    rw [hsent, hstored]
    rfl

end AudioToolApi.Audio.Processor
