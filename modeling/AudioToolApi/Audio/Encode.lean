/-
The encoding side of `AP::process`: `filter_encode_write`, `encode_write`
and the flush (audio/audio_processor.cpp, 393-409 and 429-488).

A filter graph is a queue of frames that its sink has ready, an encoder a
queue of packets. What a frame adds to either, and what NULL releases, is up
to the graph and the codec (`Kit`), as is every error FFmpeg can report.
`encode_write` looks at no result of `avcodec_send_frame`; the sends that
were refused are recorded in `refused`. The flush is that of `process`.
-/
import AudioToolApi.Audio.Decode

namespace AudioToolApi.Audio

variable {F G P : Type} {n : Nat}

/-- What a filter graph decides, given what its source has been fed so far;
NULL is `none`. -/
structure Graph (F G : Type) where
  /-- The frames that feeding this one makes ready. -/
  yields : List (Option F) → Option F → List G
  /-- `av_buffersrc_add_frame_flags` reports no error. -/
  feeds : List (Option F) → Option F → Bool
  /-- `av_buffersink_get_frame` reports an error that is neither `EAGAIN`
  nor `EOF`, with so many frames ready. -/
  fails : List (Option F) → Nat → Bool

/-- An encoder's codec. -/
structure EncoderCodec (G P : Type) extends Codec G P where
  /-- `AV_CODEC_CAP_DELAY`. -/
  delay : Bool
  /-- Without it nothing is held back. -/
  delayed_eq : delay = false → ∀ sent, delayed sent = []
  /-- `avcodec_receive_packet` reports an error of another kind. -/
  fails : List G → Nat → Bool

/-- What each stream is encoded with, and whether `av_write_frame` takes a
packet after those already written. -/
structure Kit (F G P : Type) (n : Nat) where
  graph : Fin n → Graph F G
  codec : Fin n → EncoderCodec G P
  writes : List (P × Fin n) → P × Fin n → Bool

structure Filtering (F G : Type) where
  fed : List (Option F) := []
  queue : List G := []

structure Encoder (G P : Type) where
  sent : List G := []
  queue : List P := []
  draining : Bool := false

structure EncodeState (F G P : Type) (n : Nat) where
  filters : Fin n → Filtering F G := fun _ => {}
  encs : Fin n → Encoder G P := fun _ => {}
  /-- What `av_write_frame` was given. -/
  written : List (P × Fin n) := []
  /-- The streams whose encoder refused a frame. -/
  refused : List (Fin n) := []

/-- What a call that takes something out reports. -/
inductive Reply (α : Type)
  | got (a : α)
  | again
  | eof
  | error

/-- What `avcodec_send_frame` reports. -/
inductive Sent | ok | again | eof
  deriving DecidableEq, Repr

/-! ## FFmpeg's calls -/

/-- `av_buffersrc_add_frame_flags`; `none` is an error. -/
def Graph.addFrame (g : Graph F G) (frame : Option F) (f : Filtering F G) : Option (Filtering F G) :=
  if g.feeds f.fed frame then
    some { fed := f.fed ++ [frame], queue := f.queue ++ g.yields f.fed frame }
  else none

/-- `av_buffersink_get_frame`. -/
def Graph.getFrame (g : Graph F G) (f : Filtering F G) : Reply (G × Filtering F G) :=
  if g.fails f.fed f.queue.length then .error
  else match f.queue with
    | [] => if f.fed.any Option.isNone then .eof else .again
    | frame :: frames => .got (frame, { f with queue := frames })

/-- `avcodec_send_frame`. -/
def EncoderCodec.sendFrame (c : EncoderCodec G P) (frame : Option G) (e : Encoder G P) : Sent × Encoder G P :=
  if e.draining then (.eof, e)
  else match frame with
    | none => (.ok, { e with draining := true, queue := e.queue ++ c.delayed e.sent })
    | some frame =>
      if c.takes e.sent e.queue.length then
        (.ok, { e with sent := e.sent ++ [frame], queue := e.queue ++ c.yields e.sent frame })
      else (.again, e)

/-- `avcodec_receive_packet`. -/
def EncoderCodec.receivePacket (c : EncoderCodec G P) (e : Encoder G P) : Reply (P × Encoder G P) :=
  if c.fails e.sent e.queue.length then .error
  else match e.queue with
    | [] => if e.draining then .eof else .again
    | packet :: packets => .got (packet, { e with queue := packets })

theorem EncoderCodec.sendFrame_eof {c : EncoderCodec G P} {frame : Option G} {e e' : Encoder G P}
    (h : c.sendFrame frame e = (.eof, e')) : e.draining = true ∧ e' = e := by
  unfold EncoderCodec.sendFrame at h
  split at h
  · rename_i hdraining
    cases h
    exact ⟨hdraining, rfl⟩
  · split at h
    · cases h
    · split at h <;> cases h

theorem EncoderCodec.sendFrame_ok {c : EncoderCodec G P} {frame : Option G} {e e' : Encoder G P}
    (h : c.sendFrame frame e = (.ok, e')) :
    e.draining = false ∧ e'.sent = e.sent ++ frame.toList ∧ e'.draining = frame.isNone := by
  unfold EncoderCodec.sendFrame at h
  split at h
  · cases h
  · rename_i hdraining
    have hdraining := Bool.eq_false_iff.mpr hdraining
    split at h
    · cases h
      exact ⟨hdraining, by simp, rfl⟩
    · split at h
      · cases h
        exact ⟨hdraining, by simp, hdraining⟩
      · cases h

/-- A packet that is received is taken off the queue. -/
theorem EncoderCodec.receivePacket_got {c : EncoderCodec G P} {e e' : Encoder G P} {packet : P}
    (h : c.receivePacket e = .got (packet, e')) : e = { e' with queue := packet :: e'.queue } := by
  unfold EncoderCodec.receivePacket at h
  split at h
  · cases h
  · split at h
    · split at h <;> cases h
    · rename_i hq
      cases h
      rw [← hq]

theorem Graph.getFrame_got {g : Graph F G} {f f' : Filtering F G} {frame : G} (h : g.getFrame f = .got (frame, f')) :
    f'.queue.length < f.queue.length := by
  unfold Graph.getFrame at h
  split at h
  · cases h
  · split at h
    · split at h <;> cases h
    · rename_i hq
      cases h
      simp [hq]

/-! ## The two loops -/

def EncodeState.setEnc (s : EncodeState F G P n) (i : Fin n) (e : Encoder G P) : EncodeState F G P n :=
  { s with encs := Function.update s.encs i e }

def EncodeState.setFilter (s : EncodeState F G P n) (i : Fin n) (f : Filtering F G) : EncodeState F G P n :=
  { s with filters := Function.update s.filters i f }

@[simp] theorem EncodeState.setFilter_self (s : EncodeState F G P n) (i : Fin n) (f : Filtering F G) :
    (s.setFilter i f).filters i = f := by simp [setFilter]

/-- The loop of `encode_write`: every packet the encoder has ready. -/
def encodeLoop (K : Kit F G P n) (i : Fin n) (s : EncodeState F G P n) : Except Stop (EncodeState F G P n) :=
  match _h : (K.codec i).receivePacket (s.encs i) with
  | .again | .eof => .ok s
  | .error => .error (.threw "error encoding audio frame")
  | .got (packet, e) =>
    if K.writes s.written (packet, i) then
      encodeLoop K i { s.setEnc i e with written := s.written ++ [(packet, i)] }
    else .error (.threw "Error writing frame")
termination_by (s.encs i).queue.length
decreasing_by
  rw [EncoderCodec.receivePacket_got _h]
  simp [EncodeState.setEnc]

/-- `encode_write`. The result of the send is dropped. -/
def encodeWrite (K : Kit F G P n) (frame : Option G) (i : Fin n) (s : EncodeState F G P n) :
    Except Stop (EncodeState F G P n) :=
  let r := (K.codec i).sendFrame frame (s.encs i)
  encodeLoop K i { s.setEnc i r.2 with refused := if r.1 = .again then s.refused ++ [i] else s.refused }

theorem encodeLoop_filters {K : Kit F G P n} {i : Fin n} {s s' : EncodeState F G P n}
    (h : encodeLoop K i s = .ok s') : s'.filters = s.filters := by
  fun_induction encodeLoop K i s with
  | case1 | case2 =>
    cases h
    rfl
  | case3 | case5 => cases h
  | case4 s packet e _ _ ih => exact ih h

theorem encodeWrite_filters {K : Kit F G P n} {frame : Option G} {i : Fin n} {s s' : EncodeState F G P n}
    (h : encodeWrite K frame i s = .ok s') : s'.filters = s.filters := by
  simp only [encodeWrite] at h
  rw [encodeLoop_filters h]
  rfl

/-- The loop of `filter_encode_write`: every frame the sink has ready. The
bare `throw;` has no exception to throw again. -/
def filterLoop (K : Kit F G P n) (i : Fin n) (s : EncodeState F G P n) : Except Stop (EncodeState F G P n) :=
  match _h : (K.graph i).getFrame (s.filters i) with
  | .again | .eof => .ok s
  | .error => .error .terminated
  | .got (frame, f) =>
    match _hw : encodeWrite K (some frame) i (s.setFilter i f) with
    | .ok s' => filterLoop K i s'
    | .error e => .error e
termination_by (s.filters i).queue.length
decreasing_by
  rw [encodeWrite_filters _hw, EncodeState.setFilter_self]
  exact Graph.getFrame_got _h

def Kit.filterEncodeWrite (K : Kit F G P n) (frame : Option F) (i : Fin n) (s : EncodeState F G P n) :
    Except Stop (EncodeState F G P n) :=
  match (K.graph i).addFrame frame (s.filters i) with
  | none => .error (.threw "Error while feeding the filtergraph")
  | some f => filterLoop K i (s.setFilter i f)

/-- The encoding side that `process` calls; packets that are passed through
are of the same type. -/
def Kit.encodeSide (K : Kit F G P n) : EncodeSide P F (EncodeState F G P n) n where
  filterEncodeWrite s frame i := K.filterEncodeWrite frame i s
  writeFrame s packet i :=
    if K.writes s.written (packet, i) then (true, { s with written := s.written ++ [(packet, i)] })
    else (false, s)
  encodeNull s i := encodeWrite K none i s
  delays i := (K.codec i).delay

/-! ## Runs -/

variable {σ : Type}

/-- Frames of any streams, one after the other. -/
def filterEncodeWrites (E : EncodeSide P F σ n) : List (F × Fin n) → Loop P F σ n Unit
  | [] => pure ()
  | (frame, i) :: frames => do
    filterEncodeWrite E (some frame) i
    filterEncodeWrites E frames

/-- And then the flush of each stream. -/
def encodeFrames (E : EncodeSide P F σ n) (turns : Nat) (frames : List (F × Fin n)) : Loop P F σ n Unit := do
  filterEncodeWrites E frames
  flush E (fun _ => true) turns (List.finRange n)

/-! ## What is made of a stream -/

/-- The frames that feeding `xs` after `fed` makes ready. -/
def Graph.frames (g : Graph F G) (fed : List (Option F)) : List (Option F) → List G
  | [] => []
  | x :: xs => g.yields fed x ++ g.frames (fed ++ [x]) xs

/-- The frames of stream `i`, in order. -/
def framesOf (frames : List (F × Fin n)) (i : Fin n) : List F :=
  frames.filterMap fun (frame, j) => if j = i then some frame else none

/-- All the frames a graph makes of a stream, fed to its end. -/
def Graph.filtered (g : Graph F G) (frames : List F) : List G := g.frames [] (frames.map some ++ [none])

/-- The packets that are still to come for stream `i` when these frames are
over: those of the frames that its graph makes of NULL, and those that its
encoder has held back. -/
def Kit.heldBack (K : Kit F G P n) (i : Fin n) (frames : List F) : List P :=
  let sent := (K.graph i).frames [] (frames.map some)
  let last := (K.graph i).yields (frames.map some) none
  (K.codec i).frames sent last ++ (K.codec i).delayed (sent ++ last)

/-- The packets written for stream `i`, in order. -/
def EncodeState.writtenOf (s : EncodeState F G P n) (i : Fin n) : List P :=
  s.written.filterMap fun (packet, j) => if j = i then some packet else none

end AudioToolApi.Audio
