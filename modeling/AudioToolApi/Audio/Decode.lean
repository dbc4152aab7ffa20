/-
The decode loop of `AP::process` (audio/audio_processor.cpp, 340-409), over
decoders that keep FFmpeg's send/receive contract.

A decoder is a queue of frames not yet received. What a packet adds to it,
what is released once the decoder is sent NULL, and whether a packet is
taken while frames are waiting is up to the codec (`Codec`); an empty queue
always takes a packet. `filter_encode_write` and `av_write_frame` are
parameters here: the loop is about what they are given.

Packets and frames are opaque: timestamps are not modelled.
-/
import Mathlib.Logic.Function.Basic
import AudioToolApi.Lib.Backlog

namespace AudioToolApi.Audio

variable {P F σ : Type} {n : Nat}

/-- What a codec decides, given the packets sent to it so far. -/
structure Codec (P F : Type) where
  /-- The frames that sending this packet queues. -/
  yields : List P → P → List F
  /-- The frames released by NULL. -/
  delayed : List P → List F
  /-- Whether the next packet is taken with so many frames waiting. -/
  takes : List P → Nat → Bool
  takes_empty : ∀ sent, takes sent 0 = true

structure Decoder (P F : Type) where
  codec : Codec P F
  sent : List P := []
  queue : List F := []

/-- `avcodec_send_packet`; `none` is `AVERROR(EAGAIN)`. -/
def Decoder.sendPacket (d : Decoder P F) (p : P) : Option (Decoder P F) :=
  if d.codec.takes d.sent d.queue.length then
    some { d with sent := d.sent ++ [p], queue := d.queue ++ d.codec.yields d.sent p }
  else none

/-- `avcodec_receive_frame`; `none` is `AVERROR(EAGAIN)`. -/
def Decoder.receiveFrame (d : Decoder P F) : Option (F × Decoder P F) :=
  match d.queue with
  | [] => none
  | f :: fs => some (f, { d with queue := fs })

/-- How `AP::process` can end other than by returning: a thrown text, the
bare `throw;` of `filter_encode_write`, or the `while (true)` around
`encode_write(NULL, i)`. -/
inductive Stop | threw (text : String) | terminated | hangs
  deriving DecidableEq, Repr

/-- What the loop calls on the encoding side, and its state `σ`. -/
structure EncodeSide (P F σ : Type) (n : Nat) where
  filterEncodeWrite : σ → Option F → Fin n → Except Stop σ
  writeFrame : σ → P → Fin n → Bool × σ
  /-- `encode_write(NULL, i)`. -/
  encodeNull : σ → Fin n → Except Stop σ
  /-- The encoder of the stream has `AV_CODEC_CAP_DELAY`. -/
  delays : Fin n → Bool

/-- The state of the loop. `passed` records what `filter_encode_write` was
called with. -/
structure DecodeState (P F σ : Type) (n : Nat) where
  dec : Fin n → Decoder P F
  out : σ
  passed : List (Option F × Fin n) := []

abbrev Loop (P F σ : Type) (n : Nat) := EStateM Stop (DecodeState P F σ n)

def DecodeState.setDec (s : DecodeState P F σ n) (i : Fin n) (d : Decoder P F) : DecodeState P F σ n :=
  { s with dec := Function.update s.dec i d }

def filterEncodeWrite (E : EncodeSide P F σ n) (frame : Option F) (i : Fin n) : Loop P F σ n Unit := do
  modify fun s => { s with passed := s.passed ++ [(frame, i)] }
  match E.filterEncodeWrite (← get).out frame i with
  | .ok out => modify fun s => { s with out }
  | .error e => throw e

/-- One turn of the loop: a packet of stream `i`. `graph i` says that the
stream has a filter graph. -/
def decodePacket (E : EncodeSide P F σ n) (graph : Fin n → Bool) (packet : P) (i : Fin n) :
    Loop P F σ n Unit := do
  if graph i then
    match ((← get).dec i).sendPacket packet with
    | none => throw (.threw "Problem sending packet")
    | some d => modify fun s => s.setDec i d
    match ((← get).dec i).receiveFrame with
    | none => pure ()
    | some (frame, d) =>
      modify fun s => s.setDec i d
      filterEncodeWrite E (some frame) i
  else
    let (written, out) := E.writeFrame (← get).out packet i
    modify fun s => { s with out }
    if !written then throw (.threw "Error writing frame")

def decodeLoop (E : EncodeSide P F σ n) (graph : Fin n → Bool) : List (P × Fin n) → Loop P F σ n Unit
  | [] => pure ()
  | (packet, i) :: packets => do
    decodePacket E graph packet i
    decodeLoop E graph packets

/-- `while (true) encode_write(NULL, i)`, looked at after so many turns: nothing
but an error leaves it. -/
def drain (E : EncodeSide P F σ n) (i : Fin n) : Nat → Loop P F σ n Unit
  | 0 => throw .hangs
  | turns + 1 => do
    match E.encodeNull (← get).out i with
    | .ok out => modify fun s => { s with out }
    | .error e => throw e
    drain E i turns

/-- The flush, stream by stream. No decoder is sent NULL. -/
def flush (E : EncodeSide P F σ n) (graph : Fin n → Bool) (turns : Nat) : List (Fin n) → Loop P F σ n Unit
  | [] => pure ()
  | i :: is => do
    if graph i then
      filterEncodeWrite E none i
      if E.delays i then drain E i turns
    flush E graph turns is

/-- `AP::process` after the three `init` calls, on the packets that
`av_read_frame` delivers, and so many turns into the loop that never ends. -/
def process (E : EncodeSide P F σ n) (graph : Fin n → Bool) (turns : Nat) (packets : List (P × Fin n)) :
    Loop P F σ n Unit := do
  decodeLoop E graph packets
  flush E graph turns (List.finRange n)

/-- Every decoder as `init_input` opens it. -/
def DecodeState.init (codec : Fin n → Codec P F) (out : σ) : DecodeState P F σ n :=
  { dec := fun i => { codec := codec i }, out }

/-- The frames of stream `i` that reached `filter_encode_write`, in order. -/
def DecodeState.passedOf (s : DecodeState P F σ n) (i : Fin n) : List F :=
  s.passed.filterMap fun (frame, j) => if j = i then frame else none

/-- The packets of stream `i`, in order. -/
def packetsOf (packets : List (P × Fin n)) (i : Fin n) : List P :=
  packets.filterMap fun (packet, j) => if j = i then some packet else none

/-! ## What a codec makes of a stream -/

/-- The frames that sending `ps` after `sent` queues. -/
def Codec.frames (c : Codec P F) (sent : List P) : List P → List F
  | [] => []
  | p :: ps => c.yields sent p ++ c.frames (sent ++ [p]) ps

/-- How many frames each of `ps` queues. -/
def Codec.counts (c : Codec P F) (sent : List P) : List P → List Nat
  | [] => []
  | p :: ps => (c.yields sent p).length :: c.counts (sent ++ [p]) ps

/-- All the frames a decoder makes of a stream, those released at its end
included. -/
def Codec.produces (c : Codec P F) (ps : List P) : List F := c.frames [] ps ++ c.delayed ps

/-- The decoder takes each of `ps`, though it is given back one frame a
packet only; `q` frames are waiting at the start. -/
def Codec.TakesAll (c : Codec P F) (sent : List P) (q : Nat) : List P → Prop
  | [] => True
  | p :: ps => c.takes sent q = true ∧ c.TakesAll (sent ++ [p]) (q + (c.yields sent p).length - 1) ps

/-- A decoder that one `receive_frame` a packet is enough for: nothing is
released at the end, no run of last packets queues more frames than it has
packets, and no packet is refused meanwhile. -/
structure Codec.OneAPacket (c : Codec P F) (ps : List P) : Prop where
  no_delay : c.delayed ps = []
  keeps_up : Backlog.KeepsUp (c.counts [] ps)
  takes : c.TakesAll [] 0 ps

end AudioToolApi.Audio
