/-
What `AP::process` sets up before it reads a packet: `init_input`,
`init_output`, `init_filters` and `init_filter` (audio/audio_processor.cpp).

Which of FFmpeg's calls succeed, the codecs it finds, and what it fills in
and copies are a parameter; a call whose result the source drops (or checks in
a variable it has not stored it in) is not among those that may fail. The two
I/O buffers are `Input` and `OutputBufferData`.
-/
import AudioToolApi.Audio.Decode

namespace AudioToolApi.Audio.Setup

/-- `AVMediaType`. -/
inductive MediaType | unknown | video | audio | data | subtitle | attachment
  deriving DecidableEq, Repr

/-- `AVCodecParameters`. -/
structure CodecParameters where
  codecType : MediaType
  codecId : Nat
  format : Int
  sampleRate : Int
  channelLayout : Nat
  channels : Int

/-- `AVStream`; a new output stream has no parameters yet. -/
structure Stream where
  codecpar : CodecParameters
  timeBase : Int × Int

structure OutStream where
  codecpar : Option CodecParameters := none
  timeBase : Int × Int := (0, 0)

/-- `AVCodec`; `sampleFmt` is `sample_fmts[0]`. -/
structure Codec where
  id : Nat
  type : MediaType
  sampleFmt : Int

/-- `AVCodecContext`. -/
structure CodecContext where
  codecType : MediaType
  codecId : Nat := 0
  sampleFmt : Int := -1
  sampleRate : Int := 0
  channelLayout : Nat := 0
  channels : Int := 0
  timeBase : Int × Int := (0, 1)
  globalHeader : Bool := false
  opened : Bool := false

/-- `StreamContext`; `av_mallocz_array` makes both null. -/
structure StreamContext where
  decCtx : Option CodecContext := none
  encCtx : Option CodecContext := none

/-- What the source is told of the decoder, what the sink is told of the
encoder, and the filters between them. -/
structure FilterGraph where
  args : (Int × Int) × Int × Int × Nat
  sampleFmts : Int
  channelLayouts : Nat
  sampleRates : Int
  spec : String

/-- `FilteringContext`; the two endpoints are set where the graph is. -/
structure FilteringContext where
  filterGraph : Option FilterGraph := none

/-- The calls of FFmpeg whose failure is seen, with the stream. -/
inductive Call
  | allocInputFormat | mallocInputIo | allocInputIo | findStreamInfo
  | allocDecoder (i : Nat) | decoderParameters (i : Nat) | openDecoder (i : Nat)
  | allocOutputIo | allocOutputFormat | guessFormat
  | newStream (i : Nat) | outputParameters (i : Nat) | allocEncoder (i : Nat) | openEncoder (i : Nat)
  | encoderParameters (i : Nat) | writeHeader
  | allocFilters | allocFilter (i : Nat) | getFilters (i : Nat) | setSampleFmts (i : Nat) | nameEndpoints (i : Nat)
  | parseGraph (i : Nat) | configGraph (i : Nat)

structure Ffmpeg where
  succeeds : Call → Bool
  findDecoder : Nat → Option Codec
  /-- `avcodec_find_encoder(AV_CODEC_ID_PCM_F32LE)`. -/
  findEncoder : Option Codec
  /-- An `abuffer` is created with what this context says of its frames. -/
  createSource : CodecContext → Bool
  /-- `avcodec_alloc_context3`; the codec may be null. -/
  allocContext3 : Option Codec → CodecContext
  parametersToContext : CodecContext → CodecParameters → CodecContext
  parametersFromContext : CodecContext → CodecParameters
  getDefaultChannelLayout : Int → Nat
  getChannelLayoutNbChannels : Nat → Int
  /-- The output format has `AVFMT_GLOBALHEADER`. -/
  globalHeader : Bool

/-- How setting up ends early: by a thrown text, or at a null context. -/
inductive SetupStop | threw (text : String) | nullPointer
  deriving DecidableEq, Repr

/-- The members of `AP` that are set up. -/
structure AP where
  streams : List Stream
  streamCtx : List StreamContext := []
  outStreams : List OutStream := []
  filterCtx : List FilteringContext := []
  outputSampleRate : Int

def call (ff : Ffmpeg) (c : Call) (text : String) : Except SetupStop Unit :=
  if ff.succeeds c then .ok () else .error (.threw text)

/-! ## `init_input` -/

/-- A turn of the loop: the decoder of stream `i`. -/
def inputStream (ff : Ffmpeg) (i : Nat) (stream : Stream) : Except SetupStop StreamContext := do
  let some dec := ff.findDecoder stream.codecpar.codecId
    | throw (.threw "Failed to find decoder for stream")
  call ff (.allocDecoder i) "Failed to allocate decoder context for stream"
  call ff (.decoderParameters i) "Failed to copy decoder codec paramters to input decoder context"
  let codecCtx := ff.parametersToContext (ff.allocContext3 (some dec)) stream.codecpar
  if codecCtx.codecType = .audio then
    call ff (.openDecoder i) "Failed to open decoder for stream"
    return { decCtx := some { codecCtx with opened := true } }
  return { decCtx := some codecCtx }

def inputStreams (ff : Ffmpeg) (i : Nat) : List Stream → Except SetupStop (List StreamContext)
  | [] => .ok []
  | stream :: streams => do
    let ctx ← inputStream ff i stream
    let ctxs ← inputStreams ff (i + 1) streams
    return ctx :: ctxs

def initInput (ff : Ffmpeg) (ap : AP) : Except SetupStop AP := do
  call ff .allocInputFormat "Error allocating memory"
  call ff .mallocInputIo "Error allocating memory"
  call ff .allocInputIo "Error allocating memory"
  call ff .findStreamInfo "Could not find stream info, Error: "
  let streamCtx ← inputStreams ff 0 ap.streams
  return { ap with streamCtx }

/-! ## `init_output` -/

/-- What the loop keeps from one stream to the next: the `encoder` it found
last, and `output_sample_rate`. -/
structure OutputLoop where
  encoder : Option Codec := none
  outputSampleRate : Int

/-- A turn of the loop: the encoder of stream `i`. -/
def outputStream (ff : Ffmpeg) (i : Nat) (inStream : Stream) (ctx : StreamContext) (loop : OutputLoop) :
    Except SetupStop (StreamContext × OutStream × OutputLoop) := do
  call ff (.newStream i) "Could not allocate output stream"
  let some decCtx := ctx.decCtx | throw .nullPointer
  call ff (.outputParameters i) "Failed to build codec context from paramters for stream"
  let decCtx := ff.parametersToContext decCtx inStream.codecpar
  call ff (.allocEncoder i) "Failed to allocate the encoder context"
  let encCtx := ff.allocContext3 loop.encoder
  if decCtx.codecType = .audio then
    let some encoder := ff.findEncoder | throw (.threw "Could not find necessary encoder")
    let encCtx := { encCtx with
      sampleRate := decCtx.sampleRate
      channelLayout := decCtx.channelLayout
      channels := ff.getChannelLayoutNbChannels decCtx.channelLayout
      sampleFmt := encoder.sampleFmt
      timeBase := (1, decCtx.sampleRate)
      globalHeader := ff.globalHeader }
    call ff (.openEncoder i) "Could not open codec"
    let encCtx := { encCtx with codecType := encoder.type, codecId := encoder.id, opened := true }
    call ff (.encoderParameters i) "Failed to copy codec parameters from encoding context"
    return ({ decCtx := some decCtx, encCtx := some encCtx },
      { codecpar := some (ff.parametersFromContext encCtx), timeBase := inStream.timeBase },
      { encoder := some encoder, outputSampleRate := decCtx.sampleRate })
  return ({ ctx with decCtx := some decCtx }, {}, loop)

def outputStreams (ff : Ffmpeg) (i : Nat) : List (Stream × StreamContext) → OutputLoop →
    Except SetupStop (List StreamContext × List OutStream × OutputLoop)
  | [], loop => .ok ([], [], loop)
  | (stream, ctx) :: rest, loop => do
    let (ctx, out, loop) ← outputStream ff i stream ctx loop
    let (ctxs, outs, loop) ← outputStreams ff (i + 1) rest loop
    return (ctx :: ctxs, out :: outs, loop)

def initOutput (ff : Ffmpeg) (ap : AP) : Except SetupStop AP := do
  call ff .allocOutputIo "Could not allocate output IO context"
  call ff .allocOutputFormat "Could not allocate output format context"
  call ff .guessFormat "Could not set up output format context"
  let (streamCtx, outStreams, loop) ←
    outputStreams ff 0 (ap.streams.zip ap.streamCtx) { outputSampleRate := ap.outputSampleRate }
  call ff .writeHeader "Error occurred when writing header"
  return { ap with streamCtx, outStreams, outputSampleRate := loop.outputSampleRate }

/-! ## `init_filters` -/

/-- `init_filter`. The decoder's context is a pointer: the layout chosen
here is seen outside. -/
def initFilter (ff : Ffmpeg) (i : Nat) (filterSpec : String) (ctx : StreamContext) :
    Except SetupStop (StreamContext × FilteringContext) := do
  call ff (.allocFilter i) "Could not allocate reources for filter"
  call ff (.getFilters i) "Could not find filter for buffer source or sink"
  let some decCtx := ctx.decCtx | throw .nullPointer
  let decCtx := if decCtx.channelLayout = 0 then
    { decCtx with channelLayout := ff.getDefaultChannelLayout decCtx.channels } else decCtx
  if !ff.createSource decCtx then throw (.threw "Could not create buffer source")
  let some encCtx := ctx.encCtx | throw .nullPointer
  call ff (.setSampleFmts i) "Could not set output sample format"
  call ff (.nameEndpoints i) "Could not set up filter graph endpoints"
  call ff (.parseGraph i) ""
  call ff (.configGraph i) ""
  return ({ ctx with decCtx := some decCtx },
    { filterGraph := some {
        args := (decCtx.timeBase, decCtx.sampleRate, decCtx.sampleFmt, decCtx.channelLayout)
        sampleFmts := encCtx.sampleFmt
        channelLayouts := encCtx.channelLayout
        sampleRates := encCtx.sampleRate
        spec := filterSpec } })

/-- The loop calls it for every stream, whatever the stream holds. -/
def filterStreams (ff : Ffmpeg) (i : Nat) : List StreamContext →
    Except SetupStop (List StreamContext × List FilteringContext)
  | [] => .ok ([], [])
  | ctx :: rest => do
    let (ctx, fctx) ← initFilter ff i "anull" ctx
    let (ctxs, fctxs) ← filterStreams ff (i + 1) rest
    return (ctx :: ctxs, fctx :: fctxs)

def initFilters (ff : Ffmpeg) (ap : AP) : Except SetupStop AP := do
  call ff .allocFilters "Could not allocate filter context"
  let (streamCtx, filterCtx) ← filterStreams ff 0 ap.streamCtx
  return { ap with streamCtx, filterCtx }

/-- The first three calls of `process`. -/
def setUp (ff : Ffmpeg) (ap : AP) : Except SetupStop AP := do
  let ap ← initInput ff ap
  let ap ← initOutput ff ap
  initFilters ff ap

/-- What `process` asks of a packet's stream: `filter_ctx[i].filter_graph`.
The streams without one it passes through. -/
def AP.graph (ap : AP) (i : Fin ap.streams.length) : Bool :=
  match ap.filterCtx[i.val]? with
  | some fctx => fctx.filterGraph.isSome
  | none => false

/-- `stream_ctx[i].enc_ctx` is not null. -/
def AP.hasEncoder (ap : AP) (i : Fin ap.streams.length) : Bool :=
  match ap.streamCtx[i.val]? with
  | some ctx => ctx.encCtx.isSome
  | none => false

end AudioToolApi.Audio.Setup
