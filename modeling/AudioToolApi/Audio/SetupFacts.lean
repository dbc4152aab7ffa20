/-
Which inputs `AP` can be set up for, FFmpeg doing its part.

`init_input` and `init_output` take every stream as it is and make encoders
for the audio streams only (`Opened`, `Ready`); `init_filters` wants a
source and an encoder of every stream. So setting up ends in a throw at the
first stream that is not audio (`filterStreams_throws`), and a finished
setup has nothing to pass through (`setup_iff`).
-/
import Mathlib.Data.List.Forall2
import AudioToolApi.Audio.Setup

namespace AudioToolApi.Audio.Setup

/-- What is assumed of FFmpeg: the codecs are supported, an `abuffer` can be
created for a decoder of audio and for no other, a context is of the type of
the parameters that are copied to it, and all else succeeds. -/
structure Ffmpeg.Assumed (ff : Ffmpeg) (streams : List Stream) : Prop where
  succeeds : ∀ c, ff.succeeds c = true
  findDecoder : ∀ s ∈ streams, (ff.findDecoder s.codecpar.codecId).isSome
  findEncoder : ff.findEncoder.isSome
  createSource : ∀ ctx, ff.createSource ctx = true ↔ ctx.codecType = .audio
  parametersToContext : ∀ ctx par, (ff.parametersToContext ctx par).codecType = par.codecType

def Stream.isAudio (s : Stream) : Prop := s.codecpar.codecType = .audio

/-- A stream after `init_input`. -/
structure Opened (s : Stream) (ctx : StreamContext) : Prop where
  dec : ∃ dec, ctx.decCtx = some dec ∧ dec.codecType = s.codecpar.codecType
  enc : ctx.encCtx = none

/-- A stream after `init_output`: an encoder is there for audio only. -/
structure Ready (s : Stream) (ctx : StreamContext) : Prop where
  dec : ∃ dec, ctx.decCtx = some dec ∧ dec.codecType = s.codecpar.codecType
  enc : ctx.encCtx.isSome ↔ s.isAudio

section
variable {ff : Ffmpeg} {streams : List Stream}

theorem Ffmpeg.Assumed.call (h : ff.Assumed streams) (c : Call) (text : String) :
    Setup.call ff c text = .ok () := by
  unfold Setup.call
  rw [if_pos (h.succeeds c)]

/-! ## `init_input` -/

theorem inputStream_ok (h : ff.Assumed streams) (i : Nat) {s : Stream} (hs : s ∈ streams) :
    ∃ ctx, inputStream ff i s = .ok ctx ∧ Opened s ctx := by
  obtain ⟨dec, hdec⟩ := Option.isSome_iff_exists.mp (h.findDecoder s hs)
  simp only [inputStream, hdec, h.call, h.parametersToContext, bind, Except.bind, pure, Except.pure]
  by_cases ha : s.codecpar.codecType = .audio
  · rw [if_pos ha]
    exact ⟨_, rfl, ⟨_, rfl, rfl⟩, rfl⟩
  · rw [if_neg ha]
    exact ⟨_, rfl, ⟨_, rfl, by simp [h.parametersToContext]⟩, rfl⟩

theorem inputStreams_ok (h : ff.Assumed streams) :
    ∀ (i : Nat) (ss : List Stream), (∀ s ∈ ss, s ∈ streams) →
      ∃ ctxs, inputStreams ff i ss = .ok ctxs ∧ List.Forall₂ Opened ss ctxs
  | _, [], _ => ⟨[], rfl, .nil⟩
  | i, s :: ss, hmem => by
    obtain ⟨ctx, hctx, ho⟩ := inputStream_ok h i (hmem s (by simp))
    obtain ⟨ctxs, hctxs, hos⟩ := inputStreams_ok h (i + 1) ss fun t ht => hmem t (by simp [ht])
    refine ⟨ctx :: ctxs, ?_, .cons ho hos⟩
    simp only [inputStreams, hctx, hctxs, bind, Except.bind, pure, Except.pure]

theorem initInput_ok (h : ff.Assumed streams) {ap : AP} (hap : ap.streams = streams) :
    ∃ ap', initInput ff ap = .ok ap' ∧ ap'.streams = streams ∧ List.Forall₂ Opened streams ap'.streamCtx := by
  obtain ⟨ctxs, hctxs, hos⟩ := inputStreams_ok h 0 streams fun _ hs => hs
  refine ⟨{ ap with streamCtx := ctxs }, ?_, hap, hos⟩
  simp only [initInput, h.call, hap, hctxs, bind, Except.bind, pure, Except.pure]

/-! ## `init_output` -/

theorem outputStream_ok (h : ff.Assumed streams) (i : Nat) {s : Stream} {ctx : StreamContext} (ho : Opened s ctx)
    (loop : OutputLoop) :
    ∃ ctx' out loop', outputStream ff i s ctx loop = .ok (ctx', out, loop') ∧ Ready s ctx' := by
  obtain ⟨dec, hdec, -⟩ := ho.dec
  obtain ⟨encoder, henc⟩ := Option.isSome_iff_exists.mp h.findEncoder
  simp only [outputStream, hdec, henc, h.call, h.parametersToContext, bind, Except.bind, pure, Except.pure]
  by_cases ha : s.codecpar.codecType = .audio
  · rw [if_pos ha]
    exact ⟨_, _, _, rfl, ⟨_, rfl, by simp [h.parametersToContext]⟩, by simp [Stream.isAudio, ha]⟩
  · rw [if_neg ha]
    exact ⟨_, _, _, rfl, ⟨_, rfl, by simp [h.parametersToContext]⟩, by simp [Stream.isAudio, ha, ho.enc]⟩

theorem outputStreams_ok (h : ff.Assumed streams) {ss : List Stream} {ctxs : List StreamContext}
    (hos : List.Forall₂ Opened ss ctxs) (i : Nat) (loop : OutputLoop) :
    ∃ ctxs' outs loop', outputStreams ff i (ss.zip ctxs) loop = .ok (ctxs', outs, loop') ∧
      List.Forall₂ Ready ss ctxs' := by
  induction hos generalizing i loop with
  | nil => exact ⟨[], [], loop, rfl, .nil⟩
  | cons ho _ ih =>
    obtain ⟨ctx', out, loop₁, hctx, hr⟩ := outputStream_ok h i ho loop
    obtain ⟨ctxs', outs, loop₂, hctxs, hrs⟩ := ih (i + 1) loop₁
    refine ⟨ctx' :: ctxs', out :: outs, loop₂, ?_, .cons hr hrs⟩
    simp only [List.zip_cons_cons, outputStreams, hctx, hctxs, bind, Except.bind, pure, Except.pure]

theorem initOutput_ok (h : ff.Assumed streams) {ap : AP} (hap : ap.streams = streams)
    (hos : List.Forall₂ Opened streams ap.streamCtx) :
    ∃ ap', initOutput ff ap = .ok ap' ∧ ap'.streams = streams ∧ List.Forall₂ Ready streams ap'.streamCtx := by
  obtain ⟨ctxs, outs, loop, hctxs, hrs⟩ := outputStreams_ok h hos 0 { outputSampleRate := ap.outputSampleRate }
  refine ⟨{ ap with streamCtx := ctxs, outStreams := outs, outputSampleRate := loop.outputSampleRate }, ?_, hap, hrs⟩
  simp only [initOutput, h.call, hap, hctxs, bind, Except.bind, pure, Except.pure]

/-! ## `init_filters` -/

/-- A stream after `init_filters`. -/
structure Filtered (ctx : StreamContext) (fctx : FilteringContext) : Prop where
  enc : ctx.encCtx.isSome
  graph : fctx.filterGraph.isSome

/-- The layout chosen for a decoder without one leaves its type. -/
theorem layout_codecType (ff : Ffmpeg) (dec : CodecContext) :
    (if dec.channelLayout = 0 then { dec with channelLayout := ff.getDefaultChannelLayout dec.channels }
      else dec).codecType = dec.codecType := by
  split <;> rfl

theorem initFilter_ok (h : ff.Assumed streams) (i : Nat) {s : Stream} {ctx : StreamContext} (hr : Ready s ctx)
    (ha : s.isAudio) (spec : String) : ∃ ctx' fctx, initFilter ff i spec ctx = .ok (ctx', fctx) ∧ Filtered ctx' fctx := by
  obtain ⟨dec, hdec, htype⟩ := hr.dec
  obtain ⟨enc, henc⟩ := Option.isSome_iff_exists.mp (hr.enc.mpr ha)
  have hsource := (h.createSource _).mpr ((layout_codecType ff dec).trans (htype.trans ha))
  simp only [initFilter, hdec, henc, h.call, hsource, bind, Except.bind, pure, Except.pure]
  exact ⟨_, _, rfl, rfl, rfl⟩

theorem initFilter_throws (h : ff.Assumed streams) (i : Nat) {s : Stream} {ctx : StreamContext} (hr : Ready s ctx)
    (ha : ¬ s.isAudio) (spec : String) :
    initFilter ff i spec ctx = .error (.threw "Could not create buffer source") := by
  obtain ⟨dec, hdec, htype⟩ := hr.dec
  have hsource := mt (h.createSource _).mp fun hc => ha (htype.symm.trans ((layout_codecType ff dec).symm.trans hc))
  simp only [initFilter, hdec, h.call, hsource, bind, Except.bind]
  rfl

theorem filterStreams_ok (h : ff.Assumed streams) {ss : List Stream} {ctxs : List StreamContext}
    (hrs : List.Forall₂ Ready ss ctxs) (ha : ∀ s ∈ ss, s.isAudio) (i : Nat) :
    ∃ ctxs' fctxs, filterStreams ff i ctxs = .ok (ctxs', fctxs) ∧ ctxs'.length = ss.length ∧
      List.Forall₂ Filtered ctxs' fctxs := by
  induction hrs generalizing i with
  | nil => exact ⟨[], [], rfl, rfl, .nil⟩
  | cons hr _ ih =>
    obtain ⟨ctx', fctx, hctx, hf⟩ := initFilter_ok h i hr (ha _ (by simp)) "anull"
    obtain ⟨ctxs', fctxs, hctxs, hlen, hfs⟩ := ih (fun s hs => ha s (by simp [hs])) (i + 1)
    refine ⟨ctx' :: ctxs', fctx :: fctxs, ?_, by simp [hlen], .cons hf hfs⟩
    simp only [filterStreams, hctx, hctxs, bind, Except.bind, pure, Except.pure]

/-- At the first stream that is not audio. -/
theorem filterStreams_throws (h : ff.Assumed streams) {ss : List Stream} {ctxs : List StreamContext}
    (hrs : List.Forall₂ Ready ss ctxs) (ha : ¬ ∀ s ∈ ss, s.isAudio) (i : Nat) :
    filterStreams ff i ctxs = .error (.threw "Could not create buffer source") := by
  induction hrs generalizing i with
  | nil => simp at ha
  | @cons s ctx ss ctxs hr _ ih =>
    by_cases hs : s.isAudio
    · obtain ⟨ctx', fctx, hctx, -⟩ := initFilter_ok h i hr hs "anull"
      have hrest : ¬ ∀ t ∈ ss, t.isAudio := by simpa [hs] using ha
      simp only [filterStreams, hctx, ih hrest (i + 1), bind, Except.bind]
    · simp only [filterStreams, initFilter_throws h i hr hs, bind, Except.bind]

end

/-! ## The three calls -/

/-- Setting up ends without a throw and without touching a null context,
and afterwards the streams with an encoder, and those with a filter graph,
are the audio streams. -/
def SetsUp (ff : Ffmpeg) (ap : AP) : Prop :=
  ∃ ap', setUp ff ap = .ok ap' ∧ ap'.streams = ap.streams ∧
    ∀ i : Fin ap'.streams.length,
      (ap'.hasEncoder i = true ↔ ap'.streams[i].isAudio) ∧ (ap'.graph i = true ↔ ap'.streams[i].isAudio)

theorem setUp_throws {ff : Ffmpeg} {ap : AP} (h : ff.Assumed ap.streams) (ha : ¬ ∀ s ∈ ap.streams, s.isAudio) :
    setUp ff ap = .error (.threw "Could not create buffer source") := by
  obtain ⟨ap₁, hin, hs₁, hos⟩ := initInput_ok h rfl
  obtain ⟨ap₂, hout, hs₂, hrs⟩ := initOutput_ok h hs₁ hos
  simp only [setUp, hin, hout, initFilters, h.call, filterStreams_throws h hrs ha, bind, Except.bind]

theorem setUp_ok {ff : Ffmpeg} {ap : AP} (h : ff.Assumed ap.streams) (ha : ∀ s ∈ ap.streams, s.isAudio) :
    SetsUp ff ap := by
  obtain ⟨ap₁, hin, hs₁, hos⟩ := initInput_ok h rfl
  obtain ⟨ap₂, hout, hs₂, hrs⟩ := initOutput_ok h hs₁ hos
  obtain ⟨ctxs, fctxs, hfilters, hlen, hfs⟩ := filterStreams_ok h hrs ha 0
  refine ⟨{ ap₂ with streamCtx := ctxs, filterCtx := fctxs }, ?_, hs₂, ?_⟩
  · simp only [setUp, hin, hout, initFilters, h.call, hfilters, bind, Except.bind, pure, Except.pure]
  · intro i
    have hi : i.val < ctxs.length := by
      rw [hlen, ← hs₂]
      exact i.isLt
    have hi' : i.val < fctxs.length := hfs.length_eq ▸ hi
    have haudio : ap₂.streams[i].isAudio := ha _ (hs₂ ▸ List.getElem_mem _)
    obtain ⟨henc, hgraph⟩ := List.forall₂_iff_get.mp hfs |>.2 i.val hi hi'
    constructor
    · simp only [AP.hasEncoder, List.getElem?_eq_getElem hi]
      exact iff_of_true henc haudio
    · simp only [AP.graph, List.getElem?_eq_getElem hi']
      exact iff_of_true hgraph haudio

/-- **What can be set up.** With supported codecs and FFmpeg doing its part,
setting up does what it should if and only if every stream is audio. -/
theorem setup_iff (ff : Ffmpeg) (ap : AP) (h : ff.Assumed ap.streams) :
    SetsUp ff ap ↔ ∀ s ∈ ap.streams, s.isAudio := by
  refine ⟨fun ⟨ap', hap', _⟩ => ?_, setUp_ok h⟩
  by_contra ha
  rw [setUp_throws h ha] at hap'
  cases hap'

/-- FFmpeg with one codec, doing its part. -/
def Ffmpeg.working : Ffmpeg where
  succeeds _ := true
  findDecoder id := some { id, type := .audio, sampleFmt := 3 }
  findEncoder := some { id := 65557, type := .audio, sampleFmt := 3 }
  createSource ctx := decide (ctx.codecType = .audio)
  allocContext3
    | none => { codecType := .unknown }
    | some c => { codecType := c.type, codecId := c.id }
  parametersToContext ctx par :=
    if par.codecType = .audio then
      { ctx with
        codecType := par.codecType, codecId := par.codecId, sampleFmt := par.format, sampleRate := par.sampleRate
        channelLayout := par.channelLayout, channels := par.channels }
    else { ctx with codecType := par.codecType, codecId := par.codecId }
  parametersFromContext ctx :=
    { codecType := ctx.codecType, codecId := ctx.codecId, format := ctx.sampleFmt, sampleRate := ctx.sampleRate
      channelLayout := ctx.channelLayout, channels := ctx.channels }
  getDefaultChannelLayout channels := 2 ^ channels.toNat - 1
  getChannelLayoutNbChannels layout := (List.range 64).countP fun k => layout.testBit k
  globalHeader := false

theorem Ffmpeg.working_assumed (streams : List Stream) : Ffmpeg.working.Assumed streams where
  succeeds _ := rfl
  findDecoder _ _ := rfl
  findEncoder := rfl
  createSource ctx := by simp [Ffmpeg.working]
  parametersToContext ctx par := by
    simp only [Ffmpeg.working]
    split <;> rfl

def stereo : Stream := { codecpar := ⟨.audio, 86017, 8, 44100, 3, 2⟩, timeBase := (1, 14112000) }

/-- A picture in the file, such as a cover. -/
def cover : Stream := { codecpar := ⟨.video, 7, 12, 0, 0, 0⟩, timeBase := (1, 90000) }

theorem setup_iff_stereo : SetsUp .working { streams := [stereo, stereo], outputSampleRate := 0 } :=
  (setup_iff .working { streams := [stereo, stereo], outputSampleRate := 0 } (Ffmpeg.working_assumed _)).mpr (by
    simp [Stream.isAudio, stereo])

/-- A song with a cover. -/
theorem setup_throws_at_cover :
    setUp .working { streams := [stereo, cover], outputSampleRate := 0 } =
        .error (.threw "Could not create buffer source") ∧
      ¬ SetsUp .working { streams := [stereo, cover], outputSampleRate := 0 } := by
  have hthrows : setUp .working { streams := [stereo, cover], outputSampleRate := 0 } =
      .error (.threw "Could not create buffer source") :=
    setUp_throws (Ffmpeg.working_assumed _) (by simp [Stream.isAudio, stereo, cover])
  refine ⟨hthrows, fun ⟨ap', hap', _⟩ => ?_⟩
  rw [hthrows] at hap'
  cases hap'

end AudioToolApi.Audio.Setup
