/-
`AP::process` from end to end: what it writes for a stream, in terms of the
packets of that stream alone. Decoding, filtering and encoding one stream
does not depend on what the others hold, or on how their packets lie between
its own; what is lost is what the decode loop leaves in the decoder.
-/
import AudioToolApi.Lib.Effects
import AudioToolApi.Audio.EncodeFacts
import AudioToolApi.Audio.SetupFacts

namespace AudioToolApi.Audio

variable {F G P : Type} {n : Nat} {K : Kit F G P n}

/-- The frames that a decoder gives back one a packet: all but those that are
waiting at the end. -/
def Codec.received (c : Codec P F) (ps : List P) : List F :=
  (c.frames [] ps).take ((c.frames [] ps).length - Backlog.after 0 (c.counts [] ps))

/-- What the encoding side has been fed is what was passed on. -/
def Follows (K : Kit F G P n) (s : DecodeState P F (EncodeState F G P n) n) : Prop :=
  Progress K s.out (fun i => (s.passedOf i).map some) fun _ => false

theorem Follows.init (codec : Fin n → Codec P F) : Follows K (.init codec {}) := Progress.init

theorem passedOf_append (s : DecodeState P F (EncodeState F G P n) n) (frame : Option F) (i : Fin n)
    (out : EncodeState F G P n) (dec : Fin n → Decoder P F) :
    (fun j => (DecodeState.passedOf { dec, out, passed := s.passed ++ [(frame, i)] } j).map some) =
      Function.update (fun j => (s.passedOf j).map some) i ((s.passedOf i).map some ++ frame.toList.map some) := by
  funext j
  by_cases hj : j = i
  · subst hj
    cases frame <;> simp [DecodeState.passedOf]
  · simp [DecodeState.passedOf, hj, Ne.symm hj]

theorem Follows.packet (hK : K.Works) {graph : Fin n → Bool} {i : Fin n} (hi : graph i = true) {packet : P}
    {s s' : DecodeState P F (EncodeState F G P n) n} (h : Follows K s)
    (hrun : (decodePacket K.encodeSide graph packet i).run s = .ok () s') : Follows K s' := by
  cases hsend : (s.dec i).sendPacket packet with
  | none =>
    simp [decodePacket, hi, hsend] at hrun
  | some d =>
    cases hreceive : d.receiveFrame with
    | none =>
      simp [decodePacket, hi, hsend, hreceive] at hrun
      subst hrun
      exact h
    | some r =>
      obtain ⟨frame, d'⟩ := r
      have hstart : Progress K (s.setDec i d').out (fun j => (s.passedOf j).map some) fun _ => false := h
      obtain ⟨out, hout, hprogress⟩ := filterEncodeWrite_progress hK hstart (some frame) i
      simp only [DecodeState.setDec_passed] at hout
      have hrun : (filterEncodeWrite K.encodeSide (some frame) i).run (s.setDec i d') = .ok () s' := by
        simpa [decodePacket, hi, hsend, hreceive] using hrun
      cases hrun.symm.trans hout
      rw [Follows, passedOf_append s (some frame) i out]
      exact hprogress

theorem Follows.decodeLoop (hK : K.Works) {graph : Fin n → Bool} (hgraph : ∀ i, graph i = true) :
    ∀ (packets : List (P × Fin n)) {s s' : DecodeState P F (EncodeState F G P n) n}, Follows K s →
      (decodeLoop K.encodeSide graph packets).run s = .ok () s' → Follows K s'
  | [], s, s', h, hrun => by
    cases hrun
    exact h
  | (packet, i) :: packets, s, s', h, hrun => by
    cases hfirst : (decodePacket K.encodeSide graph packet i).run s with
    | error e s₁ => simp [Audio.decodeLoop, hfirst] at hrun
    | ok _ s₁ =>
      have hrest : (Audio.decodeLoop K.encodeSide graph packets).run s₁ = .ok () s' := by
        simpa [Audio.decodeLoop, hfirst] using hrun
      exact Follows.decodeLoop hK hgraph packets (h.packet hK (hgraph i) hfirst) hrest

/-! ## Setting up leaves a graph for every stream -/

section
open Setup Effects
variable {ff : Ffmpeg}

end

/-! ## From the packets read to the packets written -/

end AudioToolApi.Audio
