/-
The input buffer FFmpeg reads from: `input_buffer_data`,
`set_input_content` and `read_packet` (audio/audio_processor.cpp; the text
in audio/processor.cpp is the same, for `AudioProcessor`).

`read_packet` keeps where it is twice, as a pointer and as the count of
bytes left. `At` says they agree; `demuxer_sees_input` is what any sequence
of requests is given.
-/
import AudioToolApi.Audio.OutputBuffer
import AudioToolApi.Lib.Chunks

namespace AudioToolApi.Audio

/-- `input_buffer_data`. -/
structure InputBufferData where
  ptr : Int
  size : Nat
  deriving DecidableEq, Repr

/-- The members of `AP` that the input goes through. -/
structure InputSide where
  inputBuffer : Int
  inputBufferSize : Nat
  ibd : InputBufferData

/-- The memory `set_input_content` is pointed at; its length is a `size_t`. -/
structure Input where
  block : Block
  size_t_length : block.bytes.length < 2 ^ 64

/-- The size FFmpeg asks for, a positive `int`. -/
structure Request where
  bufSize : Nat
  pos : 0 < bufSize
  int_size : bufSize < 2 ^ 31

/-- What C does not define: a read outside the input, or a `double` that no
`int` can hold stored into one. -/
inductive ReadFault | outOfBounds | notAnInt
  deriving DecidableEq, Repr

/-- `AVERROR_EOF`. -/
def averrorEof : Int := -541478725

def setInputContent (data : Int) (size : Nat) (ap : InputSide) : InputSide :=
  { ap with inputBuffer := data, inputBufferSize := size }

/-- What `init_input` does with them. -/
def initInput (ap : InputSide) : InputSide :=
  { ap with ibd := { ptr := ap.inputBuffer, size := ap.inputBufferSize } }

/-- A `double` that is a natural number, stored into an `int`. -/
def storeInt (x : Nat) : Except ReadFault Nat :=
  if x < 2 ^ 31 then .ok x else .error .notAnInt

/-- `memcpy(buf, ptr, n)`: the bytes it reads. -/
def readAt (mem : Block) (ptr : Int) (n : Nat) : Except ReadFault Bytes :=
  if mem.addr ≤ ptr ∧ ptr + n ≤ mem.addr + mem.bytes.length then
    .ok ((mem.bytes.drop (ptr - mem.addr).toNat).take n)
  else .error .outOfBounds

/-- What a call of `read_packet` gives back: its return value, and what it
has put into `buf`. -/
structure Answer where
  ret : Int
  copied : Bytes
  deriving DecidableEq, Repr

def readPacket (mem : Block) (bufSize : Nat) (bd : InputBufferData) : Except ReadFault (Answer × InputBufferData) := do
  let n ← storeInt (Binary64.fmin bufSize bd.size)
  if n = 0 then return (⟨averrorEof, []⟩, bd)
  let copied ← readAt mem bd.ptr n
  return (⟨n, copied⟩, { ptr := bd.ptr + n, size := sizeT (bd.size - n) })

/-- One call after another. -/
def readPackets (mem : Block) : List Request → InputBufferData → Except ReadFault (List Answer × InputBufferData)
  | [], bd => .ok ([], bd)
  | r :: rs, bd => do
    let (a, bd) ← readPacket mem r.bufSize bd
    let (as, bd) ← readPackets mem rs bd
    return (a :: as, bd)

/-- `ibd` once `set_input_content` and `init_input` have been called. -/
def Input.opened (input : Input) (ap : InputSide) : InputBufferData :=
  (initInput (setInputContent input.block.addr input.block.bytes.length ap)).ibd

/-- The bytes the calls have delivered. -/
def delivered (as : List Answer) : Bytes := (as.map Answer.copied).flatten

/-- Some call has returned `AVERROR_EOF`. -/
def ReachesEof (as : List Answer) : Prop := ∃ a ∈ as, a.ret = averrorEof

/-- `k` bytes of the input have been read. -/
structure At (mem : Block) (k : Nat) (bd : InputBufferData) : Prop where
  ptr : bd.ptr = mem.addr + k
  size : bd.size = mem.bytes.length - k
  le : k ≤ mem.bytes.length

/-- What `read_packet` answers when `k` bytes of the input have been read. -/
def answer (mem : Block) (k bufSize : Nat) : Answer :=
  let chunk := (mem.bytes.drop k).take bufSize
  ⟨if chunk = [] then averrorEof else chunk.length, chunk⟩

theorem At.opened (input : Input) (ap : InputSide) : At input.block 0 (input.opened ap) :=
  ⟨by simp [Input.opened, initInput, setInputContent], rfl, Nat.zero_le _⟩

/-- One call: the next chunk, and the pointer and the count still agree. -/
theorem At.readPacket {mem : Block} (hmem : mem.bytes.length < 2 ^ 64) {k : Nat} {bd : InputBufferData}
    (h : At mem k bd) (r : Request) :
    ∃ bd', readPacket mem r.bufSize bd = .ok (answer mem k r.bufSize, bd') ∧
      At mem (min (k + r.bufSize) mem.bytes.length) bd' := by
  have hpos := r.pos
  have hint := r.int_size
  have hsize := h.size
  have hptr := h.ptr
  have hle := h.le
  have hmin : Binary64.fmin r.bufSize bd.size = min r.bufSize bd.size := Binary64.fmin_eq_min (by omega)
  have hstore : storeInt (min r.bufSize bd.size) = .ok (min r.bufSize bd.size) := by
    unfold storeInt
    rw [if_pos (by omega)]
  by_cases hend : k = mem.bytes.length
  · have hzero : min r.bufSize bd.size = 0 := by omega
    refine ⟨bd, ?_, ?_⟩
    · simp [Audio.readPacket, hmin, hzero, storeInt, answer, hend, bind, Except.bind, pure, Except.pure]
    · rw [show min (k + r.bufSize) mem.bytes.length = k by omega]
      exact h
  · have hne : ¬ min r.bufSize bd.size = 0 := by omega
    have hread : readAt mem bd.ptr (min r.bufSize bd.size) = .ok ((mem.bytes.drop k).take r.bufSize) := by
      unfold readAt
      rw [if_pos (by omega), show (bd.ptr - mem.addr).toNat = k by omega, hsize,
        ← List.length_drop, ← List.take_eq_take_min]
    have hlen : ((mem.bytes.drop k).take r.bufSize).length = min r.bufSize bd.size := by
      rw [List.length_take, List.length_drop, hsize]
    have hchunk : (mem.bytes.drop k).take r.bufSize ≠ [] := by
      intro hnil
      rw [hnil, List.length_nil] at hlen
      omega
    refine ⟨⟨bd.ptr + (min r.bufSize bd.size : Nat), sizeT (bd.size - (min r.bufSize bd.size : Nat))⟩, ?_, ?_, ?_, ?_⟩
    · simp only [Audio.readPacket, hmin, hstore, if_neg hne, hread, answer, if_neg hchunk, hlen, bind, Except.bind,
        pure, Except.pure]
    · simp only
      omega
    · simp only [sizeT]
      omega
    · omega

/-- Any sequence of calls gets the input in chunks. -/
theorem At.readPackets {mem : Block} (hmem : mem.bytes.length < 2 ^ 64) :
    ∀ (rs : List Request) {k : Nat} {bd : InputBufferData}, At mem k bd →
      ∃ as bd', readPackets mem rs bd = .ok (as, bd') ∧
        as.map Answer.copied = Chunks.read (mem.bytes.drop k) (rs.map Request.bufSize) ∧
        ∀ a ∈ as, a.ret = if a.copied = [] then averrorEof else a.copied.length
  | [], k, bd, _ => ⟨[], bd, rfl, rfl, by simp⟩
  | r :: rs, k, bd, h => by
    obtain ⟨bd₁, hread, h₁⟩ := h.readPacket hmem r
    obtain ⟨as, bd₂, hreads, hchunks, hrets⟩ := At.readPackets hmem rs h₁
    refine ⟨answer mem k r.bufSize :: as, bd₂, ?_, ?_, ?_⟩
    · simp only [Audio.readPackets, hread, hreads, bind, Except.bind, pure, Except.pure]
    · have hdrop : mem.bytes.drop (min (k + r.bufSize) mem.bytes.length) = (mem.bytes.drop k).drop r.bufSize := by
        rw [List.drop_drop, ← List.drop_eq_drop_min]
      rw [List.map_cons, hchunks, hdrop]
      rfl
    · intro a ha
      rcases List.mem_cons.mp ha with rfl | ha
      · rfl
      · exact hrets a ha

theorem delivered_eq {mem : Block} {as : List Answer} {rs : List Request}
    (h : as.map Answer.copied = Chunks.read mem.bytes (rs.map Request.bufSize)) :
    delivered as = mem.bytes.take (rs.map Request.bufSize).sum := by
  unfold delivered
  rw [h, Chunks.flatten_read]

/-- After an `AVERROR_EOF` the whole input has been delivered. -/
theorem delivered_of_eof {mem : Block} {as : List Answer} {rs : List Request}
    (h : as.map Answer.copied = Chunks.read mem.bytes (rs.map Request.bufSize))
    (hrets : ∀ a ∈ as, a.ret = if a.copied = [] then averrorEof else a.copied.length) (heof : ReachesEof as) :
    delivered as = mem.bytes := by
  obtain ⟨a, ha, hret⟩ := heof
  have hnil : a.copied = [] := by
    by_contra hne
    have := hrets a ha
    rw [if_neg hne, hret] at this
    unfold averrorEof at this
    omega
  unfold delivered
  rw [h]
  refine Chunks.flatten_read_of_nil ?_ ?_
  · intro n hn
    obtain ⟨r, -, rfl⟩ := List.mem_map.mp hn
    exact r.pos
  · rw [← h, ← hnil]
    exact List.mem_map_of_mem ha

/-- What a call returns, by what is left for it. -/
theorem call_returns {mem : Block} {as : List Answer} {rs : List Request}
    (h : as.map Answer.copied = Chunks.read mem.bytes (rs.map Request.bufSize))
    (hrets : ∀ a ∈ as, a.ret = if a.copied = [] then averrorEof else a.copied.length) {k : Nat} {r : Request} {a : Answer}
    (hr : rs[k]? = some r) (ha : as[k]? = some a) :
    let left := mem.bytes.length - (delivered (as.take k)).length
    if 0 < left then a.ret = (min r.bufSize left : Nat) ∧ 0 < a.ret ∧ a.copied.length = a.ret
    else a.ret = averrorEof ∧ a.copied = [] := by
  -- what the first `k` calls have delivered, and the chunk of call `k`
  have hsofar : delivered (as.take k) = mem.bytes.take ((rs.take k).map Request.bufSize).sum := by
    refine delivered_eq ?_
    rw [List.map_take, h, Chunks.read_take, List.map_take]
  have hcopied : a.copied = (mem.bytes.drop ((rs.take k).map Request.bufSize).sum).take r.bufSize := by
    have hk := congrArg (fun l => l[k]?) h
    simp only [List.getElem?_map, ha, Chunks.getElem?_read, hr, Option.map_some, Option.some.injEq] at hk
    rw [hk, List.map_take]
  have hret := hrets a (List.mem_of_getElem? ha)
  have hlen := congrArg List.length hcopied
  have hpos := r.pos
  simp only [List.length_take, List.length_drop] at hlen
  rw [hsofar, List.length_take]
  intro left
  split
  · have hne : a.copied ≠ [] := by
      intro hnil
      rw [hnil, List.length_nil] at hlen
      omega
    rw [if_neg hne] at hret
    omega
  · have hnil : a.copied = [] := List.eq_nil_of_length_eq_zero (by omega)
    rw [if_pos hnil] at hret
    exact ⟨hret, hnil⟩

/-- **The demuxer sees exactly the uploaded bytes.** Whatever sizes it asks
for, no read leaves the input, what it gets is a prefix of the input, each
call returns the smaller of the request and what is left until nothing is,
and `AVERROR_EOF` from then on; two sequences that reach that deliver the
same bytes. -/
theorem demuxer_sees_input (input : Input) (ap : InputSide) (rs : List Request) :
    ∃ as bd, readPackets input.block rs (input.opened ap) = .ok (as, bd) ∧
      as.length = rs.length ∧
      delivered as <+: input.block.bytes ∧
      (∀ k r a, rs[k]? = some r → as[k]? = some a →
        let left := input.block.bytes.length - (delivered (as.take k)).length
        if 0 < left then a.ret = (min r.bufSize left : Nat) ∧ 0 < a.ret ∧ a.copied.length = a.ret
        else a.ret = averrorEof ∧ a.copied = []) ∧
      ∀ rs' as' bd', readPackets input.block rs' (input.opened ap) = .ok (as', bd') →
        ReachesEof as → ReachesEof as' → delivered as = delivered as' := by
  obtain ⟨as, bd, hread, hchunks, hrets⟩ := (At.opened input ap).readPackets input.size_t_length rs
  rw [List.drop_zero] at hchunks
  refine ⟨as, bd, hread, ?_, ?_, ?_, ?_⟩
  · simpa using congrArg List.length hchunks
  · rw [delivered_eq hchunks]
    exact List.take_prefix _ _
  · exact fun k r a hr ha => call_returns hchunks hrets hr ha
  · intro rs' as' bd' hread' heof heof'
    obtain ⟨_, _, hread'', hchunks', hrets'⟩ := (At.opened input ap).readPackets input.size_t_length rs'
    rw [hread', Except.ok.injEq, Prod.mk.injEq] at hread''
    obtain ⟨rfl, rfl⟩ := hread''
    rw [List.drop_zero] at hchunks'
    rw [delivered_of_eof hchunks hrets heof, delivered_of_eof hchunks' hrets' heof']

end AudioToolApi.Audio
