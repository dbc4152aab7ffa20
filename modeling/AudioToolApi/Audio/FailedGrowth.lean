/-
`write_packet` when `malloc` fails.

A turn of the growth loop copies the old block into the new one and gives
the old one up before it looks at what `malloc` returned. So the
`AVERROR(ENOMEM)` it means to return is never reached: the copy has gone
through a null pointer by then (`Holds.grow_null`). A call does what it
should exactly when the buffer was allocated in the first place and every
`malloc` of the call succeeds (`failed_growth_iff`).
-/
import AudioToolApi.Audio.OutputBufferFacts

namespace AudioToolApi.Audio

/-- The states `write_packet` leads to from `init_output`, each with the
packets that led there. -/
inductive Wrote (a : Allocator) : List Packet → State → Prop
  | init : Wrote a [] (initOutput a)
  | write {ps s p fuel ret s'} : Wrote a ps s → writePacket a fuel p s = some (.ok (ret, s')) →
      Wrote a (ps ++ [p]) s'

/-- `buf`, `size`, `ptr` and `room` agree: `room` is what is left of the
block after `ptr`. -/
structure Agree (bd : OutputBufferData) : Prop where
  block : ∃ b, bd.buf = some b ∧ b.bytes.length = bd.size ∧ bd.ptr + bd.room = b.addr + b.bytes.length
  room : bd.room ≤ bd.size

/-- The call comes back without an undefined copy, either with the packet
appended or with `AVERROR(ENOMEM)` and the output as it was, and leaves the
buffer's fields in agreement. -/
def AppendsOrKeeps (a : Allocator) (p : Packet) (s : State) : Prop :=
  ∃ fuel ret s' content, writePacket a fuel p s = some (.ok (ret, s')) ∧ Agree s'.bd ∧
    getOutputContent s.bd = .ok content ∧
    ((ret = 0 ∧ getOutputContent s'.bd = .ok (content ++ p.data)) ∨
      (ret = enomem ∧ getOutputContent s'.bd = .ok content))

/-- No `malloc` fails on the way to a buffer with room for `n` more bytes:
wherever `2 ^ i` times the size is still too little, there is a block of
twice that. -/
def Allocator.Supplies (a : Allocator) (n : Nat) (s : State) : Prop :=
  ∀ i, s.bd.size * 2 ^ i < s.bd.size - s.bd.room + n →
    (a.malloc (s.mallocs + i) (2 * (s.bd.size * 2 ^ i))).isSome

/-- No block is larger than `PTRDIFF_MAX`. -/
def Allocator.Bounded (a : Allocator) : Prop := ∀ k n b, a.malloc k n = some b → n < 2 ^ 63

section
variable {a : Allocator} {s : State} {written : Bytes} {n : Nat}

/-- More fuel changes nothing once the loop has ended. -/
theorem growLoop_mono {f : Nat} {r} (h : growLoop a n f s = some r) : ∀ g, growLoop a n (f + g) s = some r := by
  intro g
  induction f generalizing s with
  | zero => simp [growLoop] at h
  | succ f ih =>
    rw [show f + 1 + g = f + g + 1 by omega]
    unfold growLoop at h ⊢
    split at h
    · rename_i hn
      rw [if_pos hn]
      exact h
    · rename_i hn
      rw [if_neg hn]
      split at h
      · exact h
      · exact h
      · exact ih h

theorem writePacket_mono {f : Nat} {p : Packet} {r} (h : writePacket a f p s = some r) (g : Nat) :
    writePacket a (f + g) p s = some r := by
  obtain ⟨e, he, hr⟩ := Option.map_eq_some_iff.mp h
  unfold writePacket
  rw [growLoop_mono he, Option.map_some, hr]

theorem Holds.agree (h : Holds s written) : Agree s.bd := by
  obtain ⟨b, hb, hl, hp, -⟩ := h.block
  have hroom := h.room
  exact ⟨⟨b, hb, hl, by omega⟩, by omega⟩

theorem Holds.supplies_iff (hmax : a.Bounded) (h : Holds s written) :
    a.Supplies n s ↔ a.Serves n s written.length := by
  have hwritten : s.bd.size - s.bd.room = written.length := by
    have := h.room
    omega
  unfold Allocator.Supplies
  rw [hwritten]
  constructor
  · intro hs i hi
    obtain ⟨b, hb⟩ := Option.isSome_iff_exists.mp (hs i hi)
    have := hmax _ _ _ hb
    exact ⟨hs i hi, by omega⟩
  · intro hs i hi
    exact (hs i hi).1

/-- The copy goes through the null pointer before it is looked at. -/
theorem Holds.grow_null (h : Holds s written) (ha : a.malloc s.mallocs (2 * s.bd.size) = none) :
    Audio.grow a s = .error .nullPointer := by
  obtain ⟨b, hb, hl, -, -⟩ := h.block
  have hleast := h.least
  have hmost := h.most
  have hn : sizeT (2 * (s.bd.size : Int)) = 2 * s.bd.size := by
    unfold sizeT
    omega
  have hread : readBlock (some b) s.bd.size = .ok b.bytes := by
    unfold readBlock
    simp [← hl]
  have hcopy : memcpy none 0 b.bytes = .error .nullPointer := by
    unfold memcpy
    have hne : b.bytes ≠ [] := by
      intro hnil
      rw [hnil, List.length_nil] at hl
      unfold outputBufferSize at hleast
      omega
    simp [hne]
  simp only [Audio.grow, hn, ha, hb, hread, addrOf, Option.map_none, Option.getD_none, bind, Except.bind, hcopy]

/-- If one of the loop's `malloc`s fails, the loop ends in that copy. -/
theorem Holds.growLoop_null (hmax : a.Bounded) : ∀ {f : Nat} {s : State}, Holds s written →
    ¬ a.Serves n s written.length →
    Audio.growLoop a n f s = none ∨ Audio.growLoop a n f s = some (.error .nullPointer)
  | 0, _, _, _ => .inl rfl
  | f + 1, s, h, ha => by
    have hroom := h.room
    have hn : ¬ n ≤ s.bd.room := by
      intro hn
      refine ha fun i hi => ?_
      have : s.bd.size ≤ s.bd.size * 2 ^ i := Nat.le_mul_of_pos_right _ (Nat.two_pow_pos i)
      omega
    rw [Audio.growLoop, if_neg hn]
    cases hmalloc : a.malloc s.mallocs (2 * s.bd.size) with
    | none =>
      rw [h.grow_null hmalloc]
      exact .inr rfl
    | some b =>
      have hsmall := hmax _ _ _ hmalloc
      have hserved : (a.malloc s.mallocs (2 * s.bd.size)).isSome := by simp [hmalloc]
      obtain ⟨s₁, hg, h₁, hsize, hmallocs⟩ := h.grow hserved (by omega)
      rw [hg]
      refine Holds.growLoop_null hmax h₁ fun ha₁ => ha ?_
      -- the first turn is served, and so would be all the later ones
      intro i hi
      cases i with
      | zero =>
        simp only [Nat.pow_zero, Nat.mul_one, Nat.add_zero]
        exact ⟨hserved, by omega⟩
      | succ i =>
        have hpow : s.bd.size * 2 ^ (i + 1) = s₁.bd.size * 2 ^ i := by
          rw [hsize]
          ring
        rw [hpow] at hi ⊢
        rw [show s.mallocs + (i + 1) = s₁.mallocs + i by omega]
        exact ha₁ i hi

/-- A call on an allocated buffer. -/
theorem Holds.appendsOrKeeps_iff (hmax : a.Bounded) (h : Holds s written) (p : Packet) :
    AppendsOrKeeps a p s ↔ a.Supplies p.data.length s := by
  rw [h.supplies_iff hmax]
  constructor
  · rintro ⟨fuel, ret, s', content, hw, -⟩
    by_contra ha
    rcases h.growLoop_null hmax (f := fuel) ha with hl | hl <;> simp [Audio.writePacket, hl] at hw
  · intro ha
    obtain ⟨s', hw, h'⟩ := h.writePacket ha (Nat.le_refl 64)
    exact ⟨64, 0, s', written, hw, h'.agree, h.content, .inl ⟨rfl, h'.content⟩⟩

/-- A call that comes back has appended its packet. -/
theorem Holds.of_writePacket (hmax : a.Bounded) (h : Holds s written) {p : Packet} {fuel : Nat} {ret : Int}
    {s' : State} (hw : Audio.writePacket a fuel p s = some (.ok (ret, s'))) : Holds s' (written ++ p.data) := by
  by_cases ha : a.Serves p.data.length s written.length
  · obtain ⟨s₁, hw₁, h₁⟩ := h.writePacket ha (Nat.le_refl 64)
    have hsame := writePacket_mono hw 64
    rw [Nat.add_comm, writePacket_mono hw₁ fuel] at hsame
    simp only [Option.some.injEq, Except.ok.injEq, Prod.mk.injEq] at hsame
    rw [← hsame.2]
    exact h₁
  · rcases h.growLoop_null hmax (f := fuel) ha with hl | hl <;> simp [Audio.writePacket, hl] at hw

/-- `init_output` without its buffer, which it goes on with: until a call
has something to write, nothing shows. -/
structure Unallocated (s : State) : Prop where
  buf : s.bd.buf = none
  size : s.bd.size = outputBufferSize
  room : s.bd.room = outputBufferSize

theorem Unallocated.init (ha : a.malloc 0 outputBufferSize = none) : Unallocated (initOutput a) :=
  ⟨ha, rfl, rfl⟩

theorem Unallocated.grow (h : Unallocated s) : Audio.grow a s = .error .nullPointer := by
  have hread : readBlock s.bd.buf s.bd.size = .error .nullPointer := by
    simp [readBlock, h.buf, h.size, outputBufferSize]
  simp only [Audio.grow, hread, bind, Except.bind]

/-- Only an empty packet comes back from there. -/
theorem Unallocated.of_writePacket (h : Unallocated s) {p : Packet} {fuel : Nat} {ret : Int} {s' : State}
    (hw : Audio.writePacket a fuel p s = some (.ok (ret, s'))) : Unallocated s' := by
  cases fuel with
  | zero => simp [Audio.writePacket, Audio.growLoop] at hw
  | succ fuel =>
    by_cases hn : p.data.length ≤ s.bd.room
    · have hloop : Audio.growLoop a p.data.length (fuel + 1) s = some (.ok (.inl s)) := by
        simp [Audio.growLoop, hn]
      simp only [Audio.writePacket, hloop, Option.map_some, Option.some.injEq] at hw
      by_cases hp : p.data = []
      · simp only [Audio.append, hp, h.buf, memcpy, List.take_nil, if_true, bind, Except.bind, pure, Except.pure,
          Except.map, Except.ok.injEq, Prod.mk.injEq] at hw
        obtain ⟨-, rfl⟩ := hw
        have hmin : Binary64.fmin 0 s.bd.size = 0 := by
          rw [Binary64.fmin_eq_min (by omega)]
          omega
        refine ⟨rfl, h.size, ?_⟩
        simp [hmin, h.room, sizeT, outputBufferSize]
      · have hfull : Binary64.fmin p.data.length s.bd.size = p.data.length := by
          have := p.int_length
          have := h.size
          have := h.room
          rw [Binary64.fmin_eq_min (by omega)]
          omega
        simp [Audio.append, hfull, h.buf, memcpy, hp, bind, Except.bind, Except.map] at hw
    · simp [Audio.writePacket, Audio.growLoop, hn, h.grow] at hw

end

/-- The states reached: all that was sent has been written, or the buffer
was never there. -/
theorem Wrote.holds {a : Allocator} (hmax : a.Bounded) {ps : List Packet} {s : State} (h : Wrote a ps s) :
    Holds s (ps.map Packet.data).flatten ∨ Unallocated s := by
  induction h with
  | init =>
    cases ha : a.malloc 0 outputBufferSize with
    | none => exact .inr (.init ha)
    | some b => exact .inl (.init (by simp [ha]))
  | write _ hw ih =>
    rcases ih with ih | ih
    · left
      simpa using ih.of_writePacket hmax hw
    · exact .inr (ih.of_writePacket hw)

/-- **When a failed growth loses nothing.** In every state `write_packet`
leads to, the output is what has been written so far if the buffer was ever
allocated; and the next call appends its packet or keeps the output if and
only if the buffer is there and no `malloc` of its growth loop fails. -/
theorem failed_growth_iff (a : Allocator) (hmax : a.Bounded) (ps : List Packet) (s : State) (hs : Wrote a ps s) :
    (s.bd.buf.isSome → Agree s.bd ∧ getOutputContent s.bd = .ok (ps.map Packet.data).flatten) ∧
      ∀ p, AppendsOrKeeps a p s ↔ s.bd.buf.isSome ∧ a.Supplies p.data.length s := by
  rcases hs.holds hmax with h | h
  · obtain ⟨b, hb, -⟩ := h.block
    refine ⟨fun _ => ⟨h.agree, h.content⟩, fun p => ?_⟩
    rw [h.appendsOrKeeps_iff hmax p]
    simp [hb]
  · refine ⟨fun hbuf => ?_, fun p => ⟨?_, ?_⟩⟩
    · simp [h.buf] at hbuf
    · rintro ⟨fuel, ret, s', content, hw, hagree, -⟩
      obtain ⟨b, hb, -⟩ := hagree.block
      simp [(h.of_writePacket hw).buf] at hb
    · rintro ⟨hbuf, -⟩
      simp [h.buf] at hbuf

/-- An allocator with memory for so many calls, of at most `PTRDIFF_MAX`. -/
def Allocator.serving (calls : Nat) : Allocator where
  malloc k n := if k < calls ∧ n < 2 ^ 63 then Allocator.zeroed.malloc k n else none
  length_eq := by
    intro k n b h
    split at h
    · exact Allocator.zeroed.length_eq h
    · cases h

theorem Allocator.serving_bounded (calls : Nat) : (Allocator.serving calls).Bounded := by
  intro k n b h
  simp only [Allocator.serving] at h
  split at h
  · rename_i hk
    exact hk.2
  · cases h

/-- A packet one byte too long for the first block. -/
def longPacket : Packet := ⟨List.replicate 1025 7, by rw [List.length_replicate]; omega⟩

theorem longPacket_length : longPacket.data.length = 1025 := List.length_replicate

theorem failed_growth_iff_two_blocks :
    AppendsOrKeeps (.serving 2) longPacket (initOutput (.serving 2)) := by
  refine ((failed_growth_iff (.serving 2) (Allocator.serving_bounded 2) [] _ .init).2 longPacket).mpr ⟨rfl, ?_⟩
  rw [longPacket_length]
  intro i hi
  cases i with
  | zero => rfl
  | succ i =>
    -- twice the first block is enough
    have hpow : 1024 * 2 ^ (i + 1) < 1024 - 1024 + 1025 := hi
    have := Nat.two_pow_pos i
    omega

/-- With no second block: the loop copies through a null pointer, and the
call neither appends nor keeps. -/
theorem failed_growth_copies_through_null :
    Wrote (.serving 1) [] (initOutput (.serving 1)) ∧
      writePacket (.serving 1) 64 longPacket (initOutput (.serving 1)) = some (.error .nullPointer) ∧
      ¬ AppendsOrKeeps (.serving 1) longPacket (initOutput (.serving 1)) := by
  have h : Holds (initOutput (.serving 1)) [] := .init rfl
  have hgrow : grow (.serving 1) (initOutput (.serving 1)) = .error .nullPointer := h.grow_null rfl
  refine ⟨.init, ?_, ?_⟩
  · rw [writePacket, longPacket_length, growLoop, hgrow]
    rfl
  · rw [h.appendsOrKeeps_iff (Allocator.serving_bounded 1), longPacket_length]
    intro hs
    exact absurd (hs 0 (by decide)) (by decide)

end AudioToolApi.Audio
