/-
What `write_packet` keeps: the bytes written so far stand at the start of
the block, `ptr` stands right after them and `room` is the rest of it.

While less than `2^62` bytes are written in all, the `size_t` arithmetic
never wraps, the loop ends, and `get_output_content` is the packets in
order (`output_is_packets`).
-/
import AudioToolApi.Audio.OutputBuffer

namespace AudioToolApi.Audio

/-- The buffer after `written` has been written. -/
structure Holds (s : State) (written : Bytes) : Prop where
  block : ∃ b, s.bd.buf = some b ∧ b.bytes.length = s.bd.size ∧
    s.bd.ptr = b.addr + written.length ∧ written <+: b.bytes
  room : s.bd.room + written.length = s.bd.size
  least : outputBufferSize ≤ s.bd.size
  most : s.bd.size < 2 ^ 63

theorem Holds.init {a : Allocator} (ha : (a.malloc 0 outputBufferSize).isSome) : Holds (initOutput a) [] := by
  obtain ⟨b, hb⟩ := Option.isSome_iff_exists.mp ha
  refine ⟨⟨b, ?_, ?_, ?_, List.nil_prefix⟩, rfl, Nat.le_refl _, by simp [initOutput, outputBufferSize]⟩
  · simp [initOutput, hb]
  · simp [initOutput, a.length_eq hb]
  · simp [initOutput, hb, addrOf]

/-- The offset `write_packet` computes from the two pointers. -/
theorem Holds.offset {s : State} {written : Bytes} (h : Holds s written) :
    s.bd.ptr - addrOf s.bd.buf = written.length := by
  obtain ⟨b, hb, -, hp, -⟩ := h.block
  simp only [hb, hp, addrOf, Option.map_some, Option.getD_some]
  omega

theorem Holds.content {s : State} {written : Bytes} (h : Holds s written) :
    getOutputContent s.bd = .ok written := by
  obtain ⟨b, hb, hl, -, hpre⟩ := h.block
  have hroom := h.room
  have hmost := h.most
  have hn : sizeT ((s.bd.size : Int) - s.bd.room) = written.length := by
    rw [← hroom]
    unfold sizeT
    omega
  unfold getOutputContent readBlock
  rw [hn, hb]
  simp only
  rw [if_pos (by omega), ← List.prefix_iff_eq_take.mp hpre]

/-- A turn of the loop doubles the block and keeps everything else. -/
theorem Holds.grow {a : Allocator} {s : State} {written : Bytes} (h : Holds s written)
    (ha : (a.malloc s.mallocs (2 * s.bd.size)).isSome) (hs : s.bd.size < 2 ^ 62) :
    ∃ s', grow a s = .ok (.inl s') ∧ Holds s' written ∧ s'.bd.size = 2 * s.bd.size ∧
      s'.mallocs = s.mallocs + 1 := by
  obtain ⟨b, hb, hl, hp, hpre⟩ := h.block
  have hn : sizeT (2 * (s.bd.size : Int)) = 2 * s.bd.size := by
    unfold sizeT
    omega
  obtain ⟨t, ht⟩ := Option.isSome_iff_exists.mp ha
  have htl := a.length_eq ht
  have hroom := h.room
  have hleast := h.least
  have hcopy : memcpy (some t) t.addr b.bytes =
      .ok (some { t with bytes := b.bytes ++ t.bytes.drop b.bytes.length }) := by
    unfold memcpy
    simp only
    rw [if_pos (by omega)]
    simp
  refine ⟨{ bd := { buf := some { t with bytes := b.bytes ++ t.bytes.drop b.bytes.length },
                    size := 2 * s.bd.size, ptr := t.addr + written.length,
                    room := 2 * s.bd.size - written.length }, mallocs := s.mallocs + 1 }, ?_, ?_, rfl, rfl⟩
  · have hread : readBlock (some b) s.bd.size = .ok b.bytes := by
      unfold readBlock
      simp [← hl]
    have hoff := h.offset
    simp only [Audio.grow, hn, ht, hb, hread, addrOf, Option.map_some, Option.getD_some, bind, Except.bind,
      hcopy]
    rw [hb] at hoff
    simp only [addrOf, Option.map_some, Option.getD_some] at hoff
    simp only [hoff, pure, Except.pure, Option.isNone_some, Bool.false_eq_true, if_false]
    congr 4
    unfold sizeT
    omega
  · refine ⟨⟨_, rfl, ?_, rfl, hpre.trans (List.prefix_append _ _)⟩, ?_, ?_, ?_⟩ <;>
      simp only [List.length_append, List.length_drop] <;> omega

/-- Every `malloc` the loop makes for `n` more bytes is served, and none of
the sizes it asks for wraps: turn `i` asks for `2 ^ (i + 1)` times the size. -/
def Allocator.Serves (a : Allocator) (n : Nat) (s : State) (written : Nat) : Prop :=
  ∀ i, s.bd.size * 2 ^ i < written + n →
    (a.malloc (s.mallocs + i) (2 * (s.bd.size * 2 ^ i))).isSome ∧ s.bd.size * 2 ^ i < 2 ^ 62

/-- What is left to serve after a turn. -/
theorem Allocator.Serves.next {a : Allocator} {n written : Nat} {s s' : State} (h : a.Serves n s written)
    (hsize : s'.bd.size = 2 * s.bd.size) (hmallocs : s'.mallocs = s.mallocs + 1) : a.Serves n s' written := by
  intro i hi
  have hpow : s'.bd.size * 2 ^ i = s.bd.size * 2 ^ (i + 1) := by
    rw [hsize]
    ring
  rw [hpow] at hi ⊢
  rw [hmallocs, show s.mallocs + 1 + i = s.mallocs + (i + 1) by omega]
  exact h (i + 1) hi

/-- The loop ends with room for the packet. -/
theorem Holds.growLoop {a : Allocator} {n : Nat} {written : Bytes} :
    ∀ {f : Nat} {s : State}, Holds s written → a.Serves n s written.length →
      written.length + n ≤ s.bd.size * 2 ^ f →
      ∃ s', growLoop a n (f + 1) s = some (.ok (.inl s')) ∧ Holds s' written ∧ n ≤ s'.bd.room
  | f, s, h, ha, hfuel => by
    have hroom := h.room
    by_cases hn : n ≤ s.bd.room
    · exact ⟨s, by simp [Audio.growLoop, hn], h, hn⟩
    · obtain ⟨hserved, hsmall⟩ := ha 0 (by omega)
      simp only [Nat.pow_zero, Nat.mul_one, Nat.add_zero] at hserved hsmall
      obtain ⟨s₁, hg, h₁, hsize, hmallocs⟩ := h.grow hserved hsmall
      cases f with
      | zero => omega
      | succ f =>
        obtain ⟨s₂, hl, h₂, hn₂⟩ := Holds.growLoop (f := f) h₁ (ha.next hsize hmallocs) (by
          rw [hsize]
          calc written.length + n ≤ s.bd.size * 2 ^ (f + 1) := hfuel
            _ = 2 * s.bd.size * 2 ^ f := by ring)
        refine ⟨s₂, ?_, h₂, hn₂⟩
        rw [Audio.growLoop, if_neg hn, hg]
        exact hl

/-- With room for it, a packet goes in right after what was there. -/
theorem Holds.append {s : State} {written : Bytes} (h : Holds s written) {p : Packet}
    (hp : p.data.length ≤ s.bd.room) :
    ∃ s', append p s = .ok s' ∧ Holds s' (written ++ p.data) := by
  obtain ⟨b, hb, hl, hptr, tail, htail⟩ := h.block
  have hroom := h.room
  have hmost := h.most
  have hn : Binary64.fmin p.data.length s.bd.size = p.data.length := by
    rw [Binary64.fmin_eq_min (by have := p.int_length; omega)]
    omega
  have hlen : tail.length = s.bd.room := by
    have := congrArg List.length htail
    simp only [List.length_append] at this
    omega
  have hcopy : memcpy (some b) s.bd.ptr p.data =
      .ok (some { b with bytes := written ++ p.data ++ tail.drop p.data.length }) := by
    have hoff : (s.bd.ptr - b.addr).toNat = written.length := by omega
    unfold memcpy
    simp only
    rw [if_pos (by omega), hoff, ← htail]
    simp [List.append_assoc]
  refine ⟨{ s with bd := { s.bd with buf := some { b with bytes := written ++ p.data ++ tail.drop p.data.length },
                                     ptr := s.bd.ptr + p.data.length,
                                     room := s.bd.room - p.data.length } }, ?_, ?_⟩
  · have hsub : sizeT ((s.bd.room : Int) - p.data.length) = s.bd.room - p.data.length := by
      unfold sizeT
      omega
    simp only [Audio.append, hn, hb, List.take_length, hcopy, hsub, bind, Except.bind, pure, Except.pure]
  · refine ⟨⟨_, rfl, ?_, ?_, List.prefix_append _ _⟩, ?_, h.least, hmost⟩ <;>
      simp only [List.length_append, List.length_drop] <;> omega

/-- One call: it returns 0 and the packet is in. -/
theorem Holds.writePacket {a : Allocator} {s : State} {written : Bytes} (h : Holds s written) {p : Packet}
    (ha : a.Serves p.data.length s written.length) {fuel : Nat} (hfuel : 64 ≤ fuel) :
    ∃ s', writePacket a fuel p s = some (.ok (0, s')) ∧ Holds s' (written ++ p.data) := by
  obtain ⟨fuel, rfl⟩ : ∃ f, fuel = f + 1 := ⟨fuel - 1, by omega⟩
  have hleast := h.least
  have hroom := h.room
  have hmost := h.most
  have hint := p.int_length
  have hpow : 2 ^ 64 ≤ s.bd.size * 2 ^ fuel := by
    calc 2 ^ 64 ≤ 1024 * 2 ^ 63 := by omega
      _ ≤ s.bd.size * 2 ^ fuel :=
        Nat.mul_le_mul (by unfold outputBufferSize at hleast; omega) (Nat.pow_le_pow_right (by omega) (by omega))
  obtain ⟨s₁, hl, h₁, hroom₁⟩ := h.growLoop ha (f := fuel) (by omega)
  obtain ⟨s₂, hap, h₂⟩ := h₁.append hroom₁
  refine ⟨s₂, ?_, h₂⟩
  simp only [Audio.writePacket, hl, Option.map_some, hap, Except.map]

theorem Holds.writePackets {a : Allocator} (ha : ∀ k n, (a.malloc k n).isSome) {fuel : Nat} (hfuel : 64 ≤ fuel) :
    ∀ (ps : List Packet) {s : State} {written : Bytes}, Holds s written →
      written.length + (ps.map fun p => p.data.length).sum < 2 ^ 62 →
      ∃ s', writePackets a fuel ps s = some (.ok (0, s')) ∧
        Holds s' (written ++ (ps.map Packet.data).flatten)
  | [], s, written, h, _ => ⟨s, rfl, by simpa using h⟩
  | p :: ps, s, written, h, hsmall => by
    simp only [List.map_cons, List.sum_cons] at hsmall
    have hserves : a.Serves p.data.length s written.length := fun i hi => ⟨ha _ _, by omega⟩
    obtain ⟨s₁, hw, h₁⟩ := h.writePacket hserves hfuel
    obtain ⟨s₂, hws, h₂⟩ := Holds.writePackets ha hfuel ps h₁ (by
      simp only [List.length_append]
      omega)
    refine ⟨s₂, ?_, by simpa using h₂⟩
    simp only [Audio.writePackets, hw]
    exact hws

/-- **The output is the packets.** Starting from `init_output`, while every
allocation succeeds and the packets come to less than `2^62` bytes: each
call of `write_packet` ends and returns 0, no copy leaves its block, the
three fields agree, and `get_output_content` is the packets in order. -/
theorem output_is_packets (a : Allocator) (ha : ∀ k n, (a.malloc k n).isSome) (ps : List Packet)
    (hsmall : (ps.map fun p => p.data.length).sum < 2 ^ 62) (fuel : Nat) (hfuel : 64 ≤ fuel) :
    ∃ s, writePackets a fuel ps (initOutput a) = some (.ok (0, s)) ∧
      s.bd.ptr - addrOf s.bd.buf + s.bd.room = s.bd.size ∧ s.bd.room ≤ s.bd.size ∧
      getOutputContent s.bd = .ok (ps.map Packet.data).flatten := by
  obtain ⟨s, hw, h⟩ := (Holds.init (ha _ _)).writePackets ha hfuel ps (by simpa using hsmall)
  have hroom := h.room
  refine ⟨s, hw, ?_, by omega, h.content⟩
  rw [h.offset]
  omega

/-- An allocator that always has room: block `k` at address `k * 2^64`. -/
def Allocator.zeroed : Allocator where
  malloc k n := some { addr := k * 2 ^ 64, bytes := List.replicate n 0 }
  length_eq := by rintro k n b ⟨⟩; simp

theorem output_is_packets_three_bytes :
    ∃ s, writePackets .zeroed 64 [⟨[1, 2], by decide⟩, ⟨[], by decide⟩, ⟨[3], by decide⟩] (initOutput .zeroed) =
        some (.ok (0, s)) ∧
      s.bd.ptr - addrOf s.bd.buf + s.bd.room = s.bd.size ∧ s.bd.room ≤ s.bd.size ∧
      getOutputContent s.bd = .ok [1, 2, 3] :=
  output_is_packets .zeroed (fun _ _ => rfl) _ (by decide) 64 (Nat.le_refl _)

end AudioToolApi.Audio
