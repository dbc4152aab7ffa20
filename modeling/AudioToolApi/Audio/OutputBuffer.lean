/-
The growing output buffer FFmpeg writes into: `output_buffer_data`,
`write_packet` and `get_output_content` (audio/audio_processor.cpp; the text
in audio/processor.cpp is the same, for `AudioProcessor`).

Addresses are integers, `size_t` is arithmetic modulo `2^64`, and `malloc`
is a parameter: what each call of it returns, and what bytes the new memory
happens to hold.
-/
import AudioToolApi.Lib.Binary64
import AudioToolApi.Utilities.Text

namespace AudioToolApi.Audio

/-- A block of the heap: where it starts and what it holds. -/
structure Block where
  addr : Int
  bytes : Bytes
  deriving DecidableEq, Repr

/-- The `k`-th call of `malloc`: a block of the size asked for, or null. -/
structure Allocator where
  malloc : Nat → Nat → Option Block
  length_eq : ∀ {k n b}, malloc k n = some b → b.bytes.length = n

/-- `output_buffer_data`; a null `buf` is `none`. -/
structure OutputBufferData where
  buf : Option Block
  size : Nat
  ptr : Int
  room : Nat

/-- The buffer, and how often `malloc` has been called. -/
structure State where
  bd : OutputBufferData
  mallocs : Nat

/-- A copy C does not define: out of the block, or through a null pointer. -/
inductive Undefined | outOfBounds | nullPointer
  deriving DecidableEq, Repr

/-- An integer stored into a `size_t`. -/
def sizeT (x : Int) : Nat := (x % 2 ^ 64).toNat

/-- The data FFmpeg hands to the callback, with its `int` length. -/
structure Packet where
  data : Bytes
  int_length : data.length < 2 ^ 31

/-- `buf.get()`, null being 0. -/
def addrOf (b : Option Block) : Int := (b.map Block.addr).getD 0

/-- The first `n` bytes at the start of a block. -/
def readBlock (b : Option Block) (n : Nat) : Except Undefined Bytes :=
  match b with
  | none => if n = 0 then .ok [] else .error .nullPointer
  | some b => if n ≤ b.bytes.length then .ok (b.bytes.take n) else .error .outOfBounds

/-- `memcpy(ptr, src, src.length)` where `ptr` is in the block `dst`. -/
def memcpy (dst : Option Block) (ptr : Int) (src : Bytes) : Except Undefined (Option Block) :=
  match dst with
  | none => if src = [] then .ok none else .error .nullPointer
  | some b =>
    if b.addr ≤ ptr ∧ ptr + src.length ≤ b.addr + b.bytes.length then
      let off := (ptr - b.addr).toNat
      .ok (some { b with bytes := b.bytes.take off ++ src ++ b.bytes.drop (off + src.length) })
    else .error .outOfBounds

/-- `AVERROR(ENOMEM)`. -/
def enomem : Int := -12

/-- One turn of the loop in `write_packet`: the state after it, or the state
it returns `AVERROR(ENOMEM)` in. -/
def grow (a : Allocator) (s : State) : Except Undefined (State ⊕ State) := do
  let bd := s.bd
  let offset := bd.ptr - addrOf bd.buf
  let n := sizeT (2 * bd.size)
  let tmp := a.malloc s.mallocs n
  let old ← readBlock bd.buf bd.size
  let tmp ← memcpy tmp (addrOf tmp) old
  let bd := { bd with buf := tmp }
  let s := { bd, mallocs := s.mallocs + 1 : State }
  if tmp.isNone then return .inr s
  return .inl { s with bd := { bd with
    size := n, ptr := addrOf tmp + offset, room := sizeT (n - offset) } }

/-- `while (buf_size > bd->room)`, for at most `fuel` tests. -/
def growLoop (a : Allocator) (bufSize : Nat) : Nat → State → Option (Except Undefined (State ⊕ State))
  | 0, _ => none
  | fuel + 1, s =>
    if bufSize ≤ s.bd.room then some (.ok (.inl s))
    else match grow a s with
      | .error u => some (.error u)
      | .ok (.inr s') => some (.ok (.inr s'))
      | .ok (.inl s') => growLoop a bufSize fuel s'

/-- After the loop: the packet goes in at `ptr`. -/
def append (p : Packet) (s : State) : Except Undefined State := do
  let bd := s.bd
  let n := Binary64.fmin p.data.length bd.size
  let buf ← memcpy bd.buf bd.ptr (p.data.take n)
  return { s with bd := { bd with buf, ptr := bd.ptr + n, room := sizeT (bd.room - n) } }

/-- `write_packet`: its return value and the state it leaves. -/
def writePacket (a : Allocator) (fuel : Nat) (p : Packet) (s : State) :
    Option (Except Undefined (Int × State)) :=
  (growLoop a p.data.length fuel s).map fun
    | .error u => .error u
    | .ok (.inr s) => .ok (enomem, s)
    | .ok (.inl s) => (append p s).map fun s => (0, s)

/-- `string(buf.get(), size - room)`. -/
def getOutputContent (bd : OutputBufferData) : Except Undefined Bytes :=
  readBlock bd.buf (sizeT (bd.size - bd.room))

def outputBufferSize : Nat := 1024

/-- `init_output`: the buffer it allocates, which it does not check. -/
def initOutput (a : Allocator) : State :=
  let buf := a.malloc 0 outputBufferSize
  { bd := { buf, size := outputBufferSize, ptr := addrOf buf, room := outputBufferSize }, mallocs := 1 }

/-- One call of `write_packet` after another, until one does not return 0. -/
def writePackets (a : Allocator) (fuel : Nat) : List Packet → State → Option (Except Undefined (Int × State))
  | [], s => some (.ok (0, s))
  | p :: ps, s =>
    match writePacket a fuel p s with
    | some (.ok (0, s')) => writePackets a fuel ps s'
    | r => r

end AudioToolApi.Audio
