import DoggyDns.Lib.Bytes

/-!
# Packet access

`protocol.rs`: the header layout constants and the byte-level helpers of the
eBPF program. A frame is the list of its bytes; a packet pointer is an offset
into it and `data_end` is its length. The helpers check no bounds: an access
outside the frame faults (`Bytes.Fault`), and each `_ok` lemma says what a
helper does when its caller's comparison against `data_end` held.
-/

namespace DoggyDns

open Bytes

abbrev Frame := List UInt8

def ETH_P_IP : UInt16 := 0x0800
def IPPROTO_UDP : UInt8 := 17

/-- `size_of::<EthHdr>()`, `size_of::<IpHdr>()` and `size_of::<UdpHdr>()`. -/
def ETH_HDR_LEN : Nat := 14
def IP_HDR_LEN : Nat := 20
def UDP_HDR_LEN : Nat := 8

/-- Chunk size used when copying cached responses into the frame. -/
def COPY_CHUNK : Nat := 16

/-! ## Helpers -/

def readU16Be (f : Frame) (ptr offset : Nat) : Except Fault UInt16 := do
  let hi ← load8 f (ptr + offset)
  let lo ← load8 f (ptr + offset + 1)
  return (hi.toUInt16 <<< 8) ||| lo.toUInt16

def writeU16Be (f : Frame) (ptr offset : Nat) (val : UInt16) : Except Fault Frame := do
  let f ← store f (ptr + offset) [(val >>> 8).toUInt8]
  store f (ptr + offset + 1) [(val &&& 0xFF).toUInt8]

/-- Swap the two-byte words at `a` and `b`. -/
def swapU16 (f : Frame) (p a b : Nat) : Except Fault Frame := do
  let x ← load f (p + a) 2
  let y ← load f (p + b) 2
  let f ← store f (p + a) y
  store f (p + b) x

def swapU32 (f : Frame) (p a b : Nat) : Except Fault Frame := do
  let x ← load f (p + a) 4
  let y ← load f (p + b) 4
  let f ← store f (p + a) y
  store f (p + b) x

/-- Copy `COPY_CHUNK` bytes as two 64-bit moves; `src` is a map value. -/
def copyChunk (f : Frame) (dst : Nat) (src : List UInt8) (srcOff : Nat) : Except Fault Frame := do
  let lo ← load src srcOff 8
  let hi ← load src (srcOff + 8) 8
  let f ← store f dst lo
  store f (dst + 8) hi

theorem readU16Be_ok {f : Frame} {ptr offset : Nat} (h : ptr + offset + 2 ≤ f.length) :
    readU16Be f ptr offset = .ok (be16At f (ptr + offset)) := by
  unfold readU16Be
  rw [load8_ok (by omega), load8_ok (by omega)]
  rfl

theorem writeU16Be_ok {f : Frame} {ptr offset : Nat} {val : UInt16}
    (h : ptr + offset + 2 ≤ f.length) :
    writeU16Be f ptr offset val = .ok (patch f (ptr + offset) (be16Bytes val)) := by
  have h1 : ∀ b : UInt8, ptr + offset + [b].length ≤ f.length := by
    intro b
    rw [List.length_singleton]
    omega
  unfold writeU16Be
  rw [store_ok (h1 _)]
  simp only [bind, Except.bind]
  rw [store_ok (by rw [length_patch (h1 _), List.length_singleton]; omega)]
  exact congrArg Except.ok (patch_patch_append (u := [_]) (v := [_]) h)

/-- A swap of two disjoint words of `n` bytes. -/
def swapped (f : Frame) (i j n : Nat) : Frame := patch (patch f i (slice f j n)) j (slice f i n)

theorem swapU16_ok {f : Frame} {p a b : Nat} (ha : p + a + 2 ≤ f.length)
    (hb : p + b + 2 ≤ f.length) :
    swapU16 f p a b = .ok (swapped f (p + a) (p + b) 2) := by
  have hx : (slice f (p + a) 2).length = 2 := by simp; omega
  have hy : (slice f (p + b) 2).length = 2 := by simp; omega
  unfold swapU16
  rw [load_ok ha, load_ok hb]
  simp only [bind, Except.bind]
  rw [store_ok (by omega)]
  simp only
  rw [store_ok (by rw [length_patch (by omega)]; omega)]
  rfl

theorem swapU32_ok {f : Frame} {p a b : Nat} (ha : p + a + 4 ≤ f.length)
    (hb : p + b + 4 ≤ f.length) :
    swapU32 f p a b = .ok (swapped f (p + a) (p + b) 4) := by
  have hx : (slice f (p + a) 4).length = 4 := by simp; omega
  have hy : (slice f (p + b) 4).length = 4 := by simp; omega
  unfold swapU32
  rw [load_ok ha, load_ok hb]
  simp only [bind, Except.bind]
  rw [store_ok (by omega)]
  simp only
  rw [store_ok (by rw [length_patch (by omega)]; omega)]
  rfl

theorem copyChunk_ok {f : Frame} {dst : Nat} {src : List UInt8} {srcOff : Nat}
    (hs : srcOff + COPY_CHUNK ≤ src.length) (hd : dst + COPY_CHUNK ≤ f.length) :
    copyChunk f dst src srcOff = .ok (patch f dst (slice src srcOff COPY_CHUNK)) := by
  simp only [COPY_CHUNK] at *
  have h1 : (slice src srcOff 8).length = 8 := by simp; omega
  have h2 : (slice src (srcOff + 8) 8).length = 8 := by simp; omega
  unfold copyChunk
  rw [load_ok (by omega), load_ok (by omega)]
  simp only [bind, Except.bind]
  rw [store_ok (by omega)]
  simp only
  rw [store_ok (by rw [length_patch (by omega)]; omega), slice_append src srcOff 8 8,
    ← patch_patch_append (by omega), h1]

/-! ## Slices of a swapped frame -/

section Swapped
variable {f : Frame} {i j n : Nat}

theorem length_swapped (hi : i + n ≤ f.length) (hj : j + n ≤ f.length) :
    (swapped f i j n).length = f.length := by
  have hx : (slice f i n).length = n := by simp; omega
  have hy : (slice f j n).length = n := by simp; omega
  unfold swapped
  rw [length_patch (by rw [length_patch (by omega)]; omega), length_patch (by omega)]

theorem slice_swapped_left (hi : i + n ≤ f.length) (hj : j + n ≤ f.length) (hd : i + n ≤ j) :
    slice (swapped f i j n) i n = slice f j n := by
  have hx : (slice f i n).length = n := by simp; omega
  have hy : (slice f j n).length = n := by simp; omega
  unfold swapped
  rw [slice_patch_of_disjoint (by rw [length_patch (by omega)]; omega) (by omega)]
  have := slice_patch_self (b := f) (v := slice f j n) (i := i) (by omega)
  rwa [hy] at this

theorem slice_swapped_right (hi : i + n ≤ f.length) (hj : j + n ≤ f.length) :
    slice (swapped f i j n) j n = slice f i n := by
  have hx : (slice f i n).length = n := by simp; omega
  have hy : (slice f j n).length = n := by simp; omega
  have := slice_patch_self (b := patch f i (slice f j n)) (v := slice f i n) (i := j)
    (by rw [length_patch (by omega)]; omega)
  rwa [hx] at this

theorem slice_swapped_other {k m : Nat} (hi : i + n ≤ f.length) (hj : j + n ≤ f.length)
    (h1 : k + m ≤ i ∨ i + n ≤ k) (h2 : k + m ≤ j ∨ j + n ≤ k) :
    slice (swapped f i j n) k m = slice f k m := by
  have hx : (slice f i n).length = n := by simp; omega
  have hy : (slice f j n).length = n := by simp; omega
  unfold swapped
  rw [slice_patch_of_disjoint (by rw [length_patch (by omega)]; omega) (by omega),
    slice_patch_of_disjoint (by omega) (by omega)]

end Swapped

end DoggyDns
