import Mathlib.Data.List.Basic
import Mathlib.Tactic.Common

/-!
# Byte buffers

A buffer is a list of bytes. `slice b i n` is the run of `n` bytes at `i` and
`patch b i v` overwrites the run at `i` with `v`. The lemmas compute a slice of
a patched buffer: the patched run itself, or anything disjoint from it.

`load` and `store` are the raw memory accesses of a program that proves its
own bounds: outside the buffer they fault instead of reading junk, so a result
about a run that did not fault is also a result about its accesses.
-/

namespace Bytes

/-- The `n` bytes at offset `i` (fewer at the end of the buffer). -/
def slice (b : List UInt8) (i n : Nat) : List UInt8 := (b.drop i).take n

/-- `b` with the bytes at offset `i` replaced by `v`. -/
def patch (b : List UInt8) (i : Nat) (v : List UInt8) : List UInt8 :=
  b.take i ++ v ++ b.drop (i + v.length)

@[simp] theorem length_slice (b : List UInt8) (i n : Nat) :
    (slice b i n).length = min n (b.length - i) := by
  simp [slice]

theorem length_patch {b v : List UInt8} {i : Nat} (h : i + v.length ≤ b.length) :
    (patch b i v).length = b.length := by
  simp only [patch, List.length_append, List.length_take, List.length_drop]
  omega

theorem getElem?_slice (b : List UInt8) (i n j : Nat) :
    (slice b i n)[j]? = if j < n then b[i + j]? else none := by
  simp only [slice, List.getElem?_take, List.getElem?_drop]

theorem getElem?_patch {b v : List UInt8} {i : Nat} (h : i + v.length ≤ b.length) (j : Nat) :
    (patch b i v)[j]? = if i ≤ j ∧ j < i + v.length then v[j - i]? else b[j]? := by
  have hi : (b.take i).length = i := by simp; omega
  unfold patch
  by_cases h1 : j < i
  · rw [List.append_assoc, List.getElem?_append_left (by omega), List.getElem?_take,
      if_pos h1, if_neg (by omega)]
  by_cases h2 : j < i + v.length
  · rw [List.getElem?_append_left (by simp; omega), List.getElem?_append_right (by omega), hi,
      if_pos (by omega)]
  · rw [List.getElem?_append_right (by simp; omega), if_neg (by omega), List.getElem?_drop]
    congr 1
    simp only [List.length_append, hi]
    omega

theorem slice_patch_self {b v : List UInt8} {i : Nat} (h : i + v.length ≤ b.length) :
    slice (patch b i v) i v.length = v := by
  apply List.ext_getElem?
  intro j
  rw [getElem?_slice, getElem?_patch h]
  by_cases hj : j < v.length
  · rw [if_pos hj, if_pos (by omega), Nat.add_sub_cancel_left]
  · rw [if_neg hj, List.getElem?_eq_none (by omega)]

theorem slice_patch_of_disjoint {b v : List UInt8} {i j n : Nat} (h : i + v.length ≤ b.length)
    (hd : j + n ≤ i ∨ i + v.length ≤ j) : slice (patch b i v) j n = slice b j n := by
  apply List.ext_getElem?
  intro k
  rw [getElem?_slice, getElem?_slice, getElem?_patch h]
  by_cases hk : k < n
  · rw [if_pos hk, if_pos hk, if_neg (by omega)]
  · rw [if_neg hk, if_neg hk]

/-- A slice of a patched run, strictly inside it. -/
theorem slice_patch_within {b v : List UInt8} {i j n : Nat} (h : i + v.length ≤ b.length)
    (h1 : i ≤ j) (h2 : j + n ≤ i + v.length) : slice (patch b i v) j n = slice v (j - i) n := by
  apply List.ext_getElem?
  intro k
  rw [getElem?_slice, getElem?_slice, getElem?_patch h]
  by_cases hk : k < n
  · rw [if_pos hk, if_pos hk, if_pos (by omega)]
    congr 1
    omega
  · rw [if_neg hk, if_neg hk]

/-- Two adjacent patches are one. -/
theorem patch_patch_append {f u v : List UInt8} {i : Nat} (h : i + u.length + v.length ≤ f.length) :
    patch (patch f i u) (i + u.length) v = patch f i (u ++ v) := by
  apply List.ext_getElem?
  intro j
  have hu : i + u.length ≤ f.length := by omega
  rw [getElem?_patch (by rw [length_patch hu]; omega), getElem?_patch hu,
    getElem?_patch (by rw [List.length_append]; omega), List.length_append]
  by_cases h1 : j < i
  · rw [if_neg (by omega), if_neg (by omega), if_neg (by omega)]
  by_cases h2 : j < i + u.length
  · rw [if_neg (by omega), if_pos (by omega), if_pos (by omega),
      List.getElem?_append_left (by omega)]
  by_cases h3 : j < i + u.length + v.length
  · rw [if_pos (by omega), if_pos (by omega), List.getElem?_append_right (by omega)]
    congr 1
    omega
  · rw [if_neg (by omega), if_neg (by omega), if_neg (by omega)]

theorem slice_append (b : List UInt8) (i m n : Nat) :
    slice b i (m + n) = slice b i m ++ slice b (i + m) n := by
  simp only [slice, List.take_add, List.drop_drop]

theorem slice_zero (b : List UInt8) (i : Nat) : slice b i 0 = [] := by
  simp [slice]

theorem slice_slice (b : List UInt8) (i j m n : Nat) (h : j + n ≤ m) :
    slice (slice b i m) j n = slice b (i + j) n := by
  apply List.ext_getElem?
  intro k
  simp only [getElem?_slice]
  by_cases hk : k < n
  · rw [if_pos hk, if_pos (by omega), if_pos hk, Nat.add_assoc]
  · rw [if_neg hk, if_neg hk]

/-! ## Checked accesses -/

/-- The one way a raw access goes wrong. -/
inductive Fault where
  | outOfBounds
  deriving DecidableEq, Repr

/-- Load `n` bytes at `i`. -/
def load (b : List UInt8) (i n : Nat) : Except Fault (List UInt8) :=
  if i + n ≤ b.length then .ok (slice b i n) else .error .outOfBounds

/-- Store the bytes `v` at `i`. -/
def store (b : List UInt8) (i : Nat) (v : List UInt8) : Except Fault (List UInt8) :=
  if i + v.length ≤ b.length then .ok (patch b i v) else .error .outOfBounds

theorem load_ok {b : List UInt8} {i n : Nat} (h : i + n ≤ b.length) :
    load b i n = .ok (slice b i n) := if_pos h

theorem store_ok {b v : List UInt8} {i : Nat} (h : i + v.length ≤ b.length) :
    store b i v = .ok (patch b i v) := if_pos h

/-- The byte at `i`, zero outside the buffer. -/
def byteAt (b : List UInt8) (i : Nat) : UInt8 := b.getD i 0

theorem getElem?_of_lt {b : List UInt8} {i : Nat} (h : i < b.length) :
    b[i]? = some (byteAt b i) := by
  simp [byteAt, List.getD_eq_getElem?_getD, List.getElem?_eq_getElem h]

theorem slice_one {b : List UInt8} {i : Nat} (h : i < b.length) : slice b i 1 = [byteAt b i] := by
  apply List.ext_getElem?
  intro j
  rw [getElem?_slice]
  rcases j with _ | j
  · simpa using getElem?_of_lt h
  · simp

theorem slice_one_append_drop {b : List UInt8} {i : Nat} (h : i < b.length) :
    byteAt b i :: b.drop (i + 1) = b.drop i := by
  have := slice_one h
  rw [slice] at this
  rw [← List.take_append_drop 1 (b.drop i), this, List.drop_drop]
  rfl

theorem slice_succ {b : List UInt8} {i n : Nat} (h : i < b.length) :
    slice b i (n + 1) = byteAt b i :: slice b (i + 1) n := by
  rw [Nat.add_comm n 1, slice_append, slice_one h, List.singleton_append]

/-- Load one byte. -/
def load8 (b : List UInt8) (i : Nat) : Except Fault UInt8 :=
  match b[i]? with
  | some x => .ok x
  | none => .error .outOfBounds

theorem load8_ok {b : List UInt8} {i : Nat} (h : i < b.length) :
    load8 b i = .ok (byteAt b i) := by
  simp only [load8, getElem?_of_lt h]

theorem byteAt_eq_of_slice_eq {a b : List UInt8} {i j n k : Nat} (h : slice a i n = slice b j n)
    (hk : k < n) : byteAt a (i + k) = byteAt b (j + k) := by
  have := congrArg (·[k]?) h
  simp only [getElem?_slice, if_pos hk] at this
  simp only [byteAt, List.getD_eq_getElem?_getD, this]

theorem byteAt_slice {b : List UInt8} {i n k : Nat} (h : k < n) :
    byteAt (slice b i n) k = byteAt b (i + k) := by
  simp only [byteAt, List.getD_eq_getElem?_getD, getElem?_slice, if_pos h]

theorem byteAt_append_right {u v : List UInt8} {k : Nat} (h : u.length ≤ k) :
    byteAt (u ++ v) k = byteAt v (k - u.length) := by
  simp only [byteAt, List.getD_eq_getElem?_getD, List.getElem?_append_right h]

/-- A byte of a run known to be two pieces, in the second one. -/
theorem byteAt_of_slice_append {b u v : List UInt8} {i n k : Nat} (h : slice b i n = u ++ v)
    (hu : u.length ≤ k) (hk : k < n) : byteAt b (i + k) = byteAt v (k - u.length) := by
  rw [← byteAt_slice hk, h, byteAt_append_right hu]

/-! ## Big-endian words -/

/-- The big-endian 16-bit word of two bytes. -/
def be16 (hi lo : UInt8) : UInt16 := (hi.toUInt16 <<< 8) ||| lo.toUInt16

/-- The big-endian word at offset `i`. -/
def be16At (f : List UInt8) (i : Nat) : UInt16 := be16 (byteAt f i) (byteAt f (i + 1))

/-- The two bytes of a big-endian word. -/
def be16Bytes (v : UInt16) : List UInt8 := [(v >>> 8).toUInt8, (v &&& 0xFF).toUInt8]

@[simp] theorem length_be16Bytes (v : UInt16) : (be16Bytes v).length = 2 := rfl

theorem toNat_be16 (hi lo : UInt8) : (be16 hi lo).toNat = 256 * hi.toNat + lo.toNat := by
  have hh := hi.toNat_lt
  have hl := lo.toNat_lt
  unfold be16
  rw [UInt16.toNat_or, UInt16.toNat_shiftLeft, UInt8.toNat_toUInt16, UInt8.toNat_toUInt16,
    show (8 : UInt16).toNat = 8 from rfl, Nat.mod_eq_of_lt (by decide : 8 < 16), Nat.shiftLeft_eq,
    Nat.mod_eq_of_lt (by omega), Nat.mul_comm hi.toNat, ← Nat.two_pow_add_eq_or_of_lt hl]

theorem or_and_distrib (a b c : UInt16) : (a ||| b) &&& c = (a &&& c) ||| (b &&& c) := by
  rw [← UInt16.toBitVec_inj, UInt16.toBitVec_and, UInt16.toBitVec_or,
    BitVec.and_or_distrib_right]
  rfl

theorem be16Bytes_be16 (hi lo : UInt8) : be16Bytes (be16 hi lo) = [hi, lo] := by
  have hh := hi.toNat_lt
  have hl := lo.toNat_lt
  have hv := toNat_be16 hi lo
  have h1 : (be16 hi lo >>> 8).toUInt8 = hi := by
    apply UInt8.toNat_inj.mp
    rw [UInt16.toNat_toUInt8, UInt16.toNat_shiftRight, hv,
      show (8 : UInt16).toNat % 16 = 8 from rfl,
      Nat.shiftRight_eq_div_pow]
    omega
  have h2 : (be16 hi lo &&& 0xFF).toUInt8 = lo := by
    apply UInt8.toNat_inj.mp
    rw [UInt16.toNat_toUInt8, UInt16.toNat_and, hv, show (0xFF : UInt16).toNat = 2 ^ 8 - 1 from rfl,
      Nat.and_two_pow_sub_one_eq_mod]
    omega
  unfold be16Bytes
  rw [h1, h2]

/-- A word written and read back. -/
theorem be16_of_be16Bytes (v : UInt16) : be16 (v >>> 8).toUInt8 (v &&& 0xFF).toUInt8 = v := by
  have hv := v.toNat_lt
  apply UInt16.toNat_inj.mp
  rw [toNat_be16, UInt16.toNat_toUInt8, UInt16.toNat_toUInt8, UInt16.toNat_shiftRight,
    UInt16.toNat_and,
    show (8 : UInt16).toNat % 16 = 8 from rfl, Nat.shiftRight_eq_div_pow,
    show (0xFF : UInt16).toNat = 2 ^ 8 - 1 from rfl, Nat.and_two_pow_sub_one_eq_mod]
  omega

theorem be16At_eq_of_slice {f : List UInt8} {i : Nat} {v : UInt16} (h : slice f i 2 = be16Bytes v) :
    be16At f i = v := by
  have h0 := congrArg (·[0]?) h
  have h1 := congrArg (·[1]?) h
  simp only [getElem?_slice, be16Bytes, List.getElem?_cons_zero, List.getElem?_cons_succ] at h0 h1
  have e0 : byteAt f i = (v >>> 8).toUInt8 := by
    simpa [byteAt, List.getD_eq_getElem?_getD] using congrArg (Option.getD · 0) h0
  have e1 : byteAt f (i + 1) = (v &&& 0xFF).toUInt8 := by
    simpa [byteAt, List.getD_eq_getElem?_getD] using congrArg (Option.getD · 0) h1
  unfold be16At
  rw [e0, e1, be16_of_be16Bytes]

/-- The two bytes at `i` are those of the word read there. -/
theorem slice_two {f : List UInt8} {i : Nat} (h : i + 2 ≤ f.length) :
    slice f i 2 = be16Bytes (be16At f i) := by
  rw [slice_succ (by omega), slice_one (by omega), be16At, be16Bytes_be16]

theorem be16At_congr {a b : List UInt8} {i j : Nat} (h : slice a i 2 = slice b j 2) :
    be16At a i = be16At b j := by
  have h0 := byteAt_eq_of_slice_eq h (k := 0) (by decide)
  have h1 := byteAt_eq_of_slice_eq h (k := 1) (by decide)
  simp only [Nat.add_zero] at h0
  rw [be16At, be16At, h0, h1]

end Bytes
