import DoggyDns.Lib.Bytes
import DoggyDns.Lib.Swar

/-!
# Records in memory

The `repr(C)` layout: each field at the first multiple of its alignment behind
the field before it, the record filled up to a multiple of the largest
alignment. A record gives each of its fields' names the bytes it holds, so two
declarations that put the same fields in another order read one image as
different records. The bytes between the fields are nobody's, so two images of
one record can differ and `Represents` is a relation. A record no longer than
its fields has no such bytes (`represents_iff`): its image is the fields' bytes
in a row, and the record can be told from it.
-/

namespace ReprC

open Bytes Swar

/-! ## Integers -/

inductive Endian where
  | little
  | big
  deriving DecidableEq, Repr

def leBytes : Nat → Nat → List UInt8
  | 0, _ => []
  | w + 1, n => UInt8.ofNat (n % 256) :: leBytes w (n / 256)

/-- `n` in `w` bytes. -/
def native (e : Endian) (w n : Nat) : List UInt8 :=
  match e with
  | .little => leBytes w n
  | .big => (leBytes w n).reverse

theorem length_leBytes (w n : Nat) : (leBytes w n).length = w := by
  induction w generalizing n with
  | zero => rfl
  | succ w ih => rw [leBytes, List.length_cons, ih]

theorem leNat_leBytes (w n : Nat) : leNat (leBytes w n) = n % 256 ^ w := by
  induction w generalizing n with
  | zero => rw [leBytes, leNat, Nat.pow_zero, Nat.mod_one]
  | succ w ih =>
    have hbyte : (UInt8.ofNat (n % 256)).toNat = n % 256 :=
      UInt8.toNat_ofNat_of_lt' (Nat.mod_lt n (by decide))
    rw [leBytes, leNat, ih, hbyte, Nat.pow_succ', Nat.mod_mul]

@[simp] theorem length_native (e : Endian) (w n : Nat) : (native e w n).length = w := by
  cases e with
  | little => exact length_leBytes w n
  | big => rw [native, List.length_reverse, length_leBytes]

theorem native_inj {e : Endian} {w m n : Nat} (hm : m < 256 ^ w) (hn : n < 256 ^ w)
    (h : native e w m = native e w n) : m = n := by
  have hle : leBytes w m = leBytes w n := by
    cases e with
    | little => exact h
    | big => exact List.reverse_inj.mp h
  rw [← Nat.mod_eq_of_lt hm, ← Nat.mod_eq_of_lt hn, ← leNat_leBytes, ← leNat_leBytes, hle]

/-- The integer that these bytes are in memory, `from_ne_bytes`. -/
def ofNative (e : Endian) (bytes : List UInt8) : Nat :=
  match e with
  | .little => leNat bytes
  | .big => leNat bytes.reverse

/-- `to_be`: the integer whose bytes in memory are those of `n` in network order. -/
def toBe (e : Endian) (w n : Nat) : Nat := ofNative e (native .big w n)

theorem ofNative_native (e : Endian) (w n : Nat) : ofNative e (native e w n) = n % 256 ^ w := by
  cases e with
  | little => exact leNat_leBytes w n
  | big => rw [ofNative, native, List.reverse_reverse, leNat_leBytes]

theorem leBytes_leNat (bytes : List UInt8) : leBytes bytes.length (leNat bytes) = bytes := by
  induction bytes with
  | nil => rfl
  | cons b bs ih =>
    have hb : b.toNat < 256 := b.toNat_lt
    have hmod : (b.toNat + 256 * leNat bs) % 256 = b.toNat := by omega
    have hdiv : (b.toNat + 256 * leNat bs) / 256 = leNat bs := by omega
    rw [List.length_cons, leNat, leBytes, hmod, hdiv, ih, UInt8.ofNat_toNat]

theorem native_ofNative (e : Endian) {w : Nat} {bytes : List UInt8} (h : bytes.length = w) :
    native e w (ofNative e bytes) = bytes := by
  subst h
  cases e with
  | little => exact leBytes_leNat bytes
  | big =>
    have hrev := leBytes_leNat bytes.reverse
    rw [List.length_reverse] at hrev
    rw [native, ofNative, hrev, List.reverse_reverse]

theorem native_toBe (e : Endian) (w n : Nat) : native e w (toBe e w n) = native .big w n :=
  native_ofNative e (length_native _ w n)

/-! ## Layouts -/

/-- A field of `count` integers of `width` bytes, aligned as one of them is. -/
structure Field where
  name : String
  width : Nat
  count : Nat
  deriving DecidableEq, Repr

def Field.size (f : Field) : Nat := f.width * f.count

/-- The first multiple of `a` from `n` on. -/
def roundUp (n a : Nat) : Nat := (n + (a - 1)) / a * a

/-- Where fields placed from `pos` on end. -/
def finish (pos : Nat) : List Field → Nat
  | [] => pos
  | f :: fs => finish (roundUp pos f.width + f.size) fs

def align (fs : List Field) : Nat := fs.foldr (fun f a => max f.width a) 1

/-- `size_of`. -/
def size (fs : List Field) : Nat := roundUp (finish 0 fs) (align fs)

/-- What the fields need on their own. -/
def dataSize (fs : List Field) : Nat := (fs.map Field.size).sum

/-- The fields' bytes are at their places in `bytes`, from `pos` on. -/
def Placed (bytes : List UInt8) (values : String → List UInt8) (pos : Nat) : List Field → Prop
  | [] => True
  | f :: fs =>
    (values f.name).length = f.size ∧ slice bytes (roundUp pos f.width) f.size = values f.name ∧
      Placed bytes values (roundUp pos f.width + f.size) fs

/-- `bytes` is an image of the record that holds `values`. -/
structure Represents (fs : List Field) (values : String → List UInt8) (bytes : List UInt8) :
    Prop where
  length : bytes.length = size fs
  placed : Placed bytes values 0 fs

/-- The fields' bytes in a row. -/
def packed (fs : List Field) (values : String → List UInt8) : List UInt8 :=
  fs.flatMap fun f => values f.name

theorem packed_cons (f : Field) (fs : List Field) (values : String → List UInt8) :
    packed (f :: fs) values = values f.name ++ packed fs values := List.flatMap_cons ..

/-! ## Records without padding -/

theorem le_roundUp (n : Nat) {a : Nat} (ha : 0 < a) : n ≤ roundUp n a := by
  have hdiv := Nat.div_add_mod (n + (a - 1)) a
  have hmod := Nat.mod_lt (n + (a - 1)) ha
  rw [roundUp, Nat.mul_comm]
  omega

theorem align_pos (fs : List Field) : 0 < align fs := by
  induction fs with
  | nil => exact Nat.one_pos
  | cons f fs ih => exact Nat.lt_of_lt_of_le ih (Nat.le_max_right _ _)

theorem le_finish {fs : List Field} (hw : ∀ f ∈ fs, 0 < f.width) (pos : Nat) :
    pos + dataSize fs ≤ finish pos fs := by
  induction fs generalizing pos with
  | nil => exact Nat.le_refl _
  | cons f fs ih =>
    obtain ⟨hf, hfs⟩ := List.forall_mem_cons.mp hw
    have hround := le_roundUp pos hf
    have hrest := ih hfs (roundUp pos f.width + f.size)
    simp only [dataSize, List.map_cons, List.sum_cons, finish] at hrest ⊢
    omega

theorem drop_eq_append {bytes v rest : List UInt8} {pos n : Nat} (hv : v.length = n) :
    bytes.drop pos = v ++ rest ↔ slice bytes pos n = v ∧ bytes.drop (pos + n) = rest := by
  rw [slice, ← List.drop_drop]
  constructor
  · intro h
    rw [h, ← hv]
    exact ⟨List.take_left, List.drop_left⟩
  · rintro ⟨hslice, hrest⟩
    rw [← hslice, ← hrest, List.take_append_drop]

theorem placed_iff {bytes : List UInt8} {fs : List Field} (hw : ∀ f ∈ fs, 0 < f.width) {pos : Nat}
    (hpos : pos + dataSize fs = bytes.length) (hfinish : finish pos fs = bytes.length)
    (values : String → List UInt8) :
    Placed bytes values pos fs ↔
      (∀ f ∈ fs, (values f.name).length = f.size) ∧ bytes.drop pos = packed fs values := by
  induction fs generalizing pos with
  | nil =>
    have hend : bytes.drop pos = [] := List.drop_eq_nil_of_le (Nat.le_of_eq hpos.symm)
    exact iff_of_true trivial ⟨List.forall_mem_nil _, hend⟩
  | cons f fs ih =>
    obtain ⟨hf, hfs⟩ := List.forall_mem_cons.mp hw
    simp only [dataSize, List.map_cons, List.sum_cons] at hpos
    -- padding in front of this field or behind it would push the end beyond the record
    have hround := le_roundUp pos hf
    have hrest := le_finish hfs (roundUp pos f.width + f.size)
    rw [finish] at hfinish
    rw [dataSize, hfinish] at hrest
    have hplace : roundUp pos f.width = pos := by omega
    have hih := @ih hfs (pos + f.size) (by rw [dataSize]; omega) (by rw [← hfinish, hplace])
    rw [Placed, hplace, hih, List.forall_mem_cons, packed_cons]
    constructor
    · rintro ⟨hv, hslice, hall, hdrop⟩
      exact ⟨⟨hv, hall⟩, (drop_eq_append hv).mpr ⟨hslice, hdrop⟩⟩
    · rintro ⟨⟨hv, hall⟩, hdrop⟩
      obtain ⟨hslice, hdrop⟩ := (drop_eq_append hv).mp hdrop
      exact ⟨hv, hslice, hall, hdrop⟩

theorem length_packed {fs : List Field} {values : String → List UInt8}
    (h : ∀ f ∈ fs, (values f.name).length = f.size) : (packed fs values).length = dataSize fs := by
  induction fs with
  | nil => rfl
  | cons f fs ih =>
    obtain ⟨hf, hfs⟩ := List.forall_mem_cons.mp h
    rw [packed_cons, List.length_append, hf, ih hfs]
    rfl

/-- A record no longer than its fields is their bytes in a row. -/
theorem represents_iff {fs : List Field} (hw : ∀ f ∈ fs, 0 < f.width)
    (hsize : size fs = dataSize fs) {values : String → List UInt8} {bytes : List UInt8} :
    Represents fs values bytes ↔
      (∀ f ∈ fs, (values f.name).length = f.size) ∧ bytes = packed fs values := by
  have hfinish : finish 0 fs = dataSize fs := by
    have hle := le_finish hw 0
    have hround := le_roundUp (finish 0 fs) (align_pos fs)
    rw [size] at hsize
    omega
  constructor
  · rintro ⟨hlen, hplaced⟩
    exact (placed_iff hw (by rw [hlen, hsize, Nat.zero_add]) (by rw [hlen, hsize, hfinish])
      values).mp hplaced
  · rintro ⟨hall, rfl⟩
    have hlen := length_packed hall
    exact ⟨hlen.trans hsize.symm,
      (placed_iff hw (by rw [hlen, Nat.zero_add]) (by rw [hlen, hfinish]) values).mpr ⟨hall, rfl⟩⟩

end ReprC
