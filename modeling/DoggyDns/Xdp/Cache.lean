import DoggyDns.Lib.WordHash
import DoggyDns.Dns.Name

/-!
# The cache shared with the kernel

The map types (`types.rs`, mirrored on both sides) and the userspace key
builder (`cache.rs`). The name hash is a parameter of the key: `fnv1a` is the
64-bit one the code uses, `WordHash.stream` the idealised injective one.
-/

namespace DoggyDns

open Bytes Swar WordHash

/-! ## Map types -/

def FLAG_NEGATIVE : UInt16 := 0x01

/-- Maximum DNS response size that fits in the map value. -/
def MAX_RESPONSE_SIZE : Nat := 512

structure CacheKey (H : Type := UInt64) where
  nameHash : H
  qtypeClass : UInt32
  pad : UInt32
  deriving DecidableEq, Repr

structure CacheValue where
  respData : List UInt8
  respLen : UInt16
  flags : UInt16
  pad : UInt32
  expiresAt : UInt64
  length_respData : respData.length = MAX_RESPONSE_SIZE
  deriving DecidableEq

namespace CacheValue

/-- Pack a response into the map value, truncating to `MAX_RESPONSE_SIZE` and
stamping the negative flag when requested. -/
def fromResponse (respData : List UInt8) (expiresAt : UInt64) (negative : Bool) : CacheValue :=
  let len := min respData.length MAX_RESPONSE_SIZE
  { respData := respData.take len ++ List.replicate (MAX_RESPONSE_SIZE - len) 0
    respLen := UInt16.ofNat len
    flags := if negative then FLAG_NEGATIVE else 0
    pad := 0
    expiresAt
    length_respData := by
      simp only [List.length_append, List.length_take, List.length_replicate]; omega }

def newPositive (respData : List UInt8) (expiresAt : UInt64) : CacheValue :=
  fromResponse respData expiresAt false

def newNegative (respData : List UInt8) (expiresAt : UInt64) : CacheValue :=
  fromResponse respData expiresAt true

def isNegative (v : CacheValue) : Bool := v.flags &&& FLAG_NEGATIVE != 0

@[simp] theorem isNegative_fromResponse (d : List UInt8) (e : UInt64) (n : Bool) :
    (fromResponse d e n).isNegative = n := by
  cases n <;> simp [isNegative, fromResponse, FLAG_NEGATIVE]

/-- The length a map value carries. -/
theorem toNat_respLen_fromResponse (d : List UInt8) (e : UInt64) (n : Bool) :
    (fromResponse d e n).respLen.toNat = min d.length MAX_RESPONSE_SIZE := by
  have : min d.length MAX_RESPONSE_SIZE ≤ 512 := Nat.min_le_right _ _
  exact UInt16.toNat_ofNat_of_lt' (by simp only [UInt16.size]; omega)

/-- A response that fits is stored whole. -/
theorem slice_fromResponse {d : List UInt8} (h : d.length ≤ MAX_RESPONSE_SIZE) (e : UInt64)
    (n : Bool) :
    slice (fromResponse d e n).respData 0 d.length = d := by
  simp only [fromResponse, Nat.min_eq_left h, slice, List.drop_zero, List.take_length,
    List.take_left]

end CacheValue

/-! ## Key builder -/

def FNV_OFFSET_BASIS : UInt64 := 0xcbf29ce484222325
def FNV_PRIME : UInt64 := 0x100000001b3

/-- One FNV-1a step over a little-endian word. -/
def fnv1aWord (hash word : UInt64) : UInt64 := (hash ^^^ word) * FNV_PRIME

/-- The code's hash. -/
def fnv1a : WordHasher UInt64 := ⟨FNV_OFFSET_BASIS, fnv1aWord⟩

section
variable {H : Type} (hs : WordHasher H)

/-- `fnv1a_64` at any word hash: whole chunks, then the zero-padded tail. -/
def fnv1a64With (data : List UInt8) : H :=
  let (chunks, tail) := asChunks data
  let hash := chunks.foldl (fun hash chunk => hs.word hash (le64 chunk)) hs.basis
  if !tail.isEmpty then
    hs.word hash (le64 (tail ++ List.replicate (8 - tail.length) 0))
  else hash

/-- The bytes `make_cache_key` writes: each label's length and its lowercased
bytes, then the root label's zero. The length of the list is the write position. -/
def keyWire (name : Name) : List UInt8 :=
  let wire := name.labels.foldl (fun wire label =>
    label.foldl (fun wire byte => wire ++ [toAsciiLowercase byte])
      (wire ++ [UInt8.ofNat label.length])) []
  wire ++ [0]

/-- `make_cache_key` at any word hash. -/
def makeCacheKeyWith (name : Name) (qtype qclass : UInt16) : CacheKey H where
  nameHash := fnv1a64With hs (keyWire name)
  qtypeClass := (qtype.toUInt32 <<< 16) ||| qclass.toUInt32
  pad := 0

end

def fnv1a64 (data : List UInt8) : UInt64 := fnv1a64With fnv1a data

/-- The key userspace inserts under. -/
def makeCacheKey (name : Name) (qtype qclass : UInt16) : CacheKey :=
  makeCacheKeyWith fnv1a name qtype qclass

theorem fnv1a64With_eq {H : Type} (hs : WordHasher H) (data : List UInt8) :
    fnv1a64With hs data = hs.run (words data) := by
  rw [words_eq_asChunks]
  simp only [fnv1a64With, WordHasher.run, List.foldl_append, List.foldl_map]
  cases (asChunks data).2 with
  | nil => rfl
  | cons b tail =>
    simp only [List.isEmpty_cons, Bool.not_false, ↓reduceIte, le64_append_zeros, Bool.false_eq_true,
      List.foldl_cons, List.foldl_nil]

theorem foldl_push_lower (l : Label) (w : List UInt8) :
    l.foldl (fun w b => w ++ [toAsciiLowercase b]) w = w ++ l.lower := by
  induction l generalizing w with
  | nil => simp [Label.lower]
  | cons b l ih => rw [List.foldl_cons, ih]; simp [Label.lower]

/-- The hashed bytes are the wire form of the lowercased name. -/
theorem keyWire_eq (name : Name) : keyWire name = wire (name.labels.map Label.lower) := by
  have h : ∀ (ls : List Label) (w : List UInt8),
      ls.foldl (fun w l => l.foldl (fun w b => w ++ [toAsciiLowercase b])
        (w ++ [UInt8.ofNat l.length])) w ++ [0] = w ++ wire (ls.map Label.lower) := by
    intro ls
    induction ls with
    | nil => intro w; rfl
    | cons l ls ih =>
      intro w
      rw [List.foldl_cons, ih, foldl_push_lower]
      simp [wire]
  exact h name.labels []

theorem makeCacheKeyWith_nameHash {H : Type} (hs : WordHasher H) (name : Name)
    (qtype qclass : UInt16) :
    (makeCacheKeyWith hs name qtype qclass).nameHash
      = hs.run (words (wire (name.labels.map Label.lower))) := by
  unfold makeCacheKeyWith
  rw [fnv1a64With_eq, keyWire_eq]

/-- The packed type and class determine both. -/
theorem qtypeClass_inj {t t' c c' : UInt16}
    (h : (t.toUInt32 <<< 16) ||| c.toUInt32 = (t'.toUInt32 <<< 16) ||| c'.toUInt32) :
    t = t' ∧ c = c' := by
  have hval : ∀ a b : UInt16, ((a.toUInt32 <<< 16) ||| b.toUInt32).toNat =
    2 ^ 16 * a.toNat + b.toNat := by
    intro a b
    have ha := a.toNat_lt
    have hb := b.toNat_lt
    rw [UInt32.toNat_or, UInt32.toNat_shiftLeft, UInt16.toNat_toUInt32, UInt16.toNat_toUInt32,
      show (16 : UInt32).toNat = 16 from rfl, Nat.mod_eq_of_lt (by decide : 16 < 32),
      Nat.shiftLeft_eq, Nat.mod_eq_of_lt (by omega), Nat.mul_comm a.toNat,
      Nat.two_pow_add_eq_or_of_lt hb]
  have := congrArg UInt32.toNat h
  rw [hval, hval] at this
  have hc := c.toNat_lt
  have hc' := c'.toNat_lt
  exact ⟨UInt16.toNat_inj.mp (by omega), UInt16.toNat_inj.mp (by omega)⟩

end DoggyDns
