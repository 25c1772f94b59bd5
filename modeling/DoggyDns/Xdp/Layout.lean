import DoggyDns.Ebpf.Program
import DoggyDns.Lib.ReprC
import DoggyDns.Lib.Run

/-!
# The shared types in memory

`types.rs` declares the map types once for each side, the map moves their bytes
and compares keys byte by byte. None of the types has padding, so a key has one
image, an image one key, and a history of inserts and evictions leaves a map of
bytes that reads as the map of records the rest of the model uses.
-/

namespace DoggyDns

open ReprC Ebpf Lts

/-! ## Declarations -/

namespace Xdp

def CacheKey.fields : List Field :=
  [⟨"name_hash", 8, 1⟩, ⟨"qtype_class", 4, 1⟩, ⟨"_pad", 4, 1⟩]

def CacheValue.fields : List Field :=
  [⟨"resp_data", 1, MAX_RESPONSE_SIZE⟩, ⟨"resp_len", 2, 1⟩, ⟨"flags", 2, 1⟩, ⟨"_pad", 4, 1⟩,
    ⟨"expires_at", 8, 1⟩]

def XdpRuntimeConfig.fields : List Field := [⟨"dns_port", 2, 1⟩]

def XdpStats.fields : List Field :=
  [⟨"hit", 8, 1⟩, ⟨"negative_hit", 8, 1⟩, ⟨"miss", 8, 1⟩, ⟨"expired", 8, 1⟩, ⟨"drop", 8, 1⟩]

end Xdp

-- The eBPF program's own `types.rs`.
namespace Ebpf.Types

def CacheKey.fields : List Field :=
  [⟨"name_hash", 8, 1⟩, ⟨"qtype_class", 4, 1⟩, ⟨"_pad", 4, 1⟩]

def CacheValue.fields : List Field :=
  [⟨"resp_data", 1, 512⟩, ⟨"resp_len", 2, 1⟩, ⟨"flags", 2, 1⟩, ⟨"_pad", 4, 1⟩,
    ⟨"expires_at", 8, 1⟩]

def XdpRuntimeConfig.fields : List Field := [⟨"dns_port", 2, 1⟩]

def XdpStats.fields : List Field :=
  [⟨"hit", 8, 1⟩, ⟨"negative_hit", 8, 1⟩, ⟨"miss", 8, 1⟩, ⟨"expired", 8, 1⟩, ⟨"drop", 8, 1⟩]

end Ebpf.Types

/-- The types both sides declare, with the size userspace asserts at compile time. -/
def sharedTypes : List (List Field × List Field × Nat) :=
  [(Xdp.CacheKey.fields, Types.CacheKey.fields, 16),
    (Xdp.CacheValue.fields, Types.CacheValue.fields, 528),
    (Xdp.XdpRuntimeConfig.fields, Types.XdpRuntimeConfig.fields, 2),
    (Xdp.XdpStats.fields, Types.XdpStats.fields, 40)]

/-- The asserted sizes leave no room for padding. -/
theorem sharedTypes_packed : ∀ t ∈ sharedTypes, t.1 = t.2.1 ∧ size t.1 = t.2.2 ∧
    size t.1 = dataSize t.1 ∧ ∀ f ∈ t.1, 0 < f.width := by
  decide

/-! ## Images -/

section
variable (e : Endian)

/-- What a key holds in the field of this name. -/
def CacheKey.field (k : CacheKey) (name : String) : List UInt8 :=
  if name = "name_hash" then native e 8 k.nameHash.toNat
  else if name = "qtype_class" then native e 4 k.qtypeClass.toNat
  else if name = "_pad" then native e 4 k.pad.toNat
  else []

/-- What a record holds in the field of this name. -/
def CacheValue.field (v : CacheValue) (name : String) : List UInt8 :=
  if name = "resp_data" then v.respData
  else if name = "resp_len" then native e 2 v.respLen.toNat
  else if name = "flags" then native e 2 v.flags.toNat
  else if name = "_pad" then native e 4 v.pad.toNat
  else if name = "expires_at" then native e 8 v.expiresAt.toNat
  else []

def CacheKey.image (k : CacheKey) : List UInt8 := packed Xdp.CacheKey.fields (k.field e)

def CacheValue.image (v : CacheValue) : List UInt8 := packed Xdp.CacheValue.fields (v.field e)

variable {e} {k k' : CacheKey} {v v' : CacheValue} {bytes : List UInt8}

theorem CacheKey.image_eq (k : CacheKey) : k.image e = native e 8 k.nameHash.toNat ++
    (native e 4 k.qtypeClass.toNat ++ (native e 4 k.pad.toNat ++ [])) := rfl

theorem CacheValue.image_eq (v : CacheValue) : v.image e = v.respData ++
    (native e 2 v.respLen.toNat ++ (native e 2 v.flags.toNat ++ (native e 4 v.pad.toNat ++
      (native e 8 v.expiresAt.toNat ++ [])))) := rfl

theorem CacheKey.represents_iff :
    Represents Xdp.CacheKey.fields (k.field e) bytes ↔ bytes = k.image e := by
  obtain ⟨-, -, hsize, hw⟩ := sharedTypes_packed _ (List.mem_of_getElem? (i := 0) rfl)
  rw [ReprC.represents_iff hw hsize]
  refine and_iff_right ?_
  simp only [Xdp.CacheKey.fields, List.forall_mem_cons]
  exact ⟨length_native .., length_native .., length_native .., List.forall_mem_nil _⟩

theorem CacheValue.represents_iff :
    Represents Xdp.CacheValue.fields (v.field e) bytes ↔ bytes = v.image e := by
  obtain ⟨-, -, hsize, hw⟩ := sharedTypes_packed _ (List.mem_of_getElem? (i := 1) rfl)
  rw [ReprC.represents_iff hw hsize]
  refine and_iff_right ?_
  simp only [Xdp.CacheValue.fields, List.forall_mem_cons]
  exact ⟨v.length_respData, length_native .., length_native .., length_native ..,
    length_native .., List.forall_mem_nil _⟩

theorem CacheKey.image_inj (h : k.image e = k'.image e) : k = k' := by
  obtain ⟨hash, class', pad⟩ := k
  obtain ⟨hash', class'', pad'⟩ := k'
  simp only [image_eq] at h
  obtain ⟨hhash, h⟩ := List.append_inj h (by simp)
  obtain ⟨hclass, h⟩ := List.append_inj h (by simp)
  obtain ⟨hpad, -⟩ := List.append_inj h (by simp)
  rw [UInt64.toNat_inj.mp (native_inj hash.toNat_lt hash'.toNat_lt hhash),
    UInt32.toNat_inj.mp (native_inj class'.toNat_lt class''.toNat_lt hclass),
    UInt32.toNat_inj.mp (native_inj pad.toNat_lt pad'.toNat_lt hpad)]

theorem CacheValue.image_inj (h : v.image e = v'.image e) : v = v' := by
  obtain ⟨data, len, flags, pad, expires, hdata⟩ := v
  obtain ⟨data', len', flags', pad', expires', hdata'⟩ := v'
  simp only [image_eq] at h
  obtain ⟨hresp, h⟩ := List.append_inj h (by rw [hdata, hdata'])
  obtain ⟨hlen, h⟩ := List.append_inj h (by simp)
  obtain ⟨hflags, h⟩ := List.append_inj h (by simp)
  obtain ⟨hpad, h⟩ := List.append_inj h (by simp)
  obtain ⟨hexpires, -⟩ := List.append_inj h (by simp)
  subst hresp
  obtain rfl := UInt16.toNat_inj.mp (native_inj len.toNat_lt len'.toNat_lt hlen)
  obtain rfl := UInt16.toNat_inj.mp (native_inj flags.toNat_lt flags'.toNat_lt hflags)
  obtain rfl := UInt32.toNat_inj.mp (native_inj pad.toNat_lt pad'.toNat_lt hpad)
  obtain rfl := UInt64.toNat_inj.mp (native_inj expires.toNat_lt expires'.toNat_lt hexpires)
  rfl

end

/-! ## The map of bytes -/

/-- The kernel's map, which knows nothing of records. -/
abbrev ByteMap := List UInt8 → Option (List UInt8)

inductive MapMove where
  /-- `DnsCacheMap::insert`. -/
  | insert (k : CacheKey) (v : CacheValue)
  /-- The kernel evicts an entry. -/
  | evict (key : List UInt8)

/-- What the moves do to the bytes: userspace hands the kernel some image of its records. -/
inductive ByteStep (e : Endian) : ByteMap → MapMove → ByteMap → Prop
  | insert {m : ByteMap} {k : CacheKey} {v : CacheValue} {kb vb : List UInt8}
      (hk : Represents Xdp.CacheKey.fields (k.field e) kb)
      (hv : Represents Xdp.CacheValue.fields (v.field e) vb) :
      ByteStep e m (.insert k v) (Function.update m kb (some vb))
  | evict {m : ByteMap} {kb : List UInt8} :
      ByteStep e m (.evict kb) (Function.update m kb none)

/-- What the moves do to the map of records. -/
def MapMove.apply (e : Endian) (cache : CacheKey → Option CacheValue) :
    MapMove → CacheKey → Option CacheValue
  | .insert k v => Function.update cache k (some v)
  | .evict kb => fun k => if k.image e = kb then none else cache k

/-- The program's lookup: the bytes under an image of its key, read as its own record. -/
def Finds (e : Endian) (m : ByteMap) (k : CacheKey) (v : CacheValue) : Prop :=
  ∃ kb vb, Represents Types.CacheKey.fields (k.field e) kb ∧ m kb = some vb ∧
    Represents Types.CacheValue.fields (v.field e) vb

/-- The bytes are those of the records. -/
def Reads (e : Endian) (m : ByteMap) (cache : CacheKey → Option CacheValue) : Prop :=
  ∀ k, m (k.image e) = (cache k).map (CacheValue.image e)

section
variable {e : Endian} {m m' : ByteMap} {cache : CacheKey → Option CacheValue}

theorem Reads.step (h : Reads e m cache) {move : MapMove} (hs : ByteStep e m move m') :
    Reads e m' (move.apply e cache) := by
  intro k
  cases hs with
  | @insert k' v kb vb hk hv =>
    obtain rfl := CacheKey.represents_iff.mp hk
    obtain rfl := CacheValue.represents_iff.mp hv
    by_cases hkey : k = k'
    · subst hkey
      rw [MapMove.apply, Function.update_self, Function.update_self]
      rfl
    · rw [MapMove.apply, Function.update_of_ne hkey,
        Function.update_of_ne (mt CacheKey.image_inj hkey)]
      exact h k
  | @evict kb =>
    by_cases hkey : k.image e = kb
    · have hnone : (MapMove.evict kb).apply e cache k = none := if_pos hkey
      rw [hnone, hkey, Function.update_self]
      rfl
    · have hkept : (MapMove.evict kb).apply e cache k = cache k := if_neg hkey
      rw [hkept, Function.update_of_ne hkey]
      exact h k

/-- The program finds what is there. -/
theorem Reads.finds_iff (h : Reads e m cache) (k : CacheKey) (v : CacheValue) :
    Finds e m k v ↔ cache k = some v := by
  constructor
  · rintro ⟨kb, vb, hk, hfound, hv⟩
    obtain rfl := CacheKey.represents_iff.mp hk
    obtain rfl := CacheValue.represents_iff.mp hv
    rw [h k] at hfound
    obtain ⟨v', hv', himage⟩ := Option.map_eq_some_iff.mp hfound
    rw [hv', CacheValue.image_inj himage]
  · intro hv
    refine ⟨k.image e, v.image e, CacheKey.represents_iff.mpr rfl, ?_,
      CacheValue.represents_iff.mpr rfl⟩
    rw [h k, hv]
    rfl

end

theorem run_reads {e : Endian} {m₀ m : ByteMap} {moves : List MapMove}
    {cache : CacheKey → Option CacheValue} (h : Run (ByteStep e) m₀ moves m)
    (h₀ : Reads e m₀ cache) :
    Reads e m (moves.foldl (MapMove.apply e) cache) := by
  induction h with
  | nil => exact h₀
  | snoc _ hs ih =>
    rw [List.foldl_append]
    exact ih.step hs

/-- **The bytes in the map are the records.** The two declarations of every shared type are the
same, with no padding; and after any inserts and evictions, whatever stands in bytes no field
covers, the program, which reads each field by its own declaration, finds under a key exactly the
record that the map of records holds there. -/
theorem byteMap_refines {e : Endian} {moves : List MapMove} {m : ByteMap}
    (h : Run (ByteStep e) (fun _ => none) moves m) (k : CacheKey) (v : CacheValue) :
    (∀ t ∈ sharedTypes, t.1 = t.2.1 ∧ size t.1 = t.2.2 ∧ size t.1 = dataSize t.1) ∧
    (Finds e m k v ↔ moves.foldl (MapMove.apply e) (fun _ => none) k = some v) := by
  refine ⟨fun t ht => ?_, (run_reads h fun _ => rfl).finds_iff k v⟩
  obtain ⟨hsame, hsize, hpacked, -⟩ := sharedTypes_packed t ht
  exact ⟨hsame, hsize, hpacked⟩

/-- A key and a record inserted under it, and the eviction of another key. -/
theorem byteMap_refines_sample :
    ∃ m, Run (ByteStep .little) (fun _ => none)
        [.insert ⟨1, 2, 0⟩ (.newNegative [] 5), .evict (CacheKey.image .little ⟨3, 2, 0⟩)] m ∧
      Finds .little m ⟨1, 2, 0⟩ (.newNegative [] 5) := by
  have hinsert : Run (ByteStep .little) (fun _ => none)
      [.insert ⟨1, 2, 0⟩ (.newNegative [] 5)] _ :=
    .snoc .nil (.insert (CacheKey.represents_iff.mpr rfl) (CacheValue.represents_iff.mpr rfl))
  have hother : CacheKey.image .little ⟨1, 2, 0⟩ ≠ CacheKey.image .little ⟨3, 2, 0⟩ := fun h =>
    absurd (CacheKey.image_inj h) (by decide)
  refine ⟨_, hinsert.snoc .evict, (byteMap_refines (hinsert.snoc .evict) _ _).2.mpr ?_⟩
  simp only [List.foldl_append, List.foldl_cons, List.foldl_nil, MapMove.apply, if_neg hother,
    Function.update_self]

end DoggyDns
