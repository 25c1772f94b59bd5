import DoggyDns.Xdp.Cache

/-!
# Cache keys separate names

`make_cache_key` writes a name's wire form into a buffer of fixed size and
hashes it word by word. The form ends itself, so neither the padding of the
last word nor a label boundary makes two names one stream; and a step of the
hash loses nothing, so streams that differ in one word get different hashes.
-/

namespace DoggyDns

open Bytes Swar WordHash

/-- The words hashed for a name. -/
def keyStream (name : Name) : List UInt64 := words (keyWire name)

theorem makeCacheKey_nameHash (name : Name) (qtype qclass : UInt16) :
    (makeCacheKey name qtype qclass).nameHash = fnv1a.run (keyStream name) :=
  fnv1a64With_eq fnv1a (keyWire name)

/-! ## Names -/

/-- The wire form reads back out of its padded words. -/
theorem readQname_pad {ls : List Label} (h : LabelsOk ls) :
    ∃ rest, readQname (pad (wire ls)) = some (ls, rest) :=
  ⟨_, readQname_wire h _⟩

theorem keyStream_eq_iff (a b : Name) : keyStream a = keyStream b ↔ a.EqIgnoreCase b := by
  unfold keyStream
  rw [keyWire_eq, keyWire_eq]
  constructor
  · intro h
    have hpad : pad (wire (a.labels.map Label.lower)) = pad (wire (b.labels.map Label.lower)) :=
      (pad_eq_iff _ _).mpr ((words_eq_iff _ _).mp h)
    obtain ⟨_, ha⟩ := readQname_pad a.labels_ok.map_lower
    obtain ⟨_, hb⟩ := readQname_pad b.labels_ok.map_lower
    rw [hpad, hb] at ha
    exact (congrArg Prod.fst (Option.some.inj ha)).symm
  · intro h
    rw [show a.labels.map Label.lower = b.labels.map Label.lower from h]

/-! ## Hashes -/

/-- The inverse of the prime modulo 2^64. -/
def fnvPrimeInverse : UInt64 := 0xce965057aff6957b

theorem fnvPrime_mul_inverse : FNV_PRIME * fnvPrimeInverse = 1 := by decide

theorem fnv1a_cancels : fnv1a.Cancels := by
  have hmul : ∀ {x y : UInt64}, x * FNV_PRIME = y * FNV_PRIME → x = y := by
    intro x y h
    have := congrArg (· * fnvPrimeInverse) h
    simpa only [UInt64.mul_assoc, fnvPrime_mul_inverse, UInt64.mul_one] using this
  exact ⟨fun h => (UInt64.xor_left_inj _).mp (hmul h),
    fun h => (UInt64.xor_right_inj _).mp (hmul h)⟩

/-! ## The buffer -/

/-- `*wire.add(pos) = byte; pos += 1`. -/
def writeByte (st : List UInt8 × Nat) (byte : UInt8) : Except Fault (List UInt8 × Nat) := do
  let wire ← store st.1 st.2 [byte]
  return (wire, st.2 + 1)

/-- The writes of `make_cache_key`: the buffer after them and the write position. -/
def writeKey (storage : List UInt8) (name : Name) : Except Fault (List UInt8 × Nat) := do
  let st ← name.labels.foldlM (fun st label => do
    let st ← writeByte st (UInt8.ofNat label.length)
    label.foldlM (fun st byte => writeByte st (toAsciiLowercase byte)) st) (storage, 0)
  writeByte st 0

theorem foldlM_writeByte {buf : List UInt8} {pos : Nat} (bs : List UInt8)
    (h : pos + bs.length ≤ buf.length) :
    bs.foldlM writeByte (buf, pos) = .ok (patch buf pos bs, pos + bs.length) := by
  induction bs generalizing buf pos with
  | nil => simp [patch, pure, Except.pure]
  | cons b bs ih =>
    rw [List.length_cons] at h
    have hb : pos + [b].length ≤ buf.length := by
      rw [List.length_singleton]
      omega
    have hstore : writeByte (buf, pos) b = .ok (patch buf pos [b], pos + 1) := by
      unfold writeByte
      rw [store_ok hb]
      rfl
    rw [List.foldlM_cons, hstore]
    refine (ih (by rw [length_patch hb]; omega)).trans ?_
    have hpatch := patch_patch_append (f := buf) (u := [b]) (v := bs) (i := pos)
      (by rw [List.length_singleton]; omega)
    rw [List.length_singleton] at hpatch
    rw [hpatch, List.length_cons, Nat.add_assoc, Nat.add_comm 1]
    rfl

/-- The writes, one after the other, are the bytes hashed. -/
theorem writeKey_eq (storage : List UInt8) (name : Name) :
    writeKey storage name = (keyWire name).foldlM writeByte (storage, 0) := by
  have hfold : ∀ (ls : List Label) (st : List UInt8 × Nat),
      (ls.foldlM (fun st label => do
        let st ← writeByte st (UInt8.ofNat label.length)
        label.foldlM (fun st byte => writeByte st (toAsciiLowercase byte)) st) st >>=
          fun st => writeByte st 0) = (wire (ls.map Label.lower)).foldlM writeByte st := by
    intro ls
    induction ls with
    | nil => intro st; simp [wire]
    | cons l ls ih =>
      intro st
      simp only [List.foldlM_cons, List.map_cons, wire, Label.length_lower, List.foldlM_append,
        bind_assoc, ih]
      simp only [Label.lower, List.foldlM_map]
  rw [keyWire_eq]
  exact hfold name.labels (storage, 0)

/-- The wire form fits a name's maximal length, two bytes short of the buffer. -/
theorem length_keyWire_le (name : Name) : (keyWire name).length ≤ Name.MAX_LENGTH := by
  rw [keyWire_eq, length_wire_map_lower]
  exact name.wire_le

theorem writeKey_ok {storage : List UInt8} (h : storage.length = Name.MAX_LENGTH + 2)
    (name : Name) :
    ∃ buf pos, writeKey storage name = .ok (buf, pos) ∧ pos ≤ Name.MAX_LENGTH ∧
      buf.take pos = keyWire name := by
  have hlen := length_keyWire_le name
  have hrun := (writeKey_eq storage name).trans (foldlM_writeByte _ (by omega))
  rw [Nat.zero_add] at hrun
  refine ⟨_, _, hrun, hlen, ?_⟩
  have hslice := slice_patch_self (b := storage) (v := keyWire name) (i := 0) (by omega)
  rwa [slice, List.drop_zero] at hslice

/-- **Cache keys separate names.** The hashed streams of two names are equal exactly when the
names are, ignoring case; streams of one length that differ in one word hash differently; and
no write leaves the buffer. -/
theorem keys_separate_names :
    (∀ a b : Name, keyStream a = keyStream b ↔ a.EqIgnoreCase b) ∧
    (∀ (a b : Name) (qtype qtype' qclass qclass' : UInt16),
      (keyStream a).length = (keyStream b).length →
      (∃! i : Nat, (keyStream a)[i]? ≠ (keyStream b)[i]?) →
      (makeCacheKey a qtype qclass).nameHash ≠ (makeCacheKey b qtype' qclass').nameHash) ∧
    ∀ (name : Name) (storage : List UInt8), storage.length = Name.MAX_LENGTH + 2 →
      ∃ buf pos, writeKey storage name = .ok (buf, pos) ∧ pos ≤ Name.MAX_LENGTH ∧
        buf.take pos = keyWire name := by
  refine ⟨keyStream_eq_iff, fun a b qtype qtype' qclass qclass' hlen hone => ?_,
    fun name storage h => writeKey_ok h name⟩
  rw [makeCacheKey_nameHash, makeCacheKey_nameHash]
  exact fnv1a_cancels.run_ne hlen hone

end DoggyDns
