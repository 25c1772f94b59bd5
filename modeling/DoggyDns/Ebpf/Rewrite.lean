import DoggyDns.Ebpf.Program

/-!
# What the rewrite does to a frame

The in-place part of a reply, as three layers of patches over the payload:
`ethSwapped`, `ipRewritten` and `udpRewritten`. Each layer comes with its slice
lemmas (what it writes, and that it leaves the rest alone) and each function of
the program with an `_ok` lemma: inside the frame it does not fault, takes none
of its error returns, and leaves the named frame.
-/

namespace DoggyDns.Ebpf

open Bytes

/-! ## Payload -/

/-- The flags word of a synthesised NXDOMAIN. -/
def nxdomainFlags (queryFlags : UInt16) : UInt16 := 0x8000 ||| (queryFlags &&& 0x0100) ||| 0x0003

/-- A query turned into an NXDOMAIN reply in place. -/
def nxdomainFrame (f : Frame) (dns : Nat) : Frame :=
  patch (patch f (dns + 2) (be16Bytes (nxdomainFlags (be16At f (dns + 2))))) (dns + 6)
    [0, 0, 0, 0, 0, 0]

/-- The length between the two writes. -/
theorem length_nxdomainFrame_aux {f : Frame} {dns : Nat} (h : dns + DNS_HDR_LEN ≤ f.length) :
    (patch f (dns + 2) (be16Bytes (nxdomainFlags (be16At f (dns + 2))))).length = f.length := by
  simp only [DNS_HDR_LEN] at h
  exact length_patch (by simp; omega)

theorem writeNxdomain_ok {f : Frame} {dns : Nat} (h : dns + DNS_HDR_LEN ≤ f.length) :
    writeNxdomain f dns = .ok (.ok (), nxdomainFrame f dns) := by
  have l1 := length_nxdomainFrame_aux h
  have hz : be16Bytes 0 = [0, 0] := by decide
  simp only [DNS_HDR_LEN] at h
  unfold writeNxdomain
  rw [if_neg (by simp only [DNS_HDR_LEN]; omega), readU16Be_ok (by omega)]
  simp only [bind, Except.bind]
  rw [show 0x8000 ||| (be16At f (dns + 2) &&& 0x0100) ||| 0x0003 =
    nxdomainFlags (be16At f (dns + 2)) from rfl,
    writeU16Be_ok (by omega)]
  simp only
  generalize hg : patch f (dns + 2) (be16Bytes (nxdomainFlags (be16At f (dns + 2)))) = g at l1
  have l2 : (patch g (dns + 6) [0, 0]).length = g.length := length_patch (by simp; omega)
  have l3 : (patch g (dns + 6) [0, 0, 0, 0]).length = g.length := length_patch (by simp; omega)
  rw [writeU16Be_ok (by omega), hz]
  simp only
  rw [writeU16Be_ok (by omega), hz,
    show patch (patch g (dns + 6) [0, 0]) (dns + 8) [0, 0] = patch g (dns + 6) [0, 0, 0, 0] from
      patch_patch_append (u := [0, 0]) (v := [0, 0]) (by simp; omega)]
  simp only
  rw [writeU16Be_ok (by omega), hz,
    show patch (patch g (dns + 6) [0, 0, 0, 0]) (dns + 10) [0, 0] =
      patch g (dns + 6) [0, 0, 0, 0, 0, 0] from
      patch_patch_append (u := [0, 0, 0, 0]) (v := [0, 0]) (by simp; omega), nxdomainFrame, hg]

theorem length_nxdomainFrame {f : Frame} {dns : Nat} (h : dns + DNS_HDR_LEN ≤ f.length) :
    (nxdomainFrame f dns).length = f.length := by
  have l1 := length_nxdomainFrame_aux h
  simp only [DNS_HDR_LEN] at h
  unfold nxdomainFrame
  rw [length_patch (by simp; omega), l1]

/-- Copying chunks from `i` to a length that is whole chunks away is one patch. -/
theorem copyLoop_ok {dns respLen : Nat} {src : List UInt8} (hsrc : respLen ≤ src.length) :
    ∀ {rounds i : Nat} {f : Frame}, i ≤ respLen → (respLen - i) % COPY_CHUNK = 0 →
      respLen - i ≤ COPY_CHUNK * rounds → dns + respLen ≤ f.length →
      copyLoop dns src respLen rounds i f =
        .ok (.ok (), patch f (dns + i) (slice src i (respLen - i))) := by
  have hnil : ∀ (f : Frame) (k : Nat), patch f k [] = f := by simp [patch]
  intro rounds
  induction rounds with
  | zero =>
    intro i f hi _ hr _
    unfold copyLoop
    rw [show respLen - i = 0 by omega, slice_zero, hnil]
  | succ rounds ih =>
    intro i f hi hmod hr hf
    simp only [COPY_CHUNK] at hmod hr ih
    unfold copyLoop
    by_cases hlt : i < respLen
    · have hchunk : (slice src i 16).length = 16 := by simp; omega
      have hrest : (slice src (i + 16) (respLen - (i + 16))).length =
        respLen - (i + 16) := by simp; omega
      have l1 : (patch f (dns + i) (slice src i 16)).length = f.length := length_patch (by omega)
      rw [if_pos hlt, if_neg (by simp only [COPY_CHUNK]; omega),
        copyChunk_ok (by simp only [COPY_CHUNK]; omega) (by simp only [COPY_CHUNK]; omega)]
      simp only [bind, Except.bind, COPY_CHUNK]
      rw [ih (by omega) (by omega) (by omega) (by omega)]
      have happ := patch_patch_append (f := f) (i := dns + i) (u := slice src i 16)
        (v := slice src (i + 16) (respLen - (i + 16))) (by omega)
      rw [hchunk, ← slice_append, show 16 + (respLen - (i + 16)) = respLen - i by omega] at happ
      rw [← happ, Nat.add_assoc]
    · rw [if_neg hlt, show respLen - i = 0 by omega, slice_zero, hnil]

/-- A patch over the tail of an earlier one that reaches past its end. -/
theorem patch_patch_overlap {f src : List UInt8} {dns a b n : Nat} (hab : a ≤ b) (hbn : b ≤ n)
    (hf : dns + n ≤ f.length) (hs : n ≤ src.length) :
    patch (patch f dns (slice src 0 b)) (dns + a) (slice src a (n - a)) =
      patch f dns (slice src 0 n) := by
  have hb : (slice src 0 b).length = b := by simp; omega
  have ha : (slice src a (n - a)).length = n - a := by simp; omega
  have hn : (slice src 0 n).length = n := by simp; omega
  apply List.ext_getElem?
  intro j
  rw [getElem?_patch (by rw [length_patch (by omega)]; omega), getElem?_patch (by omega),
    getElem?_patch (by omega), hb, ha, hn]
  simp only [getElem?_slice, Nat.zero_add]
  by_cases h1 : dns + a ≤ j ∧ j < dns + a + (n - a)
  · rw [if_pos h1, if_pos (by omega), if_pos (by omega), if_pos (by omega)]
    congr 1
    omega
  rw [if_neg h1]
  by_cases h2 : dns ≤ j ∧ j < dns + b
  · rw [if_pos h2, if_pos (by omega), if_pos (by omega), if_pos (by omega)]
  · rw [if_neg h2, if_neg (by omega)]

/-- A cached reply copied over the query, with the query's transaction id. -/
def positiveFrame (f : Frame) (dns : Nat) (entry : CacheValue) (respLen : Nat)
    (txid : UInt16) : Frame :=
  patch (patch f dns (slice entry.respData 0 respLen)) dns (be16Bytes txid)

theorem length_cachedReply (entry : CacheValue) {respLen : Nat} (hmax : respLen ≤ MAX_DNS_LEN) :
    (slice entry.respData 0 respLen).length = respLen := by
  have hsrc : entry.respData.length = 512 := entry.length_respData
  simp only [MAX_DNS_LEN] at hmax
  rw [length_slice]
  omega

/-- The length before the transaction id is written. -/
theorem length_copied {f : Frame} {dns : Nat} (entry : CacheValue) {respLen : Nat}
    (hmax : respLen ≤ MAX_DNS_LEN) (hf : dns + respLen ≤ f.length) :
    (patch f dns (slice entry.respData 0 respLen)).length = f.length :=
  length_patch (by rwa [length_cachedReply entry hmax])

theorem land_chunk_mask (n : Nat) : n &&& (COPY_CHUNK - 1) = n % 16 :=
  Nat.and_two_pow_sub_one_eq_mod n 4

theorem writePositive_ok {f : Frame} {dns : Nat} {entry : CacheValue} {respLen : Nat}
    {txid : UInt16}
    (hmin : MIN_POSITIVE_LEN ≤ respLen) (hmax : respLen ≤ MAX_DNS_LEN)
    (hf : dns + respLen ≤ f.length) :
    writePositive f dns entry respLen txid =
      .ok (.ok (), positiveFrame f dns entry respLen txid) := by
  have hsrc : entry.respData.length = 512 := entry.length_respData
  have hall := length_cachedReply entry hmax
  have l1 := length_copied entry hmax hf
  simp only [MIN_POSITIVE_LEN, DNS_HDR_LEN, MAX_DNS_LEN] at hmin hmax
  have hfin : writeU16Be (patch f dns (slice entry.respData 0 respLen)) dns 0 txid =
      .ok (positiveFrame f dns entry respLen txid) := writeU16Be_ok (by omega)
  unfold writePositive
  rw [if_neg (by simp only [MIN_POSITIVE_LEN, DNS_HDR_LEN, MAX_DNS_LEN]; omega)]
  simp only [land_chunk_mask]
  rw [if_neg (by simp only [COPY_CHUNK]; omega)]
  by_cases hlead : respLen % 16 = 0
  · -- whole chunks: the loop alone
    rw [if_neg (by omega)]
    simp only [bind, Except.bind]
    rw [hlead, copyLoop_ok (by omega) (by omega) (by simp only [COPY_CHUNK]; omega)
      (by simp only [COPY_CHUNK]; omega) hf]
    simp only [Nat.add_zero, Nat.sub_zero]
    rw [if_neg (by omega), hfin]
  · -- a lead chunk that the loop then overlaps
    have hc : (slice entry.respData 0 16).length = 16 := by simp; omega
    have l0 : (patch f dns (slice entry.respData 0 16)).length = f.length := length_patch (by omega)
    have hcopy : copyLoop dns entry.respData respLen respLen (respLen % 16)
        (patch f dns (slice entry.respData 0 16)) =
        .ok (.ok (), patch f dns (slice entry.respData 0 respLen)) := by
      rw [copyLoop_ok (by omega) (Nat.mod_le _ _) (by simp only [COPY_CHUNK]; omega)
        (by simp only [COPY_CHUNK]; omega) (by omega),
        patch_patch_overlap (by omega) (by omega) hf (by omega)]
    rw [if_pos hlead, copyChunk_ok (by simp only [COPY_CHUNK]; omega)
      (by simp only [COPY_CHUNK]; omega)]
    simp only [bind, Except.bind, COPY_CHUNK]
    rw [hcopy]
    simp only
    rw [if_neg (by omega), hfin]

theorem length_positiveFrame {f : Frame} {dns : Nat} {entry : CacheValue} {respLen : Nat}
    {txid : UInt16}
    (hmin : MIN_POSITIVE_LEN ≤ respLen) (hmax : respLen ≤ MAX_DNS_LEN)
    (hf : dns + respLen ≤ f.length) :
    (positiveFrame f dns entry respLen txid).length = f.length := by
  have hsrc : entry.respData.length = 512 := entry.length_respData
  have hall := length_cachedReply entry hmax
  have l1 := length_copied entry hmax hf
  simp only [MIN_POSITIVE_LEN, DNS_HDR_LEN, MAX_DNS_LEN] at hmin hmax
  unfold positiveFrame
  rw [length_patch (by simp; omega), l1]

/-! ## Slices of a payload -/

theorem slice_nxdomainFrame_other {f : Frame} {dns j n : Nat} (h : dns + DNS_HDR_LEN ≤ f.length)
    (h1 : j + n ≤ dns + 2 ∨ dns + 4 ≤ j) (h2 : j + n ≤ dns + 6 ∨ dns + 12 ≤ j) :
    slice (nxdomainFrame f dns) j n = slice f j n := by
  have l1 := length_nxdomainFrame_aux h
  simp only [DNS_HDR_LEN] at h
  unfold nxdomainFrame
  rw [slice_patch_of_disjoint (by simp; omega) (by simp; omega),
    slice_patch_of_disjoint (by simp; omega) (by simp; omega)]

theorem slice_nxdomainFrame_flags {f : Frame} {dns : Nat} (h : dns + DNS_HDR_LEN ≤ f.length) :
    slice (nxdomainFrame f dns) (dns + 2) 2 = be16Bytes (nxdomainFlags (be16At f (dns + 2))) := by
  have l1 := length_nxdomainFrame_aux h
  simp only [DNS_HDR_LEN] at h
  unfold nxdomainFrame
  rw [slice_patch_of_disjoint (by simp; omega) (by simp)]
  exact slice_patch_self (by simp; omega)

theorem slice_nxdomainFrame_counts {f : Frame} {dns : Nat} (h : dns + DNS_HDR_LEN ≤ f.length) :
    slice (nxdomainFrame f dns) (dns + 6) 6 = [0, 0, 0, 0, 0, 0] := by
  have l1 := length_nxdomainFrame_aux h
  simp only [DNS_HDR_LEN] at h
  exact slice_patch_self (by simp; omega)

section Positive
variable {f : Frame} {dns : Nat} {entry : CacheValue} {respLen : Nat} {txid : UInt16}

theorem slice_positiveFrame_other {j n : Nat} (hmin : MIN_POSITIVE_LEN ≤ respLen)
    (hmax : respLen ≤ MAX_DNS_LEN) (hf : dns + respLen ≤ f.length)
    (h : j + n ≤ dns ∨ dns + respLen ≤ j) :
    slice (positiveFrame f dns entry respLen txid) j n = slice f j n := by
  have hsrc : entry.respData.length = 512 := entry.length_respData
  have hall := length_cachedReply entry hmax
  have l1 := length_copied entry hmax hf
  simp only [MIN_POSITIVE_LEN, DNS_HDR_LEN, MAX_DNS_LEN] at hmin hmax
  unfold positiveFrame
  rw [slice_patch_of_disjoint (by simp; omega) (by simp; omega),
    slice_patch_of_disjoint (by omega) (by omega)]

/-- The payload is the query's id and then the cached bytes. -/
theorem slice_positiveFrame_payload (hmin : MIN_POSITIVE_LEN ≤ respLen)
    (hmax : respLen ≤ MAX_DNS_LEN) (hf : dns + respLen ≤ f.length) :
    slice (positiveFrame f dns entry respLen txid) dns respLen =
      be16Bytes txid ++ slice entry.respData 2 (respLen - 2) := by
  have hsrc : entry.respData.length = 512 := entry.length_respData
  have hall := length_cachedReply entry hmax
  have l1 := length_copied entry hmax hf
  simp only [MIN_POSITIVE_LEN, DNS_HDR_LEN, MAX_DNS_LEN] at hmin hmax
  have hid : slice (positiveFrame f dns entry respLen txid) dns 2 = be16Bytes txid :=
    slice_patch_self (by simp; omega)
  have hrest : slice (positiveFrame f dns entry respLen txid) (dns + 2) (respLen - 2) =
      slice entry.respData 2 (respLen - 2) := by
    unfold positiveFrame
    rw [slice_patch_of_disjoint (by simp; omega) (by simp),
      slice_patch_within (by omega) (by omega) (by omega), Nat.add_sub_cancel_left,
      slice_slice _ _ _ _ _ (by omega), Nat.zero_add]
  rw [← hid, ← hrest, ← slice_append, Nat.add_sub_cancel' (by omega)]

end Positive

/-! ## Headers -/

/-- The two MAC addresses exchanged. -/
def ethSwapped (f : Frame) : Frame := swapped (swapped f 0 6 4) 4 10 2

/-- Addresses exchanged, total length set, DF set and the checksum updated. -/
def ipRewritten (f : Frame) (totLen : UInt16) : Frame :=
  let fragOff := be16At f 20 ||| 0x4000
  patch (patch (patch (swapped f 26 30 4) 16 (be16Bytes totLen)) 20 (be16Bytes fragOff)) 24
    (be16Bytes (updatedCheck (be16At f 24) (be16At f 16) totLen (be16At f 20) fragOff))

/-- Ports exchanged, length set and checksum cleared. -/
def udpRewritten (f : Frame) (udp : Nat) (len : UInt16) : Frame :=
  patch (patch (swapped f udp (udp + 2) 2) (udp + 4) (be16Bytes len)) (udp + 6) (be16Bytes 0)

section Eth
variable {f : Frame} (h : ETH_HDR_LEN ≤ f.length)
include h

theorem length_ethSwapped_aux : (swapped f 0 6 4).length = f.length := by
  simp only [ETH_HDR_LEN] at h
  exact length_swapped (by omega) (by omega)

@[simp] theorem length_ethSwapped : (ethSwapped f).length = f.length := by
  have l1 := length_ethSwapped_aux h
  simp only [ETH_HDR_LEN] at h
  unfold ethSwapped
  rw [length_swapped (by omega) (by omega), l1]

theorem slice_ethSwapped_dest : slice (ethSwapped f) 0 6 = slice f 6 6 := by
  have l1 := length_ethSwapped_aux h
  simp only [ETH_HDR_LEN] at h
  rw [slice_append _ 0 4 2, slice_append f 6 4 2, ethSwapped,
    slice_swapped_other (by omega) (by omega) (by omega) (by omega),
    slice_swapped_left (by omega) (by omega) (by omega),
    slice_swapped_left (by omega) (by omega) (by omega),
    slice_swapped_other (by omega) (by omega) (by omega) (by omega)]

theorem slice_ethSwapped_source : slice (ethSwapped f) 6 6 = slice f 0 6 := by
  have l1 := length_ethSwapped_aux h
  simp only [ETH_HDR_LEN] at h
  rw [slice_append _ 6 4 2, slice_append f 0 4 2, ethSwapped,
    slice_swapped_other (by omega) (by omega) (by omega) (by omega),
    slice_swapped_right (by omega) (by omega), slice_swapped_right (by omega) (by omega),
    slice_swapped_other (by omega) (by omega) (by omega) (by omega)]

theorem slice_ethSwapped_other {j n : Nat} (hj : 12 ≤ j) :
    slice (ethSwapped f) j n = slice f j n := by
  have l1 := length_ethSwapped_aux h
  simp only [ETH_HDR_LEN] at h
  unfold ethSwapped
  rw [slice_swapped_other (by omega) (by omega) (by omega) (by omega),
    slice_swapped_other (by omega) (by omega) (by omega) (by omega)]

end Eth

section Ip
variable {f : Frame} (totLen : UInt16) (h : ETH_HDR_LEN + IP_HDR_LEN ≤ f.length)
include h

/-- The lengths of the frames between the four writes. -/
theorem length_ipRewritten_aux (v w : UInt16) :
    (swapped f 26 30 4).length = f.length ∧
    (patch (swapped f 26 30 4) 16 (be16Bytes v)).length = f.length ∧
    (patch (patch (swapped f 26 30 4) 16 (be16Bytes v)) 20 (be16Bytes w)).length = f.length := by
  simp only [ETH_HDR_LEN, IP_HDR_LEN] at h
  have l1 : (swapped f 26 30 4).length = f.length := length_swapped (by omega) (by omega)
  have l2 : (patch (swapped f 26 30 4) 16 (be16Bytes v)).length = f.length := by
    rw [length_patch (by simp; omega), l1]
  refine ⟨l1, l2, ?_⟩
  rw [length_patch (by simp; omega), l2]

theorem length_ipRewritten : (ipRewritten f totLen).length = f.length := by
  obtain ⟨l1, l2, l3⟩ := length_ipRewritten_aux h totLen (be16At f 20 ||| 0x4000)
  simp only [ETH_HDR_LEN, IP_HDR_LEN] at h
  unfold ipRewritten
  rw [length_patch (by simp; omega), l3]

/-- Outside the four rewritten fields nothing changes. -/
theorem slice_ipRewritten_other {j n : Nat} (h1 : j + n ≤ 16 ∨ 18 ≤ j) (h2 : j + n ≤ 20 ∨ 22 ≤ j)
    (h3 : j + n ≤ 24 ∨ 34 ≤ j) : slice (ipRewritten f totLen) j n = slice f j n := by
  obtain ⟨l1, l2, l3⟩ := length_ipRewritten_aux h totLen (be16At f 20 ||| 0x4000)
  simp only [ETH_HDR_LEN, IP_HDR_LEN] at h
  unfold ipRewritten
  rw [slice_patch_of_disjoint (by simp; omega) (by simp; omega),
    slice_patch_of_disjoint (by simp; omega) (by simp; omega),
    slice_patch_of_disjoint (by simp; omega) (by simp; omega),
    slice_swapped_other (by omega) (by omega) (by omega) (by omega)]

theorem slice_ipRewritten_source : slice (ipRewritten f totLen) 26 4 = slice f 30 4 := by
  obtain ⟨l1, l2, l3⟩ := length_ipRewritten_aux h totLen (be16At f 20 ||| 0x4000)
  simp only [ETH_HDR_LEN, IP_HDR_LEN] at h
  unfold ipRewritten
  rw [slice_patch_of_disjoint (by simp; omega) (by simp),
    slice_patch_of_disjoint (by simp; omega) (by simp),
    slice_patch_of_disjoint (by simp; omega) (by simp),
    slice_swapped_left (by omega) (by omega) (by omega)]

theorem slice_ipRewritten_dest : slice (ipRewritten f totLen) 30 4 = slice f 26 4 := by
  obtain ⟨l1, l2, l3⟩ := length_ipRewritten_aux h totLen (be16At f 20 ||| 0x4000)
  simp only [ETH_HDR_LEN, IP_HDR_LEN] at h
  unfold ipRewritten
  rw [slice_patch_of_disjoint (by simp; omega) (by simp),
    slice_patch_of_disjoint (by simp; omega) (by simp),
    slice_patch_of_disjoint (by simp; omega) (by simp),
    slice_swapped_right (by omega) (by omega)]

theorem be16At_ipRewritten_totLen : be16At (ipRewritten f totLen) 16 = totLen := by
  obtain ⟨l1, l2, l3⟩ := length_ipRewritten_aux h totLen (be16At f 20 ||| 0x4000)
  simp only [ETH_HDR_LEN, IP_HDR_LEN] at h
  apply be16At_eq_of_slice
  unfold ipRewritten
  rw [slice_patch_of_disjoint (by simp; omega) (by simp),
    slice_patch_of_disjoint (by simp; omega) (by simp)]
  exact slice_patch_self (by simp; omega)

theorem be16At_ipRewritten_fragOff : be16At (ipRewritten f totLen) 20 = be16At f 20 ||| 0x4000 := by
  obtain ⟨l1, l2, l3⟩ := length_ipRewritten_aux h totLen (be16At f 20 ||| 0x4000)
  simp only [ETH_HDR_LEN, IP_HDR_LEN] at h
  apply be16At_eq_of_slice
  unfold ipRewritten
  rw [slice_patch_of_disjoint (by simp; omega) (by simp)]
  exact slice_patch_self (by simp; omega)

theorem be16At_ipRewritten_check : be16At (ipRewritten f totLen) 24 =
    updatedCheck (be16At f 24) (be16At f 16) totLen (be16At f 20) (be16At f 20 ||| 0x4000) := by
  obtain ⟨l1, l2, l3⟩ := length_ipRewritten_aux h totLen (be16At f 20 ||| 0x4000)
  simp only [ETH_HDR_LEN, IP_HDR_LEN] at h
  apply be16At_eq_of_slice
  exact slice_patch_self (by simp; omega)

end Ip

section Udp
variable {f : Frame} {udp : Nat} (len : UInt16) (h : udp + UDP_HDR_LEN ≤ f.length)
include h

theorem length_udpRewritten_aux :
    (swapped f udp (udp + 2) 2).length = f.length ∧
    (patch (swapped f udp (udp + 2) 2) (udp + 4) (be16Bytes len)).length = f.length := by
  simp only [UDP_HDR_LEN] at h
  have l1 : (swapped f udp (udp + 2) 2).length = f.length := length_swapped (by omega) (by omega)
  refine ⟨l1, ?_⟩
  rw [length_patch (by simp; omega), l1]

theorem length_udpRewritten : (udpRewritten f udp len).length = f.length := by
  obtain ⟨l1, l2⟩ := length_udpRewritten_aux len h
  simp only [UDP_HDR_LEN] at h
  unfold udpRewritten
  rw [length_patch (by simp; omega), l2]

theorem slice_udpRewritten_other {j n : Nat} (hj : j + n ≤ udp ∨ udp + UDP_HDR_LEN ≤ j) :
    slice (udpRewritten f udp len) j n = slice f j n := by
  obtain ⟨l1, l2⟩ := length_udpRewritten_aux len h
  simp only [UDP_HDR_LEN] at h hj
  unfold udpRewritten
  rw [slice_patch_of_disjoint (by simp; omega) (by simp; omega),
    slice_patch_of_disjoint (by simp; omega) (by simp; omega),
    slice_swapped_other (by omega) (by omega) (by omega) (by omega)]

theorem slice_udpRewritten_source : slice (udpRewritten f udp len) udp 2 = slice f (udp + 2) 2 := by
  obtain ⟨l1, l2⟩ := length_udpRewritten_aux len h
  simp only [UDP_HDR_LEN] at h
  unfold udpRewritten
  rw [slice_patch_of_disjoint (by simp; omega) (by simp),
    slice_patch_of_disjoint (by simp; omega) (by simp),
    slice_swapped_left (by omega) (by omega) (by omega)]

theorem slice_udpRewritten_dest : slice (udpRewritten f udp len) (udp + 2) 2 = slice f udp 2 := by
  obtain ⟨l1, l2⟩ := length_udpRewritten_aux len h
  simp only [UDP_HDR_LEN] at h
  unfold udpRewritten
  rw [slice_patch_of_disjoint (by simp; omega) (by simp),
    slice_patch_of_disjoint (by simp; omega) (by simp),
    slice_swapped_right (by omega) (by omega)]

theorem be16At_udpRewritten_len : be16At (udpRewritten f udp len) (udp + 4) = len := by
  obtain ⟨l1, l2⟩ := length_udpRewritten_aux len h
  simp only [UDP_HDR_LEN] at h
  apply be16At_eq_of_slice
  unfold udpRewritten
  rw [slice_patch_of_disjoint (by simp; omega) (by simp)]
  exact slice_patch_self (by simp; omega)

theorem be16At_udpRewritten_check : be16At (udpRewritten f udp len) (udp + 6) = 0 := by
  obtain ⟨l1, l2⟩ := length_udpRewritten_aux len h
  simp only [UDP_HDR_LEN] at h
  apply be16At_eq_of_slice
  exact slice_patch_self (by simp; omega)

end Udp

/-- All three headers turned around for a DNS message of `newDnsLen` bytes. -/
def replyHeaders (f : Frame) (ipHdrLen udp newDnsLen : Nat) : Frame :=
  udpRewritten (ipRewritten (ethSwapped f) (UInt16.ofNat (ipHdrLen + UDP_HDR_LEN + newDnsLen))) udp
    (UInt16.ofNat (UDP_HDR_LEN + newDnsLen))

/-- The writes of the IPv4 part of `finalize_headers`. -/
theorem ipRewrite_ok {f : Frame} (totLen : UInt16) (h : ETH_HDR_LEN + IP_HDR_LEN ≤ f.length)
    {g g' : Frame} (hg : g = patch (swapped f 26 30 4) 16 (be16Bytes totLen))
    (hg' : g' = patch g 20 (be16Bytes (be16At f 20 ||| 0x4000))) :
    swapU32 f ETH_HDR_LEN 12 16 = .ok (swapped f 26 30 4) ∧
    writeU16Be (swapped f 26 30 4) ETH_HDR_LEN 2 totLen = .ok g ∧
    writeU16Be g ETH_HDR_LEN 6 (be16At f 20 ||| 0x4000) = .ok g' ∧
    writeU16Be g' ETH_HDR_LEN 10
      (updatedCheck (be16At f 24) (be16At f 16) totLen (be16At f 20) (be16At f 20 ||| 0x4000)) =
        .ok (ipRewritten f totLen) := by
  obtain ⟨l1, l2, l3⟩ := length_ipRewritten_aux h totLen (be16At f 20 ||| 0x4000)
  subst hg hg'
  simp only [ETH_HDR_LEN, IP_HDR_LEN] at h ⊢
  exact ⟨swapU32_ok (by omega) (by omega), writeU16Be_ok (by omega), writeU16Be_ok (by omega),
    writeU16Be_ok (by omega)⟩

/-- The writes of the UDP part. -/
theorem udpRewrite_ok {f : Frame} {udp : Nat} (len : UInt16) (h : udp + UDP_HDR_LEN ≤ f.length)
    {g : Frame}
    (hg : g = patch (swapped f udp (udp + 2) 2) (udp + 4) (be16Bytes len)) :
    swapU16 f udp 0 2 = .ok (swapped f udp (udp + 2) 2) ∧
    writeU16Be (swapped f udp (udp + 2) 2) udp 4 len = .ok g ∧
    writeU16Be g udp 6 0 = .ok (udpRewritten f udp len) := by
  obtain ⟨l1, l2⟩ := length_udpRewritten_aux len h
  subst hg
  simp only [UDP_HDR_LEN] at h
  exact ⟨swapU16_ok (by omega) (by omega), writeU16Be_ok (by omega), writeU16Be_ok (by omega)⟩

theorem finalizeHeaders_ok {f : Frame} {ipHdrLen udp newDnsLen : Nat}
    (hip : ETH_HDR_LEN + IP_HDR_LEN ≤ f.length) (hudp : udp + UDP_HDR_LEN ≤ f.length) :
    finalizeHeaders f ipHdrLen udp newDnsLen =
      .ok (.ok (), replyHeaders f ipHdrLen udp newDnsLen) := by
  have heth : ETH_HDR_LEN ≤ f.length := by omega
  have l0 := length_ethSwapped_aux heth
  have l1 := length_ethSwapped heth
  have e1 : swapU32 f 0 0 6 = .ok (swapped f 0 6 4) := by
    simp only [ETH_HDR_LEN] at heth
    exact swapU32_ok (by omega) (by omega)
  have e2 : swapU16 (swapped f 0 6 4) 0 4 10 = .ok (ethSwapped f) := by
    simp only [ETH_HDR_LEN] at heth
    exact swapU16_ok (by omega) (by omega)
  unfold finalizeHeaders
  rw [if_neg (by omega), e1]
  simp only [bind, Except.bind]
  rw [e2]
  simp only
  rw [if_neg (by omega), replyHeaders]
  generalize ethSwapped f = g at l1 ⊢
  generalize UInt16.ofNat (ipHdrLen + UDP_HDR_LEN + newDnsLen) = totLen
  obtain ⟨i1, i2, i3, i4⟩ := ipRewrite_ok (f := g) totLen (by omega) rfl rfl
  have l2 := length_ipRewritten (f := g) totLen (by omega)
  have hfit : udp + UDP_HDR_LEN ≤ (ipRewritten g totLen).length := by omega
  obtain ⟨u1, u2, u3⟩ := udpRewrite_ok (UInt16.ofNat (UDP_HDR_LEN + newDnsLen)) hfit rfl
  have r1 : readU16Be g ETH_HDR_LEN 2 = .ok (be16At g 16) :=
    readU16Be_ok (by simp only [ETH_HDR_LEN, IP_HDR_LEN] at hip ⊢; omega)
  have r2 : readU16Be g ETH_HDR_LEN 6 = .ok (be16At g 20) :=
    readU16Be_ok (by simp only [ETH_HDR_LEN, IP_HDR_LEN] at hip ⊢; omega)
  have r3 : readU16Be g ETH_HDR_LEN 10 = .ok (be16At g 24) :=
    readU16Be_ok (by simp only [ETH_HDR_LEN, IP_HDR_LEN] at hip ⊢; omega)
  simp only [r1, r2, r3, i1, i2, i3, i4]
  rw [if_neg (by omega)]
  simp only [u1, u2, u3]

theorem length_replyHeaders {f : Frame} {ipHdrLen udp newDnsLen : Nat}
    (hip : ETH_HDR_LEN + IP_HDR_LEN ≤ f.length) (hudp : udp + UDP_HDR_LEN ≤ f.length) :
    (replyHeaders f ipHdrLen udp newDnsLen).length = f.length := by
  have l1 := length_ethSwapped (f := f) (by omega)
  have l2 := length_ipRewritten (f := ethSwapped f)
    (UInt16.ofNat (ipHdrLen + UDP_HDR_LEN + newDnsLen)) (by omega)
  unfold replyHeaders
  rw [length_udpRewritten _ (by omega), l2, l1]

end DoggyDns.Ebpf
