import DoggyDns.Ebpf.Packet
import DoggyDns.Xdp.Cache

/-!
# The kernel question parser

`parse_dns_question`: the QNAME is scanned eight bytes at a time up to its
first zero byte, lowercased with SWAR masks and folded into the name hash one
word at a time, with a byte-at-a-time path for the last bytes of the frame.

`parseDnsQuestionWith_eq` is the parser's specification: it never faults, it
succeeds exactly when the first zero byte stands within the 255-byte name limit
with four more bytes after it, and it hashes the lowercased bytes up to that
zero as `fnv1a_64` would. Callers use it and never unfold the scan.
-/

namespace DoggyDns.Ebpf

open Bytes Swar WordHash

/-- A QNAME is at most 255 bytes on the wire, including the root label. -/
def MAX_QNAME_LEN : Nat := 255
def DNS_HDR_LEN : Nat := 12

def FNV_OFFSET_BASIS : UInt64 := 0xcbf29ce484222325
def FNV_PRIME : UInt64 := 0x100000001b3

def BYTE_ONES : UInt64 := 0x0101010101010101
def BYTE_HIGHS : UInt64 := 0x8080808080808080

/-- Fold one little-endian 8-byte word of QNAME into the running hash. -/
def fnv1aWord (hash word : UInt64) : UInt64 := (hash ^^^ word) * FNV_PRIME

/-- The kernel's hash. -/
def fnv1a : WordHasher UInt64 := ⟨FNV_OFFSET_BASIS, fnv1aWord⟩

/-- The two hand-mirrored copies of the hash are one. -/
theorem fnv1a_eq : fnv1a = DoggyDns.fnv1a := rfl

/-- Lowercase ASCII letters in every byte, branchlessly. -/
def lowerWord (word : UInt64) : UInt64 :=
  let geA := ((word ||| BYTE_HIGHS) - 0x4141414141414141) &&& ~~~word &&& BYTE_HIGHS
  let gtZ := ((word ||| BYTE_HIGHS) - 0x5B5B5B5B5B5B5B5B) &&& ~~~word &&& BYTE_HIGHS
  word ||| ((geA &&& ~~~gtZ) >>> 2)

/-- The `while i < 8` loop of `zero_index`, with `n` rounds left. -/
def zeroIndexFrom (word : UInt64) : (n i : Nat) → Nat
  | 0, _ => 8
  | n + 1, i =>
    if (word >>> UInt64.ofNat (i * 8)) &&& 0xFF = 0 then i else zeroIndexFrom word n (i + 1)

/-- Index of the first zero byte in `word`, or 8 if there is none. -/
def zeroIndex (word : UInt64) : Nat := zeroIndexFrom word 8 0

/-- The byte-at-a-time path, with `n` rounds left: the assembled word and the
position and name length after the terminator. -/
def tailWord (f : Frame) : (n i pos nameLen : Nat) → UInt64 →
    Except Fault (Option (UInt64 × Nat × Nat))
  | 0, _, _, _, _ => .ok none
  | n + 1, i, pos, nameLen, word =>
    if nameLen ≥ MAX_QNAME_LEN then .ok none
    else if pos + 2 > f.length then .ok none
    else do
      let byte ← load8 f pos
      let word := word ||| ((toAsciiLowercase byte).toUInt64 <<< UInt64.ofNat (i * 8))
      if byte = 0 then .ok (some (word, pos + 1, nameLen + 1))
      else tailWord f n (i + 1) (pos + 1) (nameLen + 1) word

section
variable {H : Type} (hs : WordHasher H) (f : Frame)

/-- The scan loop. Every round adds eight to `nameLen`, so `fuel` runs out only
where the name limit ends the loop anyway. -/
def scanQname : (fuel : Nat) → H → (pos nameLen : Nat) → Except Fault (Option (H × Nat × Nat))
  | 0, _, _, _ => .ok none
  | fuel + 1, hash, pos, nameLen =>
    if nameLen ≥ MAX_QNAME_LEN then .ok none
    else if pos + 8 ≤ f.length then do
      let word := le64 (← load f pos 8)
      let zeros := (word - BYTE_ONES) &&& ~~~word &&& BYTE_HIGHS
      if zeros = 0 then
        scanQname fuel (hs.word hash (lowerWord word)) (pos + 8) (nameLen + 8)
      else
        let consumed := zeroIndex word + 1
        if nameLen + consumed > MAX_QNAME_LEN then .ok none
        else
          let first := zeros &&& -zeros
          .ok (some (hs.word hash (lowerWord word &&& (first - 1)), pos + consumed,
            nameLen + consumed))
    else do
      match ← tailWord f 8 0 pos nameLen 0 with
      | none => .ok none
      | some (word, pos, nameLen) => .ok (some (hs.word hash word, pos, nameLen))

/-- QTYPE and QCLASS after the root label, and the length of the question section. -/
def readQuestionEnd : Option (H × Nat × Nat) → Except Fault (Option (H × UInt16 × UInt16 × Nat))
  | none => .ok none
  | some (hash, qPtr, nameLen) =>
    if qPtr + 4 > f.length then .ok none
    else do
      let qtype := be16 (← load8 f qPtr) (← load8 f (qPtr + 1))
      let qclass := be16 (← load8 f (qPtr + 2)) (← load8 f (qPtr + 3))
      .ok (some (hash, qtype, qclass, nameLen + 4))

/-- `parse_dns_question` at any word hash. -/
def parseDnsQuestionWith (dnsOffset : Nat) : Except Fault (Option (H × UInt16 × UInt16 × Nat)) := do
  let scanned ← scanQname hs f MAX_QNAME_LEN hs.basis (dnsOffset + DNS_HDR_LEN) 0
  readQuestionEnd f scanned

end

def parseDnsQuestion (f : Frame) (dnsOffset : Nat) :
    Except Fault (Option (UInt64 × UInt16 × UInt16 × Nat)) :=
  parseDnsQuestionWith fnv1a f dnsOffset

/-! ## The word tricks -/

theorem forall_uint8 {P : UInt8 → Prop} (h : ∀ n : Fin 256, P (UInt8.ofNat n.val))
    (b : UInt8) : P b := by
  have := h ⟨b.toNat, b.toNat_lt⟩
  rwa [UInt8.ofNat_toNat] at this

/-- The flag byte of `b ≥ c` for a byte below 0x80. -/
def geFlag (c b : UInt8) : UInt8 := ((b ||| 0x80) - c) &&& ~~~b &&& 0x80

theorem lower_lane (b : UInt8) :
    b ||| ((geFlag 0x41 b &&& ~~~(geFlag 0x5B b)) >>> 2) = toAsciiLowercase b := by
  revert b
  exact forall_uint8 (by decide +kernel)

theorem lower_flags_mod (b : UInt8) : (geFlag 0x41 b &&& ~~~(geFlag 0x5B b)).toNat % 4 = 0 := by
  revert b
  exact forall_uint8 (by decide +kernel)

/-- One padded-subtraction comparison, in every lane at once. -/
theorem geFlag_word {bs : List UInt8} (h8 : bs.length = 8) {c : UInt8}
    (hc : ∀ b : UInt8, c ≤ b ||| 0x80) :
    ((le64 bs ||| le64 (List.replicate 8 0x80)) - le64 (List.replicate 8 c)) &&& ~~~(le64 bs) &&&
      le64 (List.replicate 8 0x80) = le64 (bs.map (geFlag c)) := by
  have hid : le64 bs = le64 (bs.map id) := by rw [List.map_id]
  rw [← le64_map_const h8, ← le64_map_const h8, hid, le64_map_or h8,
    le64_map_sub h8 (f := fun b => id b ||| 0x80) (g := fun _ => c) hc, le64_map_not h8,
    le64_map_and h8, le64_map_and h8]
  rfl

/-- SWAR lowercasing is lowercasing of every byte. -/
theorem lowerWord_le64 {bs : List UInt8} (h8 : bs.length = 8) :
    lowerWord (le64 bs) = le64 (bs.map toAsciiLowercase) := by
  have hge := geFlag_word h8 (c := 0x41) (forall_uint8 (by decide +kernel))
  have hgt := geFlag_word h8 (c := 0x5B) (forall_uint8 (by decide +kernel))
  have hA : (0x4141414141414141 : UInt64) = le64 (List.replicate 8 0x41) := by decide
  have hZ : (0x5B5B5B5B5B5B5B5B : UInt64) = le64 (List.replicate 8 0x5B) := by decide
  have hH : BYTE_HIGHS = le64 (List.replicate 8 0x80) := by decide
  unfold lowerWord
  simp only [hA, hZ, hH, hge, hgt]
  have hid : le64 bs = le64 (bs.map id) := by rw [List.map_id]
  rw [le64_map_not h8, le64_map_and h8, le64_map_shiftRight_two h8 lower_flags_mod, hid,
    le64_map_or h8]
  simp only [id, lower_lane]

theorem zeroIndexFrom_eq {pre post : List UInt8} (h8 : (pre ++ 0 :: post).length = 8)
    (h : 0 ∉ pre) :
    ∀ {n i : Nat}, n + i = 8 → i ≤ pre.length →
      zeroIndexFrom (le64 (pre ++ 0 :: post)) n i = pre.length
  | 0, i, hn, hi => by simp at h8; omega
  | n + 1, i, hn, hi => by
    have hlane := toNat_lane_le64 h8 (i := i) (by omega)
    unfold zeroIndexFrom
    rcases Nat.lt_or_eq_of_le hi with hlt | rfl
    · rw [List.getD_eq_getElem?_getD, List.getElem?_append_left hlt, List.getElem?_eq_getElem hlt,
        Option.getD_some] at hlane
      rw [if_neg, zeroIndexFrom_eq h8 h (by omega) (by omega)]
      intro h0
      rw [h0] at hlane
      have h0' : (0 : UInt8) = pre[i] := UInt8.toNat_inj.mp hlane
      exact h (h0' ▸ List.getElem_mem hlt)
    · rw [if_pos]
      apply UInt64.toNat_inj.mp
      rw [hlane, List.getD_eq_getElem?_getD, List.getElem?_append_right (Nat.le_refl _),
        Nat.sub_self]
      rfl

theorem zeroIndex_le64 {pre post : List UInt8} (h8 : (pre ++ 0 :: post).length = 8) (h : 0 ∉ pre) :
    zeroIndex (le64 (pre ++ 0 :: post)) = pre.length :=
  zeroIndexFrom_eq h8 h (by omega) (Nat.zero_le _)

/-! ## The scan -/

/-- How many bytes stand before the first zero byte at or after `pos`. -/
def nonzeroRun (f : Frame) (pos : Nat) : Nat := ((f.drop pos).takeWhile (· ≠ 0)).length

theorem nonzeroRun_of_split {f : Frame} {pos : Nat} {pre post : List UInt8}
    (h : f.drop pos = pre ++ 0 :: post) (h0 : 0 ∉ pre) : nonzeroRun f pos = pre.length := by
  have hall : ∀ b ∈ pre, decide (b ≠ 0) = true := by
    intro b hb
    exact decide_eq_true fun e => h0 (e ▸ hb)
  unfold nonzeroRun
  rw [h, List.takeWhile_append_of_pos hall]
  simp

theorem nonzeroRun_add {f : Frame} {pos n : Nat} (hn : pos + n ≤ f.length)
    (h0 : 0 ∉ slice f pos n) :
    nonzeroRun f pos = n + nonzeroRun f (pos + n) := by
  have hall : ∀ b ∈ slice f pos n, decide (b ≠ 0) = true := by
    intro b hb
    exact decide_eq_true fun e => h0 (e ▸ hb)
  have hsplit : f.drop pos = slice f pos n ++ f.drop (pos + n) := by
    unfold slice
    rw [← List.drop_drop, List.take_append_drop]
  rw [nonzeroRun, hsplit, List.takeWhile_append_of_pos hall, List.length_append, nonzeroRun]
  simp only [length_slice]
  omega

theorem nonzeroRun_zero {f : Frame} {pos : Nat} (hp : pos < f.length) (h0 : byteAt f pos = 0) :
    nonzeroRun f pos = 0 := by
  have hsplit : f.drop pos = [] ++ 0 :: f.drop (pos + 1) := by
    rw [← slice_one_append_drop hp, h0, List.nil_append]
  exact nonzeroRun_of_split hsplit List.not_mem_nil

theorem nonzeroRun_succ {f : Frame} {pos : Nat} (hp : pos < f.length) (h0 : byteAt f pos ≠ 0) :
    nonzeroRun f pos = nonzeroRun f (pos + 1) + 1 := by
  rw [nonzeroRun_add (n := 1) (by omega) (by rw [slice_one hp]; simpa using h0.symm)]
  omega

/-- The byte-at-a-time path after `i` bytes, where the frame ends within the word or the
terminator stands in it. -/
theorem tailWord_eq (f : Frame) (pos nameLen : Nat) :
    ∀ {n i : Nat}, n + i = 8 → pos + i ≤ f.length →
      (f.length < pos + 8 ∨ i + nonzeroRun f (pos + i) < 8) →
      tailWord f n i (pos + i) (nameLen + i) (le64 ((slice f pos i).map toAsciiLowercase)) =
        .ok (if nameLen + i + nonzeroRun f (pos + i) + 1 ≤ MAX_QNAME_LEN ∧
            pos + i + nonzeroRun f (pos + i) + 2 ≤ f.length then
          some (le64 ((slice f pos (i + nonzeroRun f (pos + i) + 1)).map toAsciiLowercase),
            pos + i + nonzeroRun f (pos + i) + 1, nameLen + i + nonzeroRun f (pos + i) + 1)
        else none) := by
  intro n
  induction n with
  | zero =>
    intro i hn hi hend
    unfold tailWord
    rw [if_neg (by omega)]
  | succ n ih =>
    intro i hn hi hend
    unfold tailWord
    by_cases hlim : nameLen + i ≥ MAX_QNAME_LEN
    · rw [if_pos hlim, if_neg (by omega)]
    rw [if_neg hlim]
    by_cases hshort : pos + i + 2 > f.length
    · rw [if_pos hshort, if_neg (by omega)]
    rw [if_neg hshort, load8_ok (by omega)]
    simp only [bind, Except.bind]
    have hlen : ((slice f pos i).map toAsciiLowercase).length = i := by simp; omega
    have hword : le64 ((slice f pos i).map toAsciiLowercase) |||
        ((toAsciiLowercase (byteAt f (pos + i))).toUInt64 <<< UInt64.ofNat (i * 8)) =
        le64 ((slice f pos (i + 1)).map toAsciiLowercase) := by
      have hsnoc := le64_snoc (hlen.trans_lt (by omega)) (toAsciiLowercase (byteAt f (pos + i)))
      rw [hlen] at hsnoc
      rw [hsnoc, slice_append, slice_one (by omega), List.map_append, List.map_singleton]
    rw [hword]
    by_cases h0 : byteAt f (pos + i) = 0
    · rw [if_pos h0, nonzeroRun_zero (by omega) h0, if_pos (by omega)]
    · have hrun : nonzeroRun f (pos + i) = nonzeroRun f (pos + (i + 1)) + 1 :=
        nonzeroRun_succ (by omega) h0
      have ih' := ih (i := i + 1) (by omega) (by omega) (by omega)
      rw [if_neg h0, Nat.add_assoc pos, Nat.add_assoc nameLen, ih', hrun]
      simp only [← Nat.add_assoc]
      congr 2 <;> (try congr 1) <;> simp only [Nat.add_right_comm _ 1]

/-- What the parser returns, in one formula: `k` bytes and a zero, then the two words. -/
def questionAt {H : Type} (hs : WordHasher H) (hash : H) (f : Frame) (pos nameLen : Nat) :
    Option (H × UInt16 × UInt16 × Nat) :=
  let k := nonzeroRun f pos
  if nameLen + k + 1 ≤ MAX_QNAME_LEN ∧ pos + k + 1 + 4 ≤ f.length then
    some ((words ((slice f pos (k + 1)).map toAsciiLowercase)).foldl hs.word hash,
      be16At f (pos + k + 1), be16At f (pos + k + 3), nameLen + k + 1 + 4)
  else none

theorem readQuestionEnd_some {H : Type} (f : Frame) (hash : H) (qPtr nameLen : Nat) :
    readQuestionEnd f (some (hash, qPtr, nameLen)) =
      .ok (if qPtr + 4 ≤ f.length then
        some (hash, be16At f qPtr, be16At f (qPtr + 2), nameLen + 4) else none) := by
  by_cases h : qPtr + 4 ≤ f.length
  · rw [readQuestionEnd, if_neg (by omega), if_pos h, load8_ok (by omega), load8_ok (by omega),
      load8_ok (by omega), load8_ok (by omega)]
    rfl
  · rw [readQuestionEnd, if_pos (by omega), if_neg h]

section
variable {H : Type} (hs : WordHasher H) (f : Frame)

/-- The word that holds the terminator, cut below it. -/
theorem lowerWord_and_first {pre post : List UInt8} (h8 : (pre ++ 0 :: post).length = 8)
    (h0 : 0 ∉ pre) :
    lowerWord (le64 (pre ++ 0 :: post)) &&&
      ((zeroFlags64 (le64 (pre ++ 0 :: post)) &&& -zeroFlags64 (le64 (pre ++ 0 :: post))) - 1) =
      le64 ((pre ++ [0]).map toAsciiLowercase) := by
  have hlow : (pre ++ 0 :: post).map toAsciiLowercase =
      pre.map toAsciiLowercase ++ 0 :: post.map toAsciiLowercase := by
    rw [List.map_append, List.map_cons, toAsciiLowercase_eq_zero.mpr rfl]
  rw [lowerWord_le64 h8, hlow, le64_and_below (by simpa using h8)
    (by rw [List.length_map]; exact toNat_lowBit_zeroFlags64 h8 h0)]
  have hz : (pre ++ [0]).map toAsciiLowercase = pre.map toAsciiLowercase ++ List.replicate 1 0 := by
    rw [List.map_append, List.map_singleton, toAsciiLowercase_eq_zero.mpr rfl]
    rfl
  rw [hz, le64_append_zeros]

/-- A block that holds the terminator: where it stands, and the word the masks leave of it. -/
theorem block_terminator {f : Frame} {pos : Nat} (hblock : pos + 8 ≤ f.length)
    (h0 : 0 ∈ slice f pos 8) :
    ∃ pre : List UInt8, 0 ∉ pre ∧ pre.length < 8 ∧ nonzeroRun f pos = pre.length ∧
      slice f pos (pre.length + 1) = pre ++ [0] ∧
      zeroIndex (le64 (slice f pos 8)) = pre.length ∧
      lowerWord (le64 (slice f pos 8)) &&&
        ((zeroFlags64 (le64 (slice f pos 8)) &&& -zeroFlags64 (le64 (slice f pos 8))) - 1) =
        le64 ((pre ++ [0]).map toAsciiLowercase) := by
  have h8 : (slice f pos 8).length = 8 := by simp; omega
  obtain ⟨pre, post, hsplit, hpre⟩ := List.eq_append_cons_of_mem h0
  have hdrop : f.drop pos = pre ++ 0 :: (post ++ f.drop (pos + 8)) := by
    rw [← List.cons_append, ← List.append_assoc, ← hsplit, slice, ← List.drop_drop,
      List.take_append_drop]
  have hpl : pre.length < 8 := by rw [hsplit] at h8; simp at h8; omega
  have hname : slice f pos (pre.length + 1) = pre ++ [0] := by
    rw [← Nat.add_zero pos, ← slice_slice f pos 0 8 (pre.length + 1) (by omega), hsplit, slice,
      List.drop_zero, List.take_append, List.take_of_length_le (by omega)]
    simp
  rw [hsplit] at h8 ⊢
  exact ⟨pre, hpre, hpl, nonzeroRun_of_split hdrop hpre, hname, zeroIndex_le64 h8 hpre,
    lowerWord_and_first h8 hpre⟩

/-- The scan from any block boundary, with what is read after it. -/
theorem scanQname_eq : ∀ {fuel : Nat} {hash : H} {pos nameLen : Nat},
    MAX_QNAME_LEN ≤ nameLen + 8 * fuel → pos ≤ f.length →
      (scanQname hs f fuel hash pos nameLen >>= readQuestionEnd f) =
        .ok (questionAt hs hash f pos nameLen) := by
  intro fuel
  induction fuel with
  | zero =>
    intro hash pos nameLen hfuel _
    unfold questionAt
    rw [if_neg (by omega)]
    rfl
  | succ fuel ih =>
    intro hash pos nameLen hfuel hpos
    unfold scanQname
    by_cases hlim : nameLen ≥ MAX_QNAME_LEN
    · rw [if_pos hlim, questionAt, if_neg (by omega)]
      rfl
    rw [if_neg hlim]
    by_cases hblock : pos + 8 ≤ f.length
    · have h8 : (slice f pos 8).length = 8 := by simp; omega
      rw [if_pos hblock, load_ok hblock]
      simp only [bind, Except.bind]
      have hz : (le64 (slice f pos 8) - BYTE_ONES) &&& ~~~(le64 (slice f pos 8)) &&& BYTE_HIGHS =
          zeroFlags64 (le64 (slice f pos 8)) := rfl
      rw [hz]
      by_cases h0 : 0 ∈ slice f pos 8
      · -- the block holds the terminator
        rw [if_neg fun h => (zeroFlags64_eq_zero_iff h8).mp h h0]
        obtain ⟨pre, hpre, hpl, hrun, hname, hindex, hword⟩ := block_terminator hblock h0
        rw [hindex, questionAt, hrun, hname]
        by_cases hlong : nameLen + (pre.length + 1) > MAX_QNAME_LEN
        · rw [if_pos hlong, if_neg (by omega)]
          rfl
        rw [if_neg hlong]
        simp only [hword]
        rw [readQuestionEnd_some, words_one (by simp) (by simp; omega)]
        simp only [List.foldl_cons, List.foldl_nil]
        by_cases hend : pos + (pre.length + 1) + 4 ≤ f.length
        · rw [if_pos hend, if_pos (by omega)]
          rfl
        · rw [if_neg hend, if_neg (by omega)]
      · rw [if_pos ((zeroFlags64_eq_zero_iff h8).mpr h0)]
        have hfuel' : MAX_QNAME_LEN ≤ nameLen + 8 + 8 * fuel := by omega
        have hstep := @ih (hs.word hash (lowerWord (le64 (slice f pos 8)))) _ _ hfuel' hblock
        simp only [bind, Except.bind] at hstep
        rw [hstep, questionAt, questionAt, nonzeroRun_add hblock h0]
        simp only [Except.ok.injEq]
        have hwords : words ((slice f pos (8 + nonzeroRun f (pos + 8) + 1)).map toAsciiLowercase) =
            lowerWord (le64 (slice f pos 8)) ::
              words ((slice f (pos + 8) (nonzeroRun f (pos + 8) + 1)).map toAsciiLowercase) := by
          rw [Nat.add_assoc 8, slice_append, List.map_append, words_append (by simpa using h8),
            lowerWord_le64 h8]
        rw [hwords, List.foldl_cons]
        simp only [← Nat.add_assoc]
    · rw [if_neg hblock]
      have ht := tailWord_eq f pos nameLen (n := 8) (i := 0) rfl (by omega) (.inl (by omega))
      simp only [slice_zero, List.map_nil, Nat.add_zero, Nat.zero_add] at ht
      rw [show (0 : UInt64) = le64 [] from rfl, ht, questionAt]
      by_cases hc : nameLen + nonzeroRun f pos + 1 ≤ MAX_QNAME_LEN ∧
        pos + nonzeroRun f pos + 2 ≤ f.length
      · rw [if_pos hc]
        simp only [bind, Except.bind]
        rw [readQuestionEnd_some, words_one (List.ne_nil_of_length_pos (by simp; omega))
          (by simp; omega)]
        by_cases hend : pos + nonzeroRun f pos + 1 + 4 ≤ f.length
        · rw [if_pos hend, if_pos ⟨hc.1, hend⟩]
          rfl
        · rw [if_neg hend, if_neg (by omega)]
      · rw [if_neg hc, if_neg (by omega)]
        rfl

/-- **The parser's specification.** -/
theorem parseDnsQuestionWith_eq {dnsOffset : Nat} (h : dnsOffset + DNS_HDR_LEN ≤ f.length) :
    parseDnsQuestionWith hs f dnsOffset =
      .ok (questionAt hs hs.basis f (dnsOffset + DNS_HDR_LEN) 0) :=
  scanQname_eq hs f (by decide) h

end

/-! ## Exactness -/

/-- The first zero byte at or after `pos` stands `k` bytes further on. -/
structure FirstZero (f : Frame) (pos k : Nat) : Prop where
  inFrame : pos + k < f.length
  zero : byteAt f (pos + k) = 0
  nonzero : ∀ j < k, byteAt f (pos + j) ≠ 0

theorem FirstZero.nonzeroRun_eq {f : Frame} : ∀ {k pos : Nat}, FirstZero f pos k →
    nonzeroRun f pos = k
  | 0, _, h => nonzeroRun_zero h.inFrame h.zero
  | k + 1, pos, h => by
    have hin := h.inFrame
    have hne : byteAt f pos ≠ 0 := h.nonzero 0 (Nat.succ_pos k)
    rw [nonzeroRun_succ (by omega) hne]
    have hrest : FirstZero f (pos + 1) k :=
      { inFrame := by omega
        zero := by rw [Nat.add_right_comm, Nat.add_assoc]; exact h.zero
        nonzero := fun j hj => by
          rw [Nat.add_right_comm, Nat.add_assoc]
          exact h.nonzero (j + 1) (Nat.succ_lt_succ hj) }
    rw [hrest.nonzeroRun_eq]

theorem firstZero_nonzeroRun {f : Frame} {pos : Nat} (h : pos + nonzeroRun f pos < f.length) :
    FirstZero f pos (nonzeroRun f pos) := by
  generalize hk : nonzeroRun f pos = k at h
  induction k generalizing pos with
  | zero =>
    refine ⟨h, ?_, fun j hj => absurd hj (Nat.not_lt_zero j)⟩
    by_contra hne
    have hrun : nonzeroRun f pos = nonzeroRun f (pos + 1) + 1 := nonzeroRun_succ h hne
    omega
  | succ k ih =>
    have hne : byteAt f pos ≠ 0 := by
      intro h0
      rw [nonzeroRun_zero (by omega) h0] at hk
      omega
    rw [nonzeroRun_succ (by omega) hne] at hk
    have hrest := ih (by omega) (by omega : pos + 1 + k < f.length)
    refine ⟨h, by have := hrest.zero; rwa [Nat.add_right_comm, Nat.add_assoc] at this, ?_⟩
    intro j hj
    cases j with
    | zero => exact hne
    | succ j =>
      have := hrest.nonzero j (by omega)
      rwa [Nat.add_right_comm, Nat.add_assoc] at this

/-- On a block that holds the terminator, the byte-at-a-time path assembles the word the
masked block gives. -/
theorem tailWord_eq_block {f : Frame} {pos : Nat} (nameLen : Nat) (hblock : pos + 8 ≤ f.length)
    (h0 : 0 ∈ slice f pos 8) (hnext : pos + zeroIndex (le64 (slice f pos 8)) + 2 ≤ f.length) :
    tailWord f 8 0 pos nameLen 0 =
      .ok (if nameLen + (zeroIndex (le64 (slice f pos 8)) + 1) ≤ MAX_QNAME_LEN then
        some (lowerWord (le64 (slice f pos 8)) &&&
            ((zeroFlags64 (le64 (slice f pos 8)) &&& -zeroFlags64 (le64 (slice f pos 8))) - 1),
          pos + (zeroIndex (le64 (slice f pos 8)) + 1),
          nameLen + (zeroIndex (le64 (slice f pos 8)) + 1))
        else none) := by
  obtain ⟨pre, hpre, hpl, hrun, hname, hindex, hword⟩ := block_terminator hblock h0
  rw [hindex] at hnext ⊢
  rw [hword]
  have ht := tailWord_eq f pos nameLen (n := 8) (i := 0) rfl (by omega)
    (.inr (by rw [Nat.add_zero, hrun]; omega))
  simp only [slice_zero, List.map_nil, Nat.add_zero, Nat.zero_add, hrun] at ht
  rw [show (0 : UInt64) = le64 [] from rfl, ht, hname]
  by_cases hlim : nameLen + (pre.length + 1) ≤ MAX_QNAME_LEN
  · rw [if_pos hlim, if_pos (by omega)]
    rfl
  · rw [if_neg hlim, if_neg (by omega)]

/-- **The parser is exact.** It reads nothing outside the frame, its loop ends before any
fuel of 32 rounds does, it succeeds exactly on a terminated name within the limit with
type and class behind it, and its two paths agree. -/
theorem parseDnsQuestion_exact {f : Frame} {dnsOffset : Nat}
    (h : dnsOffset + DNS_HDR_LEN ≤ f.length) :
    (∃ r, parseDnsQuestion f dnsOffset = .ok r) ∧
    (∀ fuel, MAX_QNAME_LEN ≤ 8 * fuel →
      (scanQname fnv1a f fuel fnv1a.basis (dnsOffset + DNS_HDR_LEN) 0 >>= readQuestionEnd f) =
        parseDnsQuestion f dnsOffset) ∧
    (∀ hash qtype qclass n,
      parseDnsQuestion f dnsOffset = .ok (some (hash, qtype, qclass, n)) ↔
      ∃ k ≤ 254, FirstZero f (dnsOffset + DNS_HDR_LEN) k ∧
        dnsOffset + DNS_HDR_LEN + k + 1 + 4 ≤ f.length ∧
        hash = fnv1a64 ((slice f (dnsOffset + DNS_HDR_LEN) (k + 1)).map toAsciiLowercase) ∧
        qtype = be16At f (dnsOffset + DNS_HDR_LEN + k + 1) ∧
        qclass = be16At f (dnsOffset + DNS_HDR_LEN + k + 3) ∧ n = k + 1 + 4) ∧
    ∀ pos nameLen, pos + 8 ≤ f.length → 0 ∈ slice f pos 8 →
      pos + zeroIndex (le64 (slice f pos 8)) + 2 ≤ f.length →
      tailWord f 8 0 pos nameLen 0 =
        .ok (if nameLen + (zeroIndex (le64 (slice f pos 8)) + 1) ≤ MAX_QNAME_LEN then
          some (lowerWord (le64 (slice f pos 8)) &&&
              ((zeroFlags64 (le64 (slice f pos 8)) &&& -zeroFlags64 (le64 (slice f pos 8))) - 1),
            pos + (zeroIndex (le64 (slice f pos 8)) + 1),
            nameLen + (zeroIndex (le64 (slice f pos 8)) + 1))
          else none) := by
  have hspec : parseDnsQuestion f dnsOffset =
      .ok (questionAt fnv1a fnv1a.basis f (dnsOffset + DNS_HDR_LEN) 0) :=
    parseDnsQuestionWith_eq fnv1a f h
  have hhash : ∀ data, (words data).foldl fnv1a.word fnv1a.basis = fnv1a64 data := by
    intro data
    rw [fnv1a64, fnv1a64With_eq]
    rfl
  refine ⟨⟨_, hspec⟩, ?_, ?_, fun pos nameLen => tailWord_eq_block nameLen⟩
  · intro fuel hfuel
    rw [hspec]
    exact scanQname_eq fnv1a f (by omega) h
  · intro hash qtype qclass n
    rw [hspec, questionAt]
    simp only [hhash, Nat.zero_add, Except.ok.injEq]
    constructor
    · intro hsome
      split at hsome
      · next hc =>
        cases hsome
        refine ⟨_, by simp only [MAX_QNAME_LEN] at hc; omega, ?_, hc.2, rfl, rfl, rfl, rfl⟩
        exact firstZero_nonzeroRun (by omega)
      · cases hsome
    · rintro ⟨k, hk, hzero, hend, rfl, rfl, rfl, rfl⟩
      rw [hzero.nonzeroRun_eq, if_pos ⟨by simp only [MAX_QNAME_LEN]; omega, hend⟩]

/-- A DNS message: a header and the question `A.`, type A, class IN. -/
def sampleMessageBytes : Frame := List.replicate 12 0 ++ [1, 0x41, 0, 0, 1, 0, 1]

theorem parseDnsQuestion_exact_sample :
    parseDnsQuestion sampleMessageBytes 0 = .ok (some (fnv1a64 [1, 0x61, 0], 1, 1, 7)) := by
  refine ((parseDnsQuestion_exact (by decide)).2.2.1 _ _ _ _).mpr
    ⟨2, by decide, ⟨by decide, by decide, by decide⟩, by decide, ?_, by decide, by decide, rfl⟩
  exact congrArg fnv1a64 (by decide)

end DoggyDns.Ebpf
