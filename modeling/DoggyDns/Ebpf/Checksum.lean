import DoggyDns.Lib.OnesComplement
import DoggyDns.Ebpf.Reply

/-!
# The incremental IPv4 checksum

`finalize_headers` never walks the header: it corrects the old checksum by the
two words it changed. The header's total is the same modulo `2^16 - 1` before
and after, and it is never zero because the first word holds the header length,
so a header that verified still does and one that did not still does not.
-/

namespace DoggyDns.Ebpf

open Bytes OnesComplement

/-- The five addends of the update, as the program adds them. -/
def checkAddends (oldCheck oldTotLen newTotLen oldFragOff newFragOff : UInt16) : List UInt16 :=
  [~~~oldCheck, ~~~oldTotLen, newTotLen, ~~~oldFragOff, newFragOff]

/-- The `u32` sum before the folds. -/
def checkSum (addends : List UInt16) : UInt32 :=
  addends.foldl (fun s w => s + w.toUInt32) 0

/-- One `u32` fold. -/
def foldCarry32 (sum : UInt32) : UInt32 := (sum &&& (0xFFFF : UInt32)) + (sum >>> 16)

section
variable (c t t' g g' : UInt16)

theorem updatedCheck_eq :
    updatedCheck c t t' g g' =
      ~~~(foldCarry32 (foldCarry32 (checkSum (checkAddends c t t' g g')))).toUInt16 := by
  simp only [updatedCheck, checkSum, checkAddends, foldCarry32, List.foldl_cons, List.foldl_nil,
    UInt32.zero_add]

/-- No partial sum of up to `2^16` addends wraps. -/
theorem toNat_checkSum {ws : List UInt16} (h : ws.length ≤ 2 ^ 16) :
    (checkSum ws).toNat = total ws := by
  have hstep : ∀ (ws : List UInt16) (s : UInt32), s.toNat + ws.length * (2 ^ 16 - 1) < 2 ^ 32 →
      (ws.foldl (fun s w => s + w.toUInt32) s).toNat = s.toNat + total ws := by
    intro ws
    induction ws with
    | nil => intro s _; simp [total]
    | cons w ws ih =>
      intro s hs
      have hw := w.toNat_lt
      have hadd : (s + w.toUInt32).toNat = s.toNat + w.toNat := by
        rw [UInt32.toNat_add, UInt16.toNat_toUInt32, Nat.mod_eq_of_lt]
        simp only [List.length_cons] at hs
        omega
      rw [List.foldl_cons, ih _ (by rw [hadd]; simp only [List.length_cons] at hs; omega), hadd]
      simp [total]
      omega
  have := hstep ws 0 (by rw [UInt32.toNat_zero]; omega)
  rwa [UInt32.toNat_zero, Nat.zero_add] at this

/-- A fold does not wrap. -/
theorem toNat_foldCarry32 (s : UInt32) : (foldCarry32 s).toNat = foldCarry s.toNat := by
  have hs := s.toNat_lt
  have hlow : (s &&& (0xFFFF : UInt32)).toNat = s.toNat % 2 ^ 16 := by
    rw [UInt32.toNat_and]
    exact Nat.and_two_pow_sub_one_eq_mod s.toNat 16
  have hhigh : (s >>> 16).toNat = s.toNat / 2 ^ 16 := by
    rw [UInt32.toNat_shiftRight]
    exact Nat.shiftRight_eq_div_pow s.toNat 16
  unfold foldCarry32 foldCarry
  rw [UInt32.toNat_add, hlow, hhigh, Nat.mod_eq_of_lt (by omega)]

theorem toNat_not16 (w : UInt16) : (~~~w).toNat = 2 ^ 16 - 1 - w.toNat := by
  rw [UInt16.toNat_not]
  rfl

theorem total_checkAddends_le : total (checkAddends c t t' g g') ≤ 5 * (2 ^ 16 - 1) := by
  have h1 := (~~~c).toNat_lt
  have h2 := (~~~t).toNat_lt
  have h3 := t'.toNat_lt
  have h4 := (~~~g).toNat_lt
  have h5 := g'.toNat_lt
  simp only [total, checkAddends, List.map_cons, List.map_nil, List.sum_cons, List.sum_nil]
  omega

/-- The stored checksum, as a natural number: the complement of the folded sum. -/
theorem toNat_updatedCheck :
    (updatedCheck c t t' g g').toNat =
      2 ^ 16 - 1 - foldCarry (foldCarry (total (checkAddends c t t' g g'))) := by
  have hle := total_checkAddends_le c t t' g g'
  have hlt := foldCarry_foldCarry_lt hle
  rw [updatedCheck_eq, toNat_not16, UInt32.toNat_toUInt16, toNat_foldCarry32, toNat_foldCarry32,
    toNat_checkSum (by simp [checkAddends]), Nat.mod_eq_of_lt hlt]

/-- The new checksum and the two new words weigh what the old three did. -/
theorem updatedCheck_mod :
    ((updatedCheck c t t' g g').toNat + t'.toNat + g'.toNat) % (2 ^ 16 - 1) =
      (c.toNat + t.toNat + g.toNat) % (2 ^ 16 - 1) := by
  have hle := total_checkAddends_le c t t' g g'
  have hlt := foldCarry_foldCarry_lt hle
  have hmod := (foldCarry_mod (foldCarry (total (checkAddends c t t' g g')))).trans
    (foldCarry_mod _)
  rw [toNat_updatedCheck]
  have hc := c.toNat_lt
  have ht := t.toNat_lt
  have hg := g.toNat_lt
  generalize foldCarry (foldCarry (total (checkAddends c t t' g g'))) = s at hlt hmod ⊢
  simp only [total, checkAddends, List.map_cons, List.map_nil, List.sum_cons, List.sum_nil,
    toNat_not16] at hmod
  omega

end

/-! ## The header -/

/-- The total of the words at `i`. -/
def totalAt (f : Frame) (i n : Nat) : Nat := total (beWords (slice f i n))

theorem totalAt_add {f : Frame} {i m n : Nat} (hm : m % 2 = 0) (hlen : i + m ≤ f.length) :
    totalAt f i (m + n) = totalAt f i m + totalAt f (i + m) n := by
  unfold totalAt
  rw [slice_append, beWords_append _ (by rw [length_slice]; omega), total_append]

theorem totalAt_two {f : Frame} {i : Nat} (h : i + 2 ≤ f.length) :
    totalAt f i 2 = (be16At f i).toNat := by
  unfold totalAt
  rw [slice_succ (by omega), slice_one (by omega)]
  simp [beWords, total, be16At]

/-- An IPv4 header with `opts` bytes of options, field by field. -/
theorem totalAt_header {f : Frame} (opts : Nat) (h : ETH_HDR_LEN + IP_HDR_LEN ≤ f.length) :
    totalAt f ETH_HDR_LEN (IP_HDR_LEN + opts) =
      (be16At f 14).toNat + (be16At f 16).toNat + (be16At f 18).toNat + (be16At f 20).toNat +
        (be16At f 22).toNat + (be16At f 24).toNat + totalAt f 26 4 + totalAt f 30 4 +
        totalAt f 34 opts := by
  have hsplit : ETH_HDR_LEN + IP_HDR_LEN = 34 := rfl
  rw [hsplit] at h
  have h2 : ∀ {i n}, i + 2 ≤ 34 →
      totalAt f i (2 + n) = (be16At f i).toNat + totalAt f (i + 2) n := by
    intro i n hi
    rw [totalAt_add rfl (by omega), totalAt_two (by omega)]
  rw [show IP_HDR_LEN + opts = 2 + (2 + (2 + (2 + (2 + (2 + (4 + (4 + opts))))))) by
      simp only [IP_HDR_LEN]; omega, show ETH_HDR_LEN = 14 from rfl,
    h2 (by omega), h2 (by omega), h2 (by omega), h2 (by omega), h2 (by omega), h2 (by omega),
    totalAt_add rfl (by omega), totalAt_add rfl (by omega)]
  simp only [Nat.reduceAdd]
  omega

/-- The first word holds the header length, so it is not zero. -/
theorem be16At_pos_of_ihl {f : Frame} (h : IP_HDR_LEN ≤ ipHdrLen f) : 0 < (be16At f 14).toNat := by
  rw [be16At, toNat_be16]
  have hbyte : (byteAt f 14).toNat ≠ 0 := by
    intro h0
    have h14 : byteAt f ETH_HDR_LEN = 0 := UInt8.toNat_inj.mp h0
    rw [ipHdrLen, h14] at h
    exact absurd h (by decide)
  omega

theorem total_congr {a b x y m : Nat} (rest : Nat) (ha : a = rest + x) (hb : b = rest + y)
    (h : x % m = y % m) : a % m = b % m := by
  subst ha hb
  rw [Nat.add_mod, h, ← Nat.add_mod]

/-- The header's total is kept modulo `2^16 - 1`, and stays positive. -/
theorem totalAt_replyHeaders {p : Frame} {n : Nat} (hihl : IP_HDR_LEN ≤ ipHdrLen p)
    (hlen : udpOffset p + UDP_HDR_LEN ≤ p.length) :
    totalAt (replyHeaders p (ipHdrLen p) (udpOffset p) n) ETH_HDR_LEN (ipHdrLen p) %
        (2 ^ 16 - 1) = totalAt p ETH_HDR_LEN (ipHdrLen p) % (2 ^ 16 - 1) ∧
    0 < totalAt (replyHeaders p (ipHdrLen p) (udpOffset p) n) ETH_HDR_LEN (ipHdrLen p) ∧
    0 < totalAt p ETH_HDR_LEN (ipHdrLen p) := by
  have h34 : ETH_HDR_LEN + IP_HDR_LEN = 34 := rfl
  obtain ⟨opts, hopts⟩ := Nat.exists_eq_add_of_le hihl
  have hip : ETH_HDR_LEN + IP_HDR_LEN ≤ udpOffset p := by simp only [udpOffset]; omega
  have hudp : udpOffset p = 34 + opts := by simp only [udpOffset]; omega
  have hlen' : (replyHeaders p (ipHdrLen p) (udpOffset p) n).length = p.length :=
    length_replyHeaders (by omega) hlen
  have hpos := be16At_pos_of_ihl hihl
  obtain ⟨a1, a2⟩ := slice_replyHeaders_addresses (i := ipHdrLen p) (n := n) hip hlen
  have hword : ∀ {j}, j = 14 ∨ j = 18 ∨ j = 22 →
      be16At (replyHeaders p (ipHdrLen p) (udpOffset p) n) j = be16At p j := by
    intro j hj
    exact be16At_congr (slice_replyHeaders_kept hip hlen (by omega) (by omega) (by omega)
      (by omega) (by omega))
  have hopt : totalAt (replyHeaders p (ipHdrLen p) (udpOffset p) n) 34 opts =
      totalAt p 34 opts := by
    unfold totalAt
    rw [slice_replyHeaders_kept hip hlen (by omega) (by omega) (by omega) (by omega) (by omega)]
  have hsrc : totalAt (replyHeaders p (ipHdrLen p) (udpOffset p) n) 26 4 = totalAt p 30 4 := by
    unfold totalAt
    rw [a1]
  have hdst : totalAt (replyHeaders p (ipHdrLen p) (udpOffset p) n) 30 4 = totalAt p 26 4 := by
    unfold totalAt
    rw [a2]
  have hcheck := updatedCheck_mod (be16At p 24) (be16At p 16)
    (UInt16.ofNat (ipHdrLen p + UDP_HDR_LEN + n)) (be16At p 20) (be16At p 20 ||| 0x4000)
  rw [← be16At_replyHeaders_check hip hlen, ← be16At_replyHeaders_totLen hip hlen,
    ← be16At_replyHeaders_fragOff (i := ipHdrLen p) (n := n) hip hlen] at hcheck
  have hwhole := totalAt_header (f := replyHeaders p (ipHdrLen p) (udpOffset p) n) opts (by omega)
  rw [hword (.inl rfl), hword (.inr (.inl rfl)), hword (.inr (.inr rfl)), hopt, hsrc, hdst]
    at hwhole
  have hbefore := totalAt_header (f := p) opts (by omega)
  rw [← hopts] at hwhole hbefore
  refine ⟨?_, by omega, by omega⟩
  -- the three rewritten words stand for each other, the rest is the same words
  refine total_congr ((be16At p 14).toNat + (be16At p 18).toNat + (be16At p 22).toNat +
    totalAt p 26 4 + totalAt p 30 4 + totalAt p 34 opts) ?_ ?_ hcheck
  · rw [hwhole]
    ac_rfl
  · rw [hbefore]
    ac_rfl

/-- Nothing in the update wraps or truncates. -/
structure UpdateExact (c t t' g g' : UInt16) : Prop where
  /-- Every partial sum, the full one included. -/
  sums : ∀ ws, ws <+: checkAddends c t t' g g' → (checkSum ws).toNat = total ws
  firstFold : (foldCarry32 (checkSum (checkAddends c t t' g g'))).toNat =
    foldCarry (total (checkAddends c t t' g g'))
  secondFold : (foldCarry32 (foldCarry32 (checkSum (checkAddends c t t' g g')))).toNat =
    foldCarry (foldCarry (total (checkAddends c t t' g g')))
  folded : foldCarry (foldCarry (total (checkAddends c t t' g g'))) < 2 ^ 16
  stored : (updatedCheck c t t' g g').toNat =
    2 ^ 16 - 1 - foldCarry (foldCarry (total (checkAddends c t t' g g')))

theorem updateExact (c t t' g g' : UInt16) : UpdateExact c t t' g g' where
  sums ws h := toNat_checkSum (h.length_le.trans (by simp [checkAddends]))
  firstFold := by rw [toNat_foldCarry32, toNat_checkSum (by simp [checkAddends])]
  secondFold := by
    rw [toNat_foldCarry32, toNat_foldCarry32, toNat_checkSum (by simp [checkAddends])]
  folded := foldCarry_foldCarry_lt (total_checkAddends_le c t t' g g')
  stored := toNat_updatedCheck c t t' g g'

/-- What `finalize_headers` writes of the IPv4 header of `f`, and what it leaves. -/
structure HeaderRewritten (f g : Frame) (n : Nat) : Prop where
  totLen : be16At g 16 = UInt16.ofNat (ipHdrLen f + UDP_HDR_LEN + n)
  fragOff : be16At g 20 = be16At f 20 ||| 0x4000
  check : be16At g 24 =
    updatedCheck (be16At f 24) (be16At f 16) (be16At g 16) (be16At f 20) (be16At g 20)
  source : slice g 26 4 = slice f 30 4
  dest : slice g 30 4 = slice f 26 4
  versionTos : slice g 14 2 = slice f 14 2
  id : slice g 18 2 = slice f 18 2
  ttlProtocol : slice g 22 2 = slice f 22 2
  options : slice g 34 (ipHdrLen f - IP_HDR_LEN) = slice f 34 (ipHdrLen f - IP_HDR_LEN)

theorem headerRewritten {f : Frame} {n : Nat} (hihl : IP_HDR_LEN ≤ ipHdrLen f)
    (hlen : udpOffset f + UDP_HDR_LEN ≤ f.length) :
    HeaderRewritten f (replyHeaders f (ipHdrLen f) (udpOffset f) n) n := by
  have h34 : ETH_HDR_LEN + IP_HDR_LEN = 34 := rfl
  have hudp : udpOffset f = ETH_HDR_LEN + ipHdrLen f := rfl
  have hip : ETH_HDR_LEN + IP_HDR_LEN ≤ udpOffset f := by omega
  obtain ⟨hsource, hdest⟩ := slice_replyHeaders_addresses (i := ipHdrLen f) (n := n) hip hlen
  have htotLen := be16At_replyHeaders_totLen (i := ipHdrLen f) (n := n) hip hlen
  have hfragOff := be16At_replyHeaders_fragOff (i := ipHdrLen f) (n := n) hip hlen
  refine ⟨htotLen, hfragOff, ?_, hsource, hdest, ?_, ?_, ?_, ?_⟩
  · rw [htotLen, hfragOff]
    exact be16At_replyHeaders_check hip hlen
  -- what no layer touches
  all_goals refine slice_replyHeaders_kept hip hlen ?_ ?_ ?_ ?_ ?_ <;> omega

/-- **The incremental checksum is correct.** -/
theorem finalizeHeaders_checksum {f : Frame} {n : Nat} (hihl : IP_HDR_LEN ≤ ipHdrLen f)
    (hlen : udpOffset f + UDP_HDR_LEN ≤ f.length) (hn : n ≤ MAX_DNS_LEN) :
    ∃ g, finalizeHeaders f (ipHdrLen f) (udpOffset f) n = .ok (.ok (), g) ∧
      (sum (beWords (slice g ETH_HDR_LEN (ipHdrLen f))) = 0xFFFF ↔
        sum (beWords (slice f ETH_HDR_LEN (ipHdrLen f))) = 0xFFFF) ∧
      (UInt16.ofNat (ipHdrLen f + UDP_HDR_LEN + n)).toNat = ipHdrLen f + UDP_HDR_LEN + n ∧
      (UInt16.ofNat (UDP_HDR_LEN + n)).toNat = UDP_HDR_LEN + n ∧
      UpdateExact (be16At f 24) (be16At f 16) (be16At g 16) (be16At f 20) (be16At g 20) ∧
      HeaderRewritten f g n := by
  have hip : ETH_HDR_LEN + IP_HDR_LEN ≤ f.length := by simp only [udpOffset] at hlen; omega
  have hmax : ipHdrLen f ≤ 60 := ipHdrLen_le f
  have h8 : UDP_HDR_LEN = 8 := rfl
  simp only [MAX_DNS_LEN] at hn
  refine ⟨_, finalizeHeaders_ok hip hlen, ?_, ?_, ?_, updateExact .., headerRewritten hihl hlen⟩
  · obtain ⟨hmod, hpos, hpos'⟩ := totalAt_replyHeaders (n := n) hihl hlen
    rw [sum_eq_ones_iff, sum_eq_ones_iff]
    unfold totalAt at hmod hpos hpos'
    omega
  · exact UInt16.toNat_ofNat_of_lt' (by simp only [UInt16.size]; omega)
  · exact UInt16.toNat_ofNat_of_lt' (by simp only [UInt16.size]; omega)

/-- The sample query's header verifies, so the header of its 19-byte reply does. -/
theorem finalizeHeaders_checksum_sample :
    ∃ g, finalizeHeaders sampleQuery (ipHdrLen sampleQuery) (udpOffset sampleQuery) 19 =
        .ok (.ok (), g) ∧
      sum (beWords (slice g ETH_HDR_LEN (ipHdrLen sampleQuery))) = 0xFFFF := by
  obtain ⟨g, hg, hiff, -⟩ :=
    finalizeHeaders_checksum (f := sampleQuery) (n := 19) (by decide) (by decide) (by decide)
  exact ⟨g, hg, hiff.mpr (by decide +kernel)⟩

end DoggyDns.Ebpf
