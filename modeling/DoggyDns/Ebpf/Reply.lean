import Mathlib.Data.Nat.Bitwise
import DoggyDns.Ebpf.Verdict

/-!
# The shape of a transmitted frame

`ReplyShape` is a reply as a client reads it, field by field, against the query
it answers: every byte of the transmitted frame is named once. The layers of
`Rewrite` give the header fields, the payload lemmas the DNS message, and the
resize keeps everything in front of the payload.
-/

namespace DoggyDns.Ebpf

open Bytes WordHash

/-- A transmitted frame `f'` against the query `f`: `g` is the resized frame, `n` the
length of the DNS message answered from `entry`. -/
structure ReplyShape (f g f' : Frame) (entry : CacheValue) (questionLen n : Nat) : Prop where
  length : f'.length = f.length + n - (udpLen f - UDP_HDR_LEN)
  macDest : slice f' 0 6 = slice f 6 6
  macSource : slice f' 6 6 = slice f 0 6
  etherType : slice f' 12 2 = slice f 12 2
  /-- Version, header length and TOS. -/
  versionTos : slice f' 14 2 = slice f 14 2
  totLen : (be16At f' 16).toNat = ipHdrLen f + UDP_HDR_LEN + n
  id : slice f' 18 2 = slice f 18 2
  fragOff : be16At f' 20 = be16At f 20 ||| 0x4000
  ttlProtocol : slice f' 22 2 = slice f 22 2
  ipSource : slice f' 26 4 = slice f 30 4
  ipDest : slice f' 30 4 = slice f 26 4
  options : slice f' 34 (ipHdrLen f - IP_HDR_LEN) = slice f 34 (ipHdrLen f - IP_HDR_LEN)
  portSource : slice f' (udpOffset f) 2 = slice f (udpOffset f + 2) 2
  portDest : slice f' (udpOffset f + 2) 2 = slice f (udpOffset f) 2
  udpLength : (be16At f' (udpOffset f + 4)).toNat = UDP_HDR_LEN + n
  udpCheck : be16At f' (udpOffset f + 6) = 0
  /-- The cached bytes, with the query's transaction id. -/
  positive : entry.isNegative = false →
    slice f' (dnsOffset f) n = slice f (dnsOffset f) 2 ++ slice entry.respData 2 (n - 2)
  /-- The query's id, QR and RCODE 3 with the query's RD, one question and no records. -/
  negative : entry.isNegative = true →
    slice f' (dnsOffset f) n = slice f (dnsOffset f) 2 ++
      be16Bytes (0x8003 ||| (be16At f (dnsOffset f + 2) &&& 0x0100)) ++ [0, 1] ++
        [0, 0, 0, 0, 0, 0] ++
      slice f (dnsOffset f + DNS_HDR_LEN) questionLen
  /-- Bytes after the payload are those the resize left there. -/
  rest : f'.drop (dnsOffset f + n) = g.drop (dnsOffset f + n)

/-- The RD bit of a header word. -/
theorem and_rd_cases (flags : UInt16) : flags &&& 0x0100 = 0 ∨ flags &&& 0x0100 = 0x0100 := by
  have h := Nat.and_two_pow flags.toNat 8
  cases hb : flags.toNat.testBit 8 with
  | false =>
    refine .inl (UInt16.toNat_inj.mp ?_)
    rw [UInt16.toNat_and]
    simpa [hb] using h
  | true =>
    refine .inr (UInt16.toNat_inj.mp ?_)
    rw [UInt16.toNat_and]
    simpa [hb] using h

/-! ## Header fields -/

section Headers
variable {p : Frame} {i udp n : Nat} (hip : ETH_HDR_LEN + IP_HDR_LEN ≤ udp)
  (hudp : udp + UDP_HDR_LEN ≤ p.length)
include hip hudp

/-- In front of UDP the headers are those of the first two layers. -/
theorem slice_replyHeaders_below {j m : Nat} (hj : j + m ≤ udp) :
    slice (replyHeaders p i udp n) j m =
      slice (ipRewritten (ethSwapped p) (UInt16.ofNat (i + UDP_HDR_LEN + n))) j m := by
  have l1 := length_ethSwapped (f := p) (by omega)
  have l2 := length_ipRewritten (f := ethSwapped p) (UInt16.ofNat (i + UDP_HDR_LEN + n)) (by omega)
  exact slice_udpRewritten_other _ (by omega) (.inl hj)

theorem slice_replyHeaders_macs :
    slice (replyHeaders p i udp n) 0 6 = slice p 6 6 ∧
    slice (replyHeaders p i udp n) 6 6 = slice p 0 6 := by
  have l1 := length_ethSwapped (f := p) (by omega)
  simp only [ETH_HDR_LEN, IP_HDR_LEN] at hip
  rw [slice_replyHeaders_below hip hudp (by omega), slice_replyHeaders_below hip hudp (by omega),
    slice_ipRewritten_other _ (by simp only [ETH_HDR_LEN, IP_HDR_LEN]; omega) (by omega) (by omega)
      (by omega),
    slice_ipRewritten_other _ (by simp only [ETH_HDR_LEN, IP_HDR_LEN]; omega) (by omega) (by omega)
      (by omega)]
  exact ⟨slice_ethSwapped_dest (by simp only [ETH_HDR_LEN]; omega),
    slice_ethSwapped_source (by simp only [ETH_HDR_LEN]; omega)⟩

/-- What no layer touches between the MAC addresses and UDP. -/
theorem slice_replyHeaders_kept {j m : Nat} (h0 : 12 ≤ j) (hj : j + m ≤ udp)
    (h1 : j + m ≤ 16 ∨ 18 ≤ j) (h2 : j + m ≤ 20 ∨ 22 ≤ j) (h3 : j + m ≤ 24 ∨ 34 ≤ j) :
    slice (replyHeaders p i udp n) j m = slice p j m := by
  have l1 := length_ethSwapped (f := p) (by omega)
  rw [slice_replyHeaders_below hip hudp hj, slice_ipRewritten_other _ (by omega) h1 h2 h3,
    slice_ethSwapped_other (by omega) h0]

theorem slice_replyHeaders_addresses :
    slice (replyHeaders p i udp n) 26 4 = slice p 30 4 ∧
    slice (replyHeaders p i udp n) 30 4 = slice p 26 4 := by
  have l1 := length_ethSwapped (f := p) (by omega)
  have hip' : ETH_HDR_LEN + IP_HDR_LEN = 34 := rfl
  rw [slice_replyHeaders_below hip hudp (by omega), slice_replyHeaders_below hip hudp (by omega),
    slice_ipRewritten_source _ (by omega), slice_ipRewritten_dest _ (by omega),
    slice_ethSwapped_other (by omega) (by omega), slice_ethSwapped_other (by omega) (by omega)]
  exact ⟨rfl, rfl⟩

theorem be16At_replyHeaders_totLen :
    be16At (replyHeaders p i udp n) 16 = UInt16.ofNat (i + UDP_HDR_LEN + n) := by
  have l1 := length_ethSwapped (f := p) (by omega)
  have hip' : ETH_HDR_LEN + IP_HDR_LEN = 34 := rfl
  rw [be16At_congr (slice_replyHeaders_below hip hudp (by omega)),
    be16At_ipRewritten_totLen _ (by omega)]

theorem be16At_replyHeaders_fragOff :
    be16At (replyHeaders p i udp n) 20 = be16At p 20 ||| 0x4000 := by
  have l1 := length_ethSwapped (f := p) (by omega)
  have hip' : ETH_HDR_LEN + IP_HDR_LEN = 34 := rfl
  rw [be16At_congr (slice_replyHeaders_below hip hudp (by omega)),
    be16At_ipRewritten_fragOff _ (by omega),
    be16At_congr (slice_ethSwapped_other (by omega) (by omega))]

theorem be16At_replyHeaders_check :
    be16At (replyHeaders p i udp n) 24 =
      updatedCheck (be16At p 24) (be16At p 16) (UInt16.ofNat (i + UDP_HDR_LEN + n)) (be16At p 20)
        (be16At p 20 ||| 0x4000) := by
  have l1 := length_ethSwapped (f := p) (by omega)
  have hip' : ETH_HDR_LEN + IP_HDR_LEN = 34 := rfl
  have hkept : ∀ {j}, 12 ≤ j → be16At (ethSwapped p) j = be16At p j := fun hj =>
    be16At_congr (slice_ethSwapped_other (by omega) hj)
  rw [be16At_congr (slice_replyHeaders_below hip hudp (by omega)),
    be16At_ipRewritten_check _ (by omega), hkept (by omega), hkept (by omega), hkept (by omega)]

/-- From UDP on, the first two layers change nothing. -/
theorem slice_layers_from_udp {j m : Nat} (hj : udp ≤ j) :
    slice (ipRewritten (ethSwapped p) (UInt16.ofNat (i + UDP_HDR_LEN + n))) j m = slice p j m := by
  have l1 := length_ethSwapped (f := p) (by omega)
  have hip' : ETH_HDR_LEN + IP_HDR_LEN = 34 := rfl
  rw [slice_ipRewritten_other _ (by omega) (by omega) (by omega) (by omega),
    slice_ethSwapped_other (by omega) (by omega)]

theorem replyHeaders_udp :
    slice (replyHeaders p i udp n) udp 2 = slice p (udp + 2) 2 ∧
    slice (replyHeaders p i udp n) (udp + 2) 2 = slice p udp 2 ∧
    be16At (replyHeaders p i udp n) (udp + 4) = UInt16.ofNat (UDP_HDR_LEN + n) ∧
    be16At (replyHeaders p i udp n) (udp + 6) = 0 := by
  have l1 := length_ethSwapped (f := p) (by omega)
  have l2 := length_ipRewritten (f := ethSwapped p) (UInt16.ofNat (i + UDP_HDR_LEN + n)) (by omega)
  refine ⟨?_, ?_, be16At_udpRewritten_len _ (by omega), be16At_udpRewritten_check _ (by omega)⟩
  · unfold replyHeaders
    rw [slice_udpRewritten_source _ (by omega), slice_layers_from_udp hip hudp (by omega)]
  · unfold replyHeaders
    rw [slice_udpRewritten_dest _ (by omega), slice_layers_from_udp hip hudp (by omega)]

theorem slice_replyHeaders_payload {j m : Nat} (hj : udp + UDP_HDR_LEN ≤ j) :
    slice (replyHeaders p i udp n) j m = slice p j m := by
  have l1 := length_ethSwapped (f := p) (by omega)
  have l2 := length_ipRewritten (f := ethSwapped p) (UInt16.ofNat (i + UDP_HDR_LEN + n)) (by omega)
  unfold replyHeaders
  rw [slice_udpRewritten_other _ (by omega) (.inr hj),
    slice_layers_from_udp hip hudp (by omega)]

end Headers

/-! ## Payload -/

section Payload
variable {H : Type} {hs : WordHasher H} {env : XdpEnv H} {f g : Frame} {q : DnsQuery H}
  {entry : CacheValue} {n : Nat}

/-- The payload leaves everything outside its `n` bytes as the resize left it. -/
theorem LiveHit.slice_payload_outside (hit : LiveHit hs env f q entry n)
    (hfit : q.dnsOffset + n ≤ g.length)
    {j m : Nat} (h : j + m ≤ q.dnsOffset ∨ q.dnsOffset + n ≤ j) :
    slice (payloadFrame f g q entry) j m = slice g j m := by
  have hn := hit.bounds.1
  have hhdr := (hit.headers_fit hfit).2.2
  unfold payloadFrame
  rcases hit.replyLen_eq with ⟨hneg, -⟩ | ⟨hneg, rfl, hmin, hmax⟩
  · simp only [MIN_POSITIVE_LEN, DNS_HDR_LEN] at hn
    rw [hneg, if_pos rfl, slice_nxdomainFrame_other hhdr (by omega) (by omega)]
  · rw [hneg, if_neg Bool.false_ne_true, slice_positiveFrame_other hmin hmax hfit h]

/-- In front of the payload the resized frame is the frame received. -/
theorem LiveHit.slice_payload_headers (hit : LiveHit hs env f q entry n)
    (hg : resize env f q n = some g)
    (hfit : q.dnsOffset + n ≤ g.length) {j m : Nat} (h : j + m ≤ dnsOffset f) :
    slice (payloadFrame f g q entry) j m = slice f j m := by
  have hdns := hit.layout.2.2.2
  have hlen := hit.headersOk.length
  rw [hit.slice_payload_outside hfit (by omega), slice_resize hg (by omega) (by omega)]

theorem LiveHit.slice_payload_positive (hit : LiveHit hs env f q entry n)
    (hfit : q.dnsOffset + n ≤ g.length) (hneg : entry.isNegative = false) :
    slice (payloadFrame f g q entry) q.dnsOffset n =
      slice f q.dnsOffset 2 ++ slice entry.respData 2 (n - 2) := by
  rcases hit.replyLen_eq with ⟨hneg', -⟩ | ⟨-, rfl, hmin, hmax⟩
  · rw [hneg] at hneg'
    cases hneg'
  · have hlen := hit.headersOk.length
    have hdns := hit.layout.2.2.2
    simp only [DNS_HDR_LEN] at hlen
    unfold payloadFrame
    rw [hneg, if_neg Bool.false_ne_true, slice_positiveFrame_payload hmin hmax hfit,
      slice_two (by omega)]

theorem LiveHit.slice_payload_negative (hit : LiveHit hs env f q entry n)
    (hg : resize env f q n = some g)
    (hfit : q.dnsOffset + n ≤ g.length) (hneg : entry.isNegative = true) :
    slice (payloadFrame f g q entry) q.dnsOffset n = slice f q.dnsOffset 2 ++
      be16Bytes (0x8003 ||| (be16At f (q.dnsOffset + 2) &&& 0x0100)) ++ [0, 1] ++
        [0, 0, 0, 0, 0, 0] ++
      slice f (q.dnsOffset + DNS_HDR_LEN) q.questionLen := by
  rcases hit.replyLen_eq with ⟨-, rfl⟩ | ⟨hneg', -⟩
  swap
  · rw [hneg] at hneg'
    cases hneg'
  have hdns := hit.layout.2.2.2
  have hquestion := hit.question.2.2
  have hhdr := (hit.headers_fit hfit).2.2
  have hpf : payloadFrame f g q entry = nxdomainFrame g q.dnsOffset := by
    rw [payloadFrame, hneg, if_pos rfl]
  have hkept : ∀ {j m}, j + m ≤ f.length → j + m ≤ g.length →
      (j + m ≤ q.dnsOffset + 2 ∨ q.dnsOffset + 4 ≤ j) →
        (j + m ≤ q.dnsOffset + 6 ∨ q.dnsOffset + 12 ≤ j) →
      slice (nxdomainFrame g q.dnsOffset) j m = slice f j m := by
    intro j m hf hm h1 h2
    rw [slice_nxdomainFrame_other hhdr h1 h2, slice_resize hg hf hm]
  simp only [DNS_HDR_LEN] at *
  have hflags : nxdomainFlags (be16At g (q.dnsOffset + 2)) =
      0x8003 ||| (be16At f (q.dnsOffset + 2) &&& 0x0100) := by
    rw [be16At_congr (slice_resize hg (by omega) (by omega)), nxdomainFlags]
    generalize be16At f (q.dnsOffset + 2) &&& 0x0100 = rd
    rw [UInt16.or_assoc, UInt16.or_comm rd, ← UInt16.or_assoc]
    rfl
  have hqd : slice f (q.dnsOffset + 4) 2 = [0, 1] := by
    rw [slice_two (by omega), hdns, hit.headersOk.qdcount]
    decide
  rw [hpf, slice_append _ _ 12 q.questionLen, slice_append _ _ 6 6, slice_append _ _ 4 2,
    slice_append _ _ 2 2,
    hkept (by omega) (by omega) (by omega) (by omega), slice_nxdomainFrame_flags hhdr, hflags,
    hkept (j := q.dnsOffset + 4) (by omega) (by omega) (by omega) (by omega), hqd,
    slice_nxdomainFrame_counts hhdr, hkept (by omega) (by omega) (by omega) (by omega)]

/-- **The frame transmitted for a hit has the reply's shape.** -/
theorem LiveHit.replyShape (hit : LiveHit hs env f q entry n) (hg : resize env f q n = some g)
    (hlen : q.dnsOffset + q.oldDnsLen ≤ f.length) :
    ReplyShape f g (replyFrame f g q entry n) entry q.questionLen n := by
  have hfit := (resize_fits_iff hg).mpr hlen
  have hgl := length_resize hg
  obtain ⟨hihl, hudp, hold, hdns⟩ := hit.layout
  obtain ⟨hip, hu, -⟩ := hit.headers_fit hfit
  obtain ⟨hmin, hmax⟩ := hit.bounds
  have hihl' := ipHdrLen_le f
  have hlp := hit.length_payloadFrame hfit
  have hok := hit.headersOk.ihl
  have hkept : ∀ {j m}, j + m ≤ dnsOffset f → slice (payloadFrame f g q entry) j m = slice f j m :=
    hit.slice_payload_headers hg hfit
  have hpos := hit.slice_payload_positive hfit
  have hneg := hit.slice_payload_negative hg hfit
  have hout : ∀ {m}, slice (payloadFrame f g q entry) (q.dnsOffset + n) m =
    slice g (q.dnsOffset + n) m :=
    hit.slice_payload_outside hfit (.inr (Nat.le_refl _))
  simp only [replyFrame, hihl, hudp, hold, hdns, MAX_DNS_LEN]
    at hlen hfit hgl hu hmax hpos hneg hout ⊢
  have hoff : dnsOffset f = udpOffset f + UDP_HDR_LEN := rfl
  have h8 : UDP_HDR_LEN = 8 := rfl
  have hudp34 : ETH_HDR_LEN + IP_HDR_LEN ≤ udpOffset f := by simp only [udpOffset]; omega
  have h34 : ETH_HDR_LEN + IP_HDR_LEN = 34 := rfl
  have hiu : udpOffset f = 34 + (ipHdrLen f - IP_HDR_LEN) := by simp only [udpOffset]; omega
  have hu' : udpOffset f + UDP_HDR_LEN ≤ (payloadFrame f g q entry).length := by omega
  obtain ⟨m1, m2⟩ := slice_replyHeaders_macs (i := ipHdrLen f) (n := n) hudp34 hu'
  obtain ⟨a1, a2⟩ := slice_replyHeaders_addresses (i := ipHdrLen f) (n := n) hudp34 hu'
  obtain ⟨u1, u2, u3, u4⟩ := replyHeaders_udp (i := ipHdrLen f) (n := n) hudp34 hu'
  have hkept' : ∀ {j m}, 12 ≤ j → j + m ≤ udpOffset f → (j + m ≤ 16 ∨ 18 ≤ j) →
    (j + m ≤ 20 ∨ 22 ≤ j) →
      (j + m ≤ 24 ∨ 34 ≤ j) →
      slice (replyHeaders (payloadFrame f g q entry) (ipHdrLen f) (udpOffset f) n) j m =
        slice f j m := by
    intro j m h0 hj h1 h2 h3
    rw [slice_replyHeaders_kept hudp34 hu' h0 hj h1 h2 h3, hkept (by omega)]
  constructor
  case length =>
    rw [length_replyHeaders (by omega) hu', hlp]
    omega
  case macDest => rw [m1, hkept (by omega)]
  case macSource => rw [m2, hkept (by omega)]
  case etherType => exact hkept' (by omega) (by omega) (by omega) (by omega) (by omega)
  case versionTos => exact hkept' (by omega) (by omega) (by omega) (by omega) (by omega)
  case totLen =>
    rw [be16At_replyHeaders_totLen hudp34 hu', UInt16.toNat_ofNat_of_lt']
    simp only [UDP_HDR_LEN, UInt16.size]
    omega
  case id => exact hkept' (by omega) (by omega) (by omega) (by omega) (by omega)
  case fragOff => rw [be16At_replyHeaders_fragOff hudp34 hu', be16At_congr (hkept (by omega))]
  case ttlProtocol => exact hkept' (by omega) (by omega) (by omega) (by omega) (by omega)
  case ipSource => rw [a1, hkept (by omega)]
  case ipDest => rw [a2, hkept (by omega)]
  case options => exact hkept' (by omega) (by omega) (by omega) (by omega) (by omega)
  case portSource => rw [u1, hkept (by omega)]
  case portDest => rw [u2, hkept (by omega)]
  case udpLength =>
    rw [u3, UInt16.toNat_ofNat_of_lt']
    simp only [UDP_HDR_LEN, UInt16.size]
    omega
  case udpCheck => exact u4
  case positive => rwa [slice_replyHeaders_payload hudp34 hu' (by omega)]
  case negative => rwa [slice_replyHeaders_payload hudp34 hu' (by omega)]
  case rest =>
    have hdrop : ∀ {b : Frame} {i : Nat}, b.drop i = slice b i b.length := by
      intro b i
      unfold slice
      rw [List.take_of_length_le (by simp)]
    rw [hdrop, hdrop, length_replyHeaders (by omega) hu', hlp,
      slice_replyHeaders_payload hudp34 hu' (by omega), hout]

end Payload

theorem Ran.tx {H : Type} {hs : WordHasher H} {env : XdpEnv H} {f g : Frame}
    {r : Except Unit (XdpAction × Option Outcome)} (h : Ran hs env f r g)
    (ht : (verdict r).1 = .tx) :
    ∃ q entry n g', LiveHit hs env f q entry n ∧ resize env f q n = some g' ∧
      q.dnsOffset + q.oldDnsLen ≤ f.length ∧ g = replyFrame f g' q entry n := by
  cases h with
  | answered hit hg hlen => exact ⟨_, _, _, _, hit, hg, hlen, rfl⟩
  | ignored | unanswered | poisoned | notResized | overrun => cases ht

/-- A transmitted frame answers a live hit, in the reply's shape. -/
theorem tx_shape {H : Type} {hs : WordHasher H} {env : XdpEnv H} {stats stats' : Vector XdpStats 1}
    {f f' : Frame} (h : dnsXdpWith hs env stats f = .ok (.tx, stats', f')) :
    ∃ q entry n g, LiveHit hs env f q entry n ∧ resize env f q n = some g ∧
      n = (if entry.isNegative then DNS_HDR_LEN + q.questionLen else entry.respLen.toNat) ∧
      ReplyShape f g f' entry q.questionLen n := by
  obtain ⟨r, g', hr, he⟩ := dnsXdpWith_ran hs env stats f
  rw [he] at h
  simp only [Except.ok.injEq, Prod.mk.injEq] at h
  obtain ⟨ht, -, rfl⟩ := h
  obtain ⟨q, entry, n, g, hit, hg, hlen, rfl⟩ := hr.tx ht
  refine ⟨q, entry, n, g, hit, hg, ?_, hit.replyShape hg hlen⟩
  rcases hit.replyLen_eq with ⟨hneg, hn⟩ | ⟨hneg, hn, -⟩
  · rw [hneg, if_pos rfl, hn]
  · rw [hneg, if_neg Bool.false_ne_true, hn]

/-- **Exact shape of a kernel reply.** -/
theorem dnsXdp_tx_shape {env : XdpEnv UInt64} {stats stats' : Vector XdpStats 1} {f f' : Frame}
    (h : dnsXdp env stats f = .ok (.tx, stats', f')) :
    ∃ q entry n g, LiveHit fnv1a env f q entry n ∧ resize env f q n = some g ∧
      n = (if entry.isNegative then DNS_HDR_LEN + q.questionLen else entry.respLen.toNat) ∧
      ReplyShape f g f' entry q.questionLen n :=
  tx_shape h

/-! ## A concrete kernel -/

/-- `bpf_xdp_adjust_tail` on Linux: it refuses to go below an Ethernet header or past
the tailroom, and zeroes what it adds. -/
def AdjustTail.linux (tailroom : Nat) : AdjustTail where
  run f d :=
    let len := (f.length + d).toNat
    if (f.length : Int) + d < ETH_HDR_LEN ∨ f.length + tailroom < len then none
    else some (f.take len ++ List.replicate (len - f.length) 0)
  length_run := by
    intro f d g h
    simp only at h
    split at h
    · cases h
    · cases h
      simp only [List.length_append, List.length_take, List.length_replicate]
      omega
  getElem?_run := by
    intro f d g h i hi hg
    simp only at h
    split at h
    · cases h
    · cases h
      have hl : i < (f.take (f.length + d).toNat).length := by
        simp only [List.length_append, List.length_take, List.length_replicate] at hg ⊢
        omega
      rw [List.getElem?_append_left hl, List.getElem?_take_of_lt (by simp at hl; omega)]

/-- A query for `A.` type A class IN, RD set, from 10.0.0.2 port 40000. -/
def sampleQuery : Frame :=
  [2, 0, 0, 0, 0, 1, 2, 0, 0, 0, 0, 2, 8, 0,
   0x45, 0, 0, 47, 0, 7, 0, 0, 64, 17, 0x66, 0xb5, 10, 0, 0, 2, 10, 0, 0, 1,
   0x9c, 0x40, 0, 53, 0, 27, 0, 0,
   0x12, 0x34, 0x01, 0x00, 0, 1, 0, 0, 0, 0, 0, 0,
   1, 0x41, 0, 0, 1, 0, 1]

/-- The reply to it from a negative entry. -/
def sampleReply : Frame :=
  [2, 0, 0, 0, 0, 2, 2, 0, 0, 0, 0, 1, 8, 0,
   0x45, 0, 0, 47, 0, 7, 0x40, 0, 64, 17, 0x26, 0xb5, 10, 0, 0, 1, 10, 0, 0, 2,
   0, 53, 0x9c, 0x40, 0, 27, 0, 0,
   0x12, 0x34, 0x81, 0x03, 0, 1, 0, 0, 0, 0, 0, 0,
   1, 0x41, 0, 0, 1, 0, 1]

/-- The lowercase spelling of the name it asks for. -/
def sampleName : Name := ⟨[[0x61]], by decide, by decide⟩

/-- A machine whose cache holds one entry, for that name. -/
def sampleEnv (entry : CacheValue) (now : UInt64) : XdpEnv UInt64 where
  config := some 53
  cache key := if key = makeCacheKey sampleName 1 1 then some entry else none
  now
  adjustTail := AdjustTail.linux 256

def sampleStats : Vector XdpStats 1 := Vector.replicate 1 ⟨0, 0, 0, 0, 0⟩

theorem dnsXdp_tx_shape_sample :
    ∃ q entry n g, LiveHit fnv1a (sampleEnv (.newNegative [] 5) 4) sampleQuery q entry n ∧
      resize (sampleEnv (.newNegative [] 5) 4) sampleQuery q n = some g ∧
      n = (if entry.isNegative then DNS_HDR_LEN + q.questionLen else entry.respLen.toNat) ∧
      ReplyShape sampleQuery g sampleReply entry q.questionLen n := by
  have hrun : dnsXdp (sampleEnv (.newNegative [] 5) 4) sampleStats sampleQuery =
      .ok (.tx, record sampleStats .negativeHit, sampleReply) := by
    decide +kernel
  exact dnsXdp_tx_shape hrun

end DoggyDns.Ebpf
