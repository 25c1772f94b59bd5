import DoggyDns.Core.Reply
import DoggyDns.System.Coherence

/-!
# The kernel's header against the handler's

Both paths answer one question from one chain result: the handler builds a
message for the query at hand, the kernel replays the bytes built for an
earlier query or synthesises an NXDOMAIN. This compares the header bits.
-/

namespace DoggyDns

open Bytes Ebpf

/-! ## Header bits of a transmitted frame -/

def rcode (f' : Frame) (dns : Nat) : UInt8 := byteAt f' (dns + 3) &&& 0x0F
def aa (f' : Frame) (dns : Nat) : Bool := byteAt f' (dns + 2) &&& 0x04 ≠ 0
def ra (f' : Frame) (dns : Nat) : Bool := byteAt f' (dns + 3) &&& 0x80 ≠ 0
def rd (f' : Frame) (dns : Nat) : Bool := byteAt f' (dns + 2) &&& 0x01 ≠ 0
def nscount (f' : Frame) (dns : Nat) : UInt16 := be16At f' (dns + 8)

/-- The two paths agree on the header of a reply, and on the SOA of an NXDOMAIN. -/
def HeadersAgree (f' : Frame) (dns : Nat) (m : Message) : Prop :=
  rcode f' dns = m.metadata.responseCode.low ∧ aa f' dns = m.metadata.authoritative ∧
  ra f' dns = m.metadata.recursionAvailable ∧ rd f' dns = m.metadata.recursionDesired ∧
  (m.metadata.responseCode = .nxDomain → (nscount f' dns ≠ 0 ↔ m.soa ≠ []))

/-! ## Bits of an encoding -/

theorem flagsHigh_bits (m : Metadata) (h : m.opCode = .query) :
    decide (m.flagsHigh &&& 0x04 ≠ 0) = m.authoritative ∧
    decide (m.flagsHigh &&& 0x01 ≠ 0) = m.recursionDesired := by
  unfold Metadata.flagsHigh
  rw [h]
  generalize decide (m.messageType = .response) = qr
  generalize m.authoritative = aa
  generalize m.truncation = tc
  generalize m.recursionDesired = rd
  revert qr aa tc rd
  decide

theorem flagsLow_bits (m : Metadata) (h : m.responseCode = .noError) :
    m.flagsLow &&& 0x0F = 0 ∧ decide (m.flagsLow &&& 0x80 ≠ 0) = m.recursionAvailable := by
  unfold Metadata.flagsLow
  rw [h]
  generalize m.recursionAvailable = ra
  generalize m.authenticData = ad
  generalize m.checkingDisabled = cd
  revert ra ad cd
  decide

/-! ## What the kernel sends -/

/-- The bits of a synthesised NXDOMAIN. -/
theorem negative_bits {f g f' : Frame} {entry : CacheValue} {questionLen : Nat}
    (h : ReplyShape f g f' entry questionLen (DNS_HDR_LEN + questionLen))
    (hneg : entry.isNegative = true)
    (hlen : dnsOffset f + 2 ≤ f.length) :
    rcode f' (dnsOffset f) = 3 ∧ aa f' (dnsOffset f) = false ∧ ra f' (dnsOffset f) = false ∧
    rd f' (dnsOffset f) = decide (be16At f (dnsOffset f + 2) &&& 0x0100 ≠ 0) ∧
    nscount f' (dnsOffset f) = 0 := by
  have hid : (slice f (dnsOffset f) 2).length = 2 := by simp; omega
  have hp := h.negative hneg
  simp only [List.append_assoc] at hp
  have hb : ∀ {k}, 2 ≤ k → k < 12 → byteAt f' (dnsOffset f + k) = byteAt
      (be16Bytes (0x8003 ||| (be16At f (dnsOffset f + 2) &&& 0x0100)) ++
        ([0, 1] ++ ([0, 0, 0, 0, 0, 0] ++
        slice f (dnsOffset f + DNS_HDR_LEN) questionLen))) (k - 2) := by
    intro k h2 hk
    have := byteAt_of_slice_append hp (k := k) (by omega) (by simp only [DNS_HDR_LEN]; omega)
    rwa [hid] at this
  have hns : nscount f' (dnsOffset f) = be16 0 0 := by
    unfold nscount
    rw [be16At, hb (by decide) (by decide), Nat.add_assoc, hb (by decide) (by decide)]
    rfl
  have h2 : byteAt f' (dnsOffset f + 2) =
      ((0x8003 ||| (be16At f (dnsOffset f + 2) &&& 0x0100)) >>> 8).toUInt8 :=
        hb (by decide) (by decide)
  have h3 : byteAt f' (dnsOffset f + 3) =
      ((0x8003 ||| (be16At f (dnsOffset f + 2) &&& 0x0100)) &&& 0xFF).toUInt8 :=
        hb (by decide) (by decide)
  simp only [rcode, aa, ra, rd, h2, h3, hns]
  rcases and_rd_cases (be16At f (dnsOffset f + 2)) with hrd | hrd <;> rw [hrd]
  · exact ⟨by decide, by decide, by decide, by decide, by decide⟩
  · exact ⟨by decide, by decide, by decide, by decide, by decide⟩

/-- The bits of a replayed encoding of `m`. -/
theorem positive_bits {hk : Hickory} (hlaw : hk.Lawful) {f f' : Frame} {bytes : List UInt8}
    {m : Message}
    {limit : UInt16} (hemit : hk.destructiveEmit m limit = some bytes)
    (hop : m.metadata.opCode = .query)
    (hcode : m.metadata.responseCode = .noError)
    (hp : slice f' (dnsOffset f) bytes.length = slice f (dnsOffset f) 2 ++ bytes.drop 2)
    (hf : dnsOffset f + 2 ≤ f.length) (hlen : 4 ≤ bytes.length) :
    rcode f' (dnsOffset f) = 0 ∧ aa f' (dnsOffset f) = m.metadata.authoritative ∧
    ra f' (dnsOffset f) = m.metadata.recursionAvailable ∧
    rd f' (dnsOffset f) = m.metadata.recursionDesired := by
  have hid : (slice f (dnsOffset f) 2).length = 2 := by simp; omega
  have hb : ∀ {k}, 2 ≤ k → k < 4 → byteAt f' (dnsOffset f + k) = byteAt bytes k := by
    intro k h2 hk
    rw [byteAt_of_slice_append hp (by omega) (by omega), hid]
    simp only [byteAt, List.getD_eq_getElem?_getD, List.getElem?_drop, Nat.add_sub_cancel' h2]
  obtain ⟨tc, h2⟩ := hlaw.flagsHigh hemit
  have h3 := hlaw.flagsLow hemit
  obtain ⟨haa, hrd⟩ := flagsHigh_bits { m.metadata with truncation := tc } hop
  obtain ⟨hrc, hra⟩ := flagsLow_bits m.metadata hcode
  unfold rcode
  rw [aa, ra, rd, hb (by decide) (by decide), hb (by decide) (by decide), h2, h3]
  exact ⟨hrc, haa, hra, hrd⟩

/-! ## The comparison -/

/-- A frame answered from the entry stored for an earlier query `request₀` whose chain
result was `result`. -/
structure Replay (hk : Hickory) (negativeTtl : UInt64) (result : ResolveResult) (request₀ : Request)
    (env : XdpEnv UInt64) (f f' : Frame) (q : DnsQuery UInt64) : Prop where
  parsed : parseQuery fnv1a env.config f = .ok (some q)
  stored : ∃ rotation send time value,
    afterRequest negativeTtl time request₀ (respond hk true rotation request₀ send result).outcome =
      some (q.key, value) ∧ env.cache q.key = some value
  transmitted : ∃ stats stats', dnsXdp env stats f = .ok (.tx, stats', f')

/-- **What the two paths' headers have in common.** -/
theorem kernel_reply_header {hk : Hickory} (hlaw : hk.Lawful) {negativeTtl : UInt64}
    {result : ResolveResult}
    {request₀ request : Request} {env : XdpEnv UInt64} {f f' : Frame} {q : DnsQuery UInt64}
    (hreplay : Replay hk negativeTtl result request₀ env f f' q)
    (hquery : request.metadata.recursionDesired =
      decide (be16At f (dnsOffset f + 2) &&& 0x0100 ≠ 0))
    {xdpEnabled : Bool} {rotation : AnswerRotation} {send : Send} {m : Message} {ok : Bool}
    (hm : (respond hk xdpEnabled rotation request send result).sent.head? = some (m, ok)) :
    rcode f' (dnsOffset f) = m.metadata.responseCode.low ∧
    (m.metadata.responseCode ≠ .nxDomain →
      aa f' (dnsOffset f) = m.metadata.authoritative ∧
      ra f' (dnsOffset f) = m.metadata.recursionAvailable ∧
      (request₀.metadata.recursionDesired = request.metadata.recursionDesired →
        rd f' (dnsOffset f) = m.metadata.recursionDesired)) ∧
    (m.metadata.responseCode = .nxDomain →
      rd f' (dnsOffset f) = m.metadata.recursionDesired ∧
      aa f' (dnsOffset f) = false ∧ ra f' (dnsOffset f) = false ∧
      nscount f' (dnsOffset f) = 0) := by
  obtain ⟨hparsed, ⟨rotation₀, send₀, time, value, hins, hcache⟩, stats, stats', htx⟩ := hreplay
  obtain ⟨q', entry, n, g, hit, hg, hn, hshape⟩ := tx_shape htx
  obtain rfl : q = q' := Option.some.inj (Except.ok.inj (hparsed ▸ hit.parsed))
  obtain rfl : value = entry := Option.some.inj (hcache ▸ (lookupEntry_eq_ok hit.live).1)
  obtain ⟨query, bytes, -, hbytes, hcacheable, hentry⟩ := afterRequest_eq_some hins
  obtain ⟨-, m₀, ok₀, hsent, hcached⟩ := respond_ok result bytes hbytes
  have hhead : (respond hk true rotation₀ request₀ send₀ result).sent.head? = some (m₀, ok₀) := by
    rw [hsent]
    rfl
  have hm₀ := respond_head result hhead
  have hmeta := respond_head result hm
  have hcode : (respond hk true rotation₀ request₀ send₀ result).outcome.responseCode =
    result.code := by
    rw [hcached.responseCode, hm₀]
    rfl
  obtain ⟨expiresAt, hexp⟩ := computeCacheEntry_value query.name query.queryType query.queryClass
    result.code
    bytes (respond hk true rotation₀ request₀ send₀ result).outcome.minAnswerTtl negativeTtl time
  rw [hcode] at hentry hcacheable
  have hval : value = CacheValue.fromResponse bytes expiresAt (result.code = .nxDomain) :=
    (congrArg Prod.snd hentry).trans hexp
  have hmin := hit.bounds.1
  have hhdr := hit.headersOk.length
  simp only [MIN_POSITIVE_LEN, DNS_HDR_LEN] at hmin hhdr
  obtain ⟨hnegative, hpositive⟩ :=
    hshape.payload_of_response hn (by omega) hval hcached.admitted.length_le
  rw [hmeta]
  by_cases hnx : result.code = .nxDomain
  · obtain rfl := hnegative (decide_eq_true hnx)
    have hneg : value.isNegative = true := by
      rw [hval, CacheValue.isNegative_fromResponse]
      exact decide_eq_true hnx
    obtain ⟨h1, h2, h3, h4, h5⟩ := negative_bits hshape hneg (by omega)
    refine ⟨by rw [h1, hnx]; rfl, fun hne => absurd hnx hne, fun _ => ⟨?_, h2, h3, h5⟩⟩
    rw [h4, ← hquery]
    exact (hlaw.recursionDesired _).symm
  · have hno : result.code = .noError := hcacheable.resolve_right hnx
    obtain ⟨rfl, hpayload⟩ := hpositive (decide_eq_false hnx)
    obtain ⟨h1, h2, h3, h4⟩ := positive_bits hlaw hcached.encodes (by rw [hm₀]; rfl)
      (by rw [hm₀]; exact hno) hpayload (by omega) (by omega)
    rw [hm₀] at h2 h3 h4
    refine ⟨by rw [h1, hno]; rfl, fun _ => ⟨h2, h3, fun hrd => ?_⟩, fun h => absurd h hnx⟩
    rw [h4]
    simp only [errorMetadata, hlaw.recursionDesired, hrd]

/-- The chain result of a chain without authorities. -/
def skipped : ResolveResult := ⟨.skip, none, false, none⟩

theorem sample_replay : Replay .plain 60 skipped sampleRequest
    (sampleEnv sampleInsertion.value 1) sampleQuery
    sampleReply ⟨20, 34, 19, 42, (makeCacheKey sampleName 1 1).nameHash, 1, 1, 7⟩ where
  parsed := by decide +kernel
  stored := ⟨⟨true, 0⟩, sendOk, 0, sampleInsertion.value, by decide +kernel, by decide +kernel⟩
  transmitted := ⟨sampleStats, record sampleStats .negativeHit, by decide +kernel⟩

/-- The message the handler sends for the sample query. -/
def sampleMessage : Message :=
  Message.build sampleRequest (errorMetadata .plain sampleRequest .nxDomain false) [] [] [] []

theorem kernel_reply_header_sample :
    rcode sampleReply 42 = 3 ∧ rd sampleReply 42 = true ∧ nscount sampleReply 42 = 0 := by
  have hrd : sampleRequest.metadata.recursionDesired =
      decide (be16At sampleQuery (dnsOffset sampleQuery + 2) &&& 0x0100 ≠ 0) := by
    decide +kernel
  have hm : (respond .plain true ⟨true, 0⟩ sampleRequest sendOk skipped).sent.head? =
    some (sampleMessage, true) := by
    decide +kernel
  have h := kernel_reply_header Hickory.plain_lawful sample_replay hrd hm
  have hdns : dnsOffset sampleQuery = 42 := by decide
  rw [hdns] at h
  exact ⟨h.1, (h.2.2 rfl).1, (h.2.2 rfl).2.2.2⟩

/-! ## Where they differ -/

/-- One address, from a zone owner. -/
def answered : ResolveResult where
  outcome := .continue (.ok (.section [⟨sampleName, 60, .a 0x0A000009⟩]))
  handlerName := some "nacos"
  authoritative := true
  soa := none

/-- The entry stored for it when the sample query, which has RD set, was answered. -/
def answeredValue : CacheValue := .newPositive
  [0x12, 0x34, 0x85, 0x00, 0, 1, 0, 1, 0, 0, 0, 0, 1, 0x41, 0, 0, 1, 0, 1,
   1, 0x61, 0, 0, 1, 0, 1, 0, 0, 0, 60, 0, 4, 10, 0, 0, 9] 60000000000

/-- The sample query with RD clear, as a frame and as a request. -/
def iterativeQuery : Frame := sampleQuery.set 44 0

def iterativeRequest : Request :=
  { sampleRequest with metadata := { sampleRequest.metadata with recursionDesired := false } }

/-- What the kernel answers it with. -/
def iterativeReply : Frame :=
  [2, 0, 0, 0, 0, 2, 2, 0, 0, 0, 0, 1, 8, 0,
   0x45, 0, 0, 64, 0, 7, 0x40, 0, 64, 17, 0x26, 0xa4, 10, 0, 0, 1, 10, 0, 0, 2,
   0, 53, 0x9c, 0x40, 0, 44, 0, 0,
   0x12, 0x34, 0x85, 0x00, 0, 1, 0, 1, 0, 0, 0, 0,
   1, 0x41, 0, 0, 1, 0, 1, 1, 0x61, 0, 0, 1, 0, 1, 0, 0, 0, 60, 0, 4, 10, 0, 0, 9]

theorem iterative_replay : Replay .plain 60 answered sampleRequest (sampleEnv answeredValue 1)
    iterativeQuery iterativeReply
    ⟨20, 34, 19, 42, (makeCacheKey sampleName 1 1).nameHash, 1, 1, 7⟩ where
  parsed := by decide +kernel
  stored := ⟨⟨true, 0⟩, sendOk, 0, answeredValue, by decide +kernel, by decide +kernel⟩
  transmitted := ⟨sampleStats, record sampleStats .hit, by decide +kernel⟩

/-- The kernel clears RA in an NXDOMAIN for which the handler sets it, and replays RD from the
query an answer was stored for. -/
theorem headers_disagree_sample :
    (Replay .plain 60 skipped sampleRequest (sampleEnv sampleInsertion.value 1) sampleQuery
        sampleReply
        ⟨20, 34, 19, 42, (makeCacheKey sampleName 1 1).nameHash, 1, 1, 7⟩ ∧
      (respond .plain true ⟨true, 0⟩ sampleRequest sendOk skipped).sent.head? =
        some (sampleMessage, true) ∧
      ¬ HeadersAgree sampleReply (dnsOffset sampleQuery) sampleMessage) ∧
    Replay .plain 60 answered sampleRequest (sampleEnv answeredValue 1) iterativeQuery
        iterativeReply
        ⟨20, 34, 19, 42, (makeCacheKey sampleName 1 1).nameHash, 1, 1, 7⟩ ∧
      ∃ m, (respond .plain true ⟨true, 0⟩ iterativeRequest sendOk answered).sent.head? =
          some (m, true) ∧ m.metadata.responseCode = .noError ∧
        ¬ HeadersAgree iterativeReply (dnsOffset iterativeQuery) m := by
  refine ⟨⟨sample_replay, by decide +kernel, ?_⟩, iterative_replay, _, rfl, rfl, ?_⟩
  · rintro ⟨-, -, hra, -⟩
    revert hra
    decide +kernel
  · rintro ⟨-, -, -, hrd, -⟩
    revert hrd
    decide +kernel

end DoggyDns
