import DoggyDns.Ebpf.Rewrite

/-!
# One invocation of the program

`Ran` lists what an invocation can do, with the guards of each case and the
frame it leaves; `tryDnsXdp_ran` says that every invocation ends in one of them
and faults in none. The rest of the development cites `Ran` and never unfolds
the program.
-/

namespace DoggyDns.Ebpf

open Bytes WordHash

/-! ## Layout of a frame -/

def ipHdrLen (f : Frame) : Nat := (byteAt f ETH_HDR_LEN &&& 0x0F).toNat * 4
def udpOffset (f : Frame) : Nat := ETH_HDR_LEN + ipHdrLen f
/-- The UDP length field. -/
def udpLen (f : Frame) : Nat := (be16At f (udpOffset f + 4)).toNat
def dnsOffset (f : Frame) : Nat := udpOffset f + UDP_HDR_LEN

/-- Steps 1 to 4 accept the frame: a DNS query header over UDP over IPv4, to the
configured port. -/
structure HeadersOk (config : Option UInt16) (f : Frame) : Prop where
  etherType : be16At f 12 = ETH_P_IP
  protocol : byteAt f (ETH_HDR_LEN + 9) = IPPROTO_UDP
  ihl : IP_HDR_LEN ≤ ipHdrLen f
  port : config = some (be16At f (udpOffset f + 2))
  le_udpLen : UDP_HDR_LEN ≤ udpLen f
  udpLen_le : udpLen f ≤ MAX_UDP_DNS_LEN
  length : dnsOffset f + DNS_HDR_LEN ≤ f.length
  query : be16At f (dnsOffset f + 2) &&& 0x8000 = 0
  qdcount : be16At f (dnsOffset f + 4) = 1

instance (config : Option UInt16) (f : Frame) : Decidable (HeadersOk config f) :=
  decidable_of_iff
    (be16At f 12 = ETH_P_IP ∧ byteAt f (ETH_HDR_LEN + 9) = IPPROTO_UDP ∧ IP_HDR_LEN ≤ ipHdrLen f ∧
      config = some (be16At f (udpOffset f + 2)) ∧ UDP_HDR_LEN ≤ udpLen f ∧
        udpLen f ≤ MAX_UDP_DNS_LEN ∧
      dnsOffset f + DNS_HDR_LEN ≤ f.length ∧
      be16At f (dnsOffset f + 2) &&& 0x8000 = 0 ∧ be16At f (dnsOffset f + 4) = 1)
    ⟨fun ⟨a, b, c, d, e, g, i, j, k⟩ => ⟨a, b, c, d, e, g, i, j, k⟩,
      fun ⟨a, b, c, d, e, g, i, j, k⟩ => ⟨a, b, c, d, e, g, i, j, k⟩⟩

theorem ipHdrLen_le (f : Frame) : ipHdrLen f ≤ 60 := by
  have h : (byteAt f ETH_HDR_LEN &&& 0x0F).toNat ≤ 15 := by
    rw [UInt8.toNat_and]
    exact Nat.and_le_right
  unfold ipHdrLen
  omega

section
variable {H : Type} (hs : WordHasher H)

/-- The query steps 1 to 5 find in a frame. -/
def queryOf (config : Option UInt16) (f : Frame) : Option (DnsQuery H) :=
  if HeadersOk config f then
    (questionAt hs hs.basis f (dnsOffset f + DNS_HDR_LEN) 0).map
      fun (nameHash, qtype, qclass, questionLen) =>
      ⟨ipHdrLen f, udpOffset f, udpLen f - UDP_HDR_LEN, dnsOffset f, nameHash, qtype, qclass,
        questionLen⟩
  else none

/-- Steps 1 to 5 fault on no frame. -/
theorem parseQuery_eq (config : Option UInt16) (f : Frame) :
    parseQuery hs config f = .ok (queryOf hs config f) := by
  have hno : ¬ HeadersOk config f → queryOf hs config f = none := fun h => if_neg h
  have hdns : dnsOffset f = ETH_HDR_LEN + ipHdrLen f + UDP_HDR_LEN := rfl
  unfold parseQuery
  by_cases h1 : ETH_HDR_LEN > f.length
  · rw [if_pos h1, hno fun h => by have := h.length; omega]
  rw [if_neg h1, readU16Be_ok (by simp only [ETH_HDR_LEN] at h1; omega)]
  simp only [bind, Except.bind, Nat.zero_add]
  by_cases h2 : be16At f 12 = ETH_P_IP
  swap
  · rw [if_pos h2, hno fun h => h2 h.etherType]
  rw [if_neg (not_not_intro h2)]
  by_cases h3 : ETH_HDR_LEN + IP_HDR_LEN > f.length
  · rw [if_pos h3, hno fun h => by have := h.ihl; have := h.length; omega]
  rw [if_neg h3, load8_ok (by simp only [IP_HDR_LEN] at h3; omega)]
  simp only
  by_cases h4 : byteAt f (ETH_HDR_LEN + 9) = IPPROTO_UDP
  swap
  · rw [if_pos h4, hno fun h => h4 h.protocol]
  rw [if_neg (not_not_intro h4), load8_ok (by simp only [IP_HDR_LEN] at h3; omega)]
  simp only
  rw [show (byteAt f ETH_HDR_LEN &&& 0x0F).toNat * 4 = ipHdrLen f from rfl]
  by_cases h5 : ipHdrLen f < 20 ∨ ETH_HDR_LEN + ipHdrLen f > f.length
  · rw [if_pos h5, hno fun h => by
      have := h.ihl
      have := h.length
      simp only [IP_HDR_LEN] at *
      omega]
  rw [if_neg h5, show ETH_HDR_LEN + ipHdrLen f = udpOffset f from rfl]
  by_cases h6 : udpOffset f + UDP_HDR_LEN > f.length
  · rw [if_pos h6, hno fun h => by
      have := h.length
      simp only [dnsOffset] at this
      omega]
  rw [if_neg h6]
  cases config with
  | none => exact congrArg Except.ok (hno fun h => by cases h.port).symm
  | some dnsPort =>
  simp only
  simp only [UDP_HDR_LEN] at h6
  rw [readU16Be_ok (by omega)]
  simp only
  by_cases h7 : be16At f (udpOffset f + 2) = dnsPort
  swap
  · rw [if_pos h7, hno fun h => h7 (Option.some.inj h.port).symm]
  rw [if_neg (not_not_intro h7), readU16Be_ok (by omega)]
  simp only
  rw [show (be16At f (udpOffset f + 4)).toNat = udpLen f from rfl]
  by_cases h8 : UDP_HDR_LEN ≤ udpLen f ∧ udpLen f ≤ MAX_UDP_DNS_LEN
  swap
  · rw [if_pos h8, hno fun h => h8 ⟨h.le_udpLen, h.udpLen_le⟩]
  rw [if_neg (not_not_intro h8), show udpOffset f + UDP_HDR_LEN = dnsOffset f from rfl]
  by_cases h9 : dnsOffset f + DNS_HDR_LEN > f.length
  · rw [if_pos h9, hno fun h => by have := h.length; omega]
  rw [if_neg h9]
  have h9' : dnsOffset f + 12 ≤ f.length := by simp only [DNS_HDR_LEN] at h9; omega
  rw [readU16Be_ok (by omega), readU16Be_ok (by omega)]
  simp only
  by_cases h10 : be16At f (dnsOffset f + 2) &&& 0x8000 ≠ 0 ∨ be16At f (dnsOffset f + 4) ≠ 1
  · rw [if_pos h10, hno fun h => by
      rcases h10 with h10 | h10
      · exact h10 h.query
      · exact h10 h.qdcount]
  rw [if_neg h10]
  simp only [not_or, not_not] at h10
  have hok : HeadersOk (some dnsPort) f :=
    ⟨h2, h4, by simp only [IP_HDR_LEN]; omega, by rw [h7], h8.1, h8.2, h9', h10.1, h10.2⟩
  rw [parseDnsQuestionWith_eq hs f h9', queryOf, if_pos hok]
  simp only
  cases questionAt hs hs.basis f (dnsOffset f + DNS_HDR_LEN) 0 <;> rfl

/-- What an accepted frame guarantees about the question found in it. -/
theorem queryOf_eq_some {config : Option UInt16} {f : Frame} {q : DnsQuery H}
    (h : queryOf hs config f = some q) :
    HeadersOk config f ∧ q.ipHdrLen = ipHdrLen f ∧ q.udpOffset = udpOffset f ∧
    q.oldDnsLen = udpLen f - UDP_HDR_LEN ∧ q.dnsOffset = dnsOffset f ∧
    questionAt hs hs.basis f (dnsOffset f + DNS_HDR_LEN) 0 =
      some (q.nameHash, q.qtype, q.qclass, q.questionLen) := by
  unfold queryOf at h
  split at h
  · next hok =>
    obtain ⟨⟨nameHash, qtype, qclass, questionLen⟩, hq, rfl⟩ := Option.map_eq_some_iff.mp h
    exact ⟨hok, rfl, rfl, rfl, rfl, hq⟩
  · cases h

theorem questionAt_bounds {hash : H} {f : Frame} {pos : Nat} {r : H × UInt16 × UInt16 × Nat}
    (h : questionAt hs hash f pos 0 = some r) :
    r.2.2.2 = nonzeroRun f pos + 1 + 4 ∧ r.2.2.2 ≤ MAX_QNAME_LEN + 4 ∧
      pos + r.2.2.2 ≤ f.length := by
  simp only [questionAt] at h
  split at h
  · next hc =>
    cases h
    exact ⟨by simp only; omega, by simp only; omega, by simp only; omega⟩
  · cases h

/-! ## The cases of an invocation -/

/-- A live cache hit of admissible length: the query, its entry and the reply's length. -/
structure LiveHit (env : XdpEnv H) (f : Frame) (q : DnsQuery H) (entry : CacheValue)
    (n : Nat) : Prop where
  parsed : parseQuery hs env.config f = .ok (some q)
  live : lookupEntry env q = .ok entry
  admissible : replyLen entry q = some n

/-- The resize asked for when a hit is answered with `n` bytes. -/
def resize (env : XdpEnv H) (f : Frame) (q : DnsQuery H) (n : Nat) : Option Frame :=
  env.adjustTail.run f ((n : Int) - q.oldDnsLen)

/-- The DNS message of a reply written over the resized frame `g`. -/
def payloadFrame (f g : Frame) (q : DnsQuery H) (entry : CacheValue) : Frame :=
  if entry.isNegative then nxdomainFrame g q.dnsOffset
  else positiveFrame g q.dnsOffset entry entry.respLen.toNat (be16At f q.dnsOffset)

/-- The frame transmitted for a hit. -/
def replyFrame (f g : Frame) (q : DnsQuery H) (entry : CacheValue) (n : Nat) : Frame :=
  replyHeaders (payloadFrame f g q entry) q.ipHdrLen q.udpOffset n

/-- What an invocation can do: its result and the frame it leaves. -/
inductive Ran (env : XdpEnv H) (f : Frame) : Except Unit (XdpAction × Option Outcome) → Frame → Prop
  | ignored (hq : parseQuery hs env.config f = .ok none) : Ran env f (.ok (.pass, none)) f
  | unanswered {q : DnsQuery H} {o : Outcome} (hq : parseQuery hs env.config f = .ok (some q))
      (ho : lookupEntry env q = .error o) : Ran env f (.ok (.pass, some o)) f
  | poisoned {q : DnsQuery H} {entry : CacheValue} (hq : parseQuery hs env.config f = .ok (some q))
      (he : lookupEntry env q = .ok entry) (hn : replyLen entry q = none) :
      Ran env f (.ok (.pass, none)) f
  | notResized {q : DnsQuery H} {entry : CacheValue} {n : Nat} (hit : LiveHit hs env f q entry n)
      (hg : resize env f q n = none) : Ran env f (.ok (.pass, none)) f
  | overrun {q : DnsQuery H} {entry : CacheValue} {n : Nat} {g : Frame}
    (hit : LiveHit hs env f q entry n)
      (hg : resize env f q n = some g) (hlen : f.length < q.dnsOffset + q.oldDnsLen) :
      Ran env f (.error ()) g
  | answered {q : DnsQuery H} {entry : CacheValue} {n : Nat} {g : Frame}
    (hit : LiveHit hs env f q entry n)
      (hg : resize env f q n = some g) (hlen : q.dnsOffset + q.oldDnsLen ≤ f.length) :
      Ran env f (.ok (.tx, some (if entry.isNegative then .negativeHit else .hit)))
        (replyFrame f g q entry n)

/-! ## Every invocation is one of them -/

section Hit
variable {hs}
variable {env : XdpEnv H} {f g : Frame} {q : DnsQuery H} {entry : CacheValue} {n : Nat}

theorem LiveHit.queryOf (hit : LiveHit hs env f q entry n) : queryOf hs env.config f = some q :=
  Except.ok.inj (parseQuery_eq hs env.config f ▸ hit.parsed)

theorem LiveHit.headersOk (hit : LiveHit hs env f q entry n) : HeadersOk env.config f :=
  (queryOf_eq_some hs hit.queryOf).1

/-- The offsets a hit works with are those of the frame's own headers. -/
theorem LiveHit.layout (hit : LiveHit hs env f q entry n) :
    q.ipHdrLen = ipHdrLen f ∧ q.udpOffset = udpOffset f ∧ q.oldDnsLen = udpLen f - UDP_HDR_LEN ∧
    q.dnsOffset = dnsOffset f := by
  obtain ⟨-, h1, h2, h3, h4, -⟩ := queryOf_eq_some hs hit.queryOf
  exact ⟨h1, h2, h3, h4⟩

theorem LiveHit.question (hit : LiveHit hs env f q entry n) :
    q.questionLen = nonzeroRun f (dnsOffset f + DNS_HDR_LEN) + 1 + 4 ∧
      q.questionLen ≤ MAX_QNAME_LEN + 4 ∧
    dnsOffset f + DNS_HDR_LEN + q.questionLen ≤ f.length := by
  obtain ⟨-, -, -, -, -, hq⟩ := queryOf_eq_some hs hit.queryOf
  exact questionAt_bounds hs hq

/-- The reply's length, by kind of entry. -/
theorem LiveHit.replyLen_eq (hit : LiveHit hs env f q entry n) :
    (entry.isNegative = true ∧ n = DNS_HDR_LEN + q.questionLen) ∨
    (entry.isNegative = false ∧ n = entry.respLen.toNat ∧ MIN_POSITIVE_LEN ≤ n ∧
      n ≤ MAX_DNS_LEN) := by
  have h := hit.admissible
  unfold replyLen at h
  cases hneg : entry.isNegative with
  | true =>
    rw [hneg] at h
    exact .inl ⟨rfl, (Option.some.inj h).symm⟩
  | false =>
    rw [hneg, if_neg Bool.false_ne_true] at h
    split at h
    · cases h
    · next hr => exact .inr ⟨rfl, (Option.some.inj h).symm, by cases h; omega, by cases h; omega⟩

theorem LiveHit.bounds (hit : LiveHit hs env f q entry n) :
    MIN_POSITIVE_LEN ≤ n ∧ n ≤ MAX_DNS_LEN := by
  obtain ⟨hlen, hmax, -⟩ := hit.question
  rcases hit.replyLen_eq with ⟨-, hn⟩ | ⟨-, -, h⟩
  · simp only [MIN_POSITIVE_LEN, DNS_HDR_LEN, MAX_QNAME_LEN, MAX_DNS_LEN] at *
    omega
  · exact h

theorem length_resize (hg : resize env f q n = some g) : g.length + q.oldDnsLen = f.length + n := by
  have := env.adjustTail.length_run hg
  omega

/-- After a resize, the reply fits exactly when the query's claimed length did. -/
theorem resize_fits_iff (hg : resize env f q n = some g) :
    q.dnsOffset + n ≤ g.length ↔ q.dnsOffset + q.oldDnsLen ≤ f.length := by
  have := length_resize hg
  omega

theorem slice_resize (hg : resize env f q n = some g) {j m : Nat} (hf : j + m ≤ f.length)
    (hm : j + m ≤ g.length) : slice g j m = slice f j m := by
  apply List.ext_getElem?
  intro k
  simp only [getElem?_slice]
  split
  · exact env.adjustTail.getElem?_run hg _ (by omega) (by omega)
  · rfl

/-- In a frame long enough for the reply, its headers are inside too. -/
theorem LiveHit.headers_fit (hit : LiveHit hs env f q entry n) (hfit : q.dnsOffset + n ≤ g.length) :
    ETH_HDR_LEN + IP_HDR_LEN ≤ g.length ∧ q.udpOffset + UDP_HDR_LEN ≤ g.length ∧
    q.dnsOffset + DNS_HDR_LEN ≤ g.length := by
  obtain ⟨-, h2, -, h4⟩ := hit.layout
  have hihl := hit.headersOk.ihl
  have hn := hit.bounds.1
  rw [h2]
  rw [h4] at hfit ⊢
  simp only [dnsOffset, udpOffset, MIN_POSITIVE_LEN] at *
  omega

/-- The DNS part of a reply takes none of its error returns. -/
theorem LiveHit.write_ok (hit : LiveHit hs env f q entry n) (hfit : q.dnsOffset + n ≤ g.length) :
    (if entry.isNegative then writeNxdomain g q.dnsOffset
      else writePositive g q.dnsOffset entry entry.respLen.toNat (be16At f q.dnsOffset)) =
      .ok (.ok (), payloadFrame f g q entry) := by
  unfold payloadFrame
  rcases hit.replyLen_eq with ⟨hneg, -⟩ | ⟨hneg, rfl, hmin, hmax⟩
  · rw [hneg, if_pos rfl, if_pos rfl, writeNxdomain_ok (hit.headers_fit hfit).2.2]
  · rw [hneg, if_neg Bool.false_ne_true, if_neg Bool.false_ne_true, writePositive_ok hmin hmax hfit]

theorem LiveHit.length_payloadFrame (hit : LiveHit hs env f q entry n)
    (hfit : q.dnsOffset + n ≤ g.length) :
    (payloadFrame f g q entry).length = g.length := by
  unfold payloadFrame
  rcases hit.replyLen_eq with ⟨hneg, -⟩ | ⟨hneg, rfl, hmin, hmax⟩
  · rw [hneg, if_pos rfl, length_nxdomainFrame (hit.headers_fit hfit).2.2]
  · rw [hneg, if_neg Bool.false_ne_true, length_positiveFrame hmin hmax hfit]

/-- Nor does the header part. -/
theorem LiveHit.finalize_ok (hit : LiveHit hs env f q entry n) (hfit : q.dnsOffset + n ≤ g.length) :
    finalizeHeaders (payloadFrame f g q entry) q.ipHdrLen q.udpOffset n =
      .ok (.ok (), replyFrame f g q entry n) := by
  obtain ⟨h1, h2, -⟩ := hit.headers_fit hfit
  have hl := hit.length_payloadFrame hfit
  exact finalizeHeaders_ok (by omega) (by omega)

end Hit

/-- **Every invocation.** No access faults, and the result is one of the cases of `Ran`. -/
theorem tryDnsXdp_ran (env : XdpEnv H) (f : Frame) :
    ∃ r g, tryDnsXdp hs env f = .ok (r, g) ∧ Ran hs env f r g := by
  unfold tryDnsXdp
  cases hq : queryOf hs env.config f with
  | none =>
    have hp : parseQuery hs env.config f = .ok none := by rw [parseQuery_eq, hq]
    rw [hp]
    exact ⟨_, _, rfl, .ignored hp⟩
  | some q =>
  have hp : parseQuery hs env.config f = .ok (some q) := by rw [parseQuery_eq, hq]
  rw [hp]
  simp only [bind, Except.bind]
  cases he : lookupEntry env q with
  | error o => exact ⟨_, _, rfl, .unanswered hp he⟩
  | ok entry =>
  obtain ⟨hok, -, -, -, hdns, -⟩ := queryOf_eq_some hs hq
  have htx : readU16Be f q.dnsOffset 0 = .ok (be16At f q.dnsOffset) := by
    have := hok.length
    simp only [DNS_HDR_LEN] at this
    exact readU16Be_ok (by omega)
  simp only [htx]
  cases hn : replyLen entry q with
  | none => exact ⟨_, _, rfl, .poisoned hp he hn⟩
  | some n =>
  have hit : LiveHit hs env f q entry n := ⟨hp, he, hn⟩
  simp only
  cases hg : resize env f q n with
  | none =>
    rw [resize] at hg
    rw [hg]
    exact ⟨_, _, rfl, .notResized hit hg⟩
  | some g =>
  have hfits := resize_fits_iff hg
  have hg' := hg
  rw [resize] at hg'
  rw [hg']
  simp only
  by_cases hlen : q.dnsOffset + n > g.length
  · rw [if_pos hlen]
    exact ⟨_, _, rfl, .overrun hit hg (by omega)⟩
  · have hw := hit.write_ok (g := g) (by omega)
    have hfin := hit.finalize_ok (g := g) (by omega)
    rw [if_neg hlen]
    refine ⟨_, _, ?_, .answered hit hg (by omega)⟩
    split at hw
    · next hneg => simp only [hneg, ↓reduceIte, hw, hfin]
    · next hneg => simp only [hneg, ↓reduceIte, hw, hfin, Bool.false_eq_true]

end

end DoggyDns.Ebpf
