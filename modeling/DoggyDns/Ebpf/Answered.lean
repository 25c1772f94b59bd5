import DoggyDns.Ebpf.Reply

/-!
# Which frames are answered

The program looks at the fragment word of no frame and compares no length of a
frame with another, so what it answers need not be a datagram that a socket
would have received: a fragment is answered like a whole packet, and a question
may stand behind the end of its datagram. What it transmits is a response, and
no response is answered again.
-/

namespace DoggyDns.Ebpf

open Bytes WordHash

/-- The IPv4 total length. -/
def totLen (f : Frame) : Nat := (be16At f 16).toNat

/-- The fragment word says more fragments follow, or has an offset. -/
def Fragment (f : Frame) : Prop := be16At f 20 &&& 0x3FFF ≠ 0

instance (f : Frame) : Decidable (Fragment f) :=
  inferInstanceAs (Decidable (be16At f 20 &&& 0x3FFF ≠ 0))

/-- A live cache hit that the kernel lets the program resize. -/
def Resized {H : Type} (hs : WordHasher H) (env : XdpEnv H) (f : Frame) : Prop :=
  ∃ q entry n g, LiveHit hs env f q entry n ∧ resize env f q n = some g

/-- The claimed datagram ends inside the frame. -/
def ClaimFits (f : Frame) : Prop := dnsOffset f + (udpLen f - UDP_HDR_LEN) ≤ f.length

instance (f : Frame) : Decidable (ClaimFits f) :=
  inferInstanceAs (Decidable (_ ≤ _))

section
variable {H : Type} {hs : WordHasher H} {env : XdpEnv H} {stats : Vector XdpStats 1} {f : Frame}

/-- Setting DF makes no fragment and unmakes none. -/
theorem fragment_iff_of_shape {g f' : Frame} {entry : CacheValue} {questionLen n : Nat}
    (h : ReplyShape f g f' entry questionLen n) : Fragment f' ↔ Fragment f := by
  unfold Fragment
  rw [h.fragOff, or_and_distrib, show (0x4000 : UInt16) &&& 0x3FFF = 0 from rfl, UInt16.or_zero]

/-- What the program does with a frame, by the one thing that decides it. -/
theorem dnsXdpWith_cases (hs : WordHasher H) (env : XdpEnv H) (stats : Vector XdpStats 1)
    (f : Frame) :
    ∃ action stats' f', dnsXdpWith hs env stats f = .ok (action, stats', f') ∧
      ((¬ Resized hs env f ∧ action = .pass ∧ f' = f) ∨
        (Resized hs env f ∧ ¬ ClaimFits f ∧ action = .drop) ∨
        (Resized hs env f ∧ ClaimFits f ∧ action = .tx)) := by
  obtain ⟨r, g, hr, he⟩ := dnsXdpWith_ran hs env stats f
  refine ⟨_, _, _, he, ?_⟩
  by_cases hres : Resized hs env f
  · obtain ⟨q, entry, n, g', hit, hg⟩ := hres
    obtain ⟨-, -, hold, hdns⟩ := hit.layout
    have hres : Resized hs env f := ⟨q, entry, n, g', hit, hg⟩
    unfold ClaimFits
    rw [← hold, ← hdns]
    rcases hr.of_resized hit hg with ⟨hlen, rfl⟩ | ⟨hlen, ht, -⟩
    · exact .inr (.inl ⟨hres, by omega, rfl⟩)
    · exact .inr (.inr ⟨hres, hlen, ht⟩)
  · have hpass : (verdict r).1 = .pass := by
      by_contra hne
      exact hres (hr.resized hne)
    exact .inl ⟨hres, hpass, (hr.pass hpass).1⟩

theorem tx_iff {action : XdpAction} {stats' : Vector XdpStats 1} {f' : Frame}
    (h : dnsXdpWith hs env stats f = .ok (action, stats', f')) :
    action = .tx ↔ Resized hs env f ∧ ClaimFits f := by
  obtain ⟨action', stats'', f'', he, hcases⟩ := dnsXdpWith_cases hs env stats f
  rw [h] at he
  cases he
  rcases hcases with ⟨hres, rfl, -⟩ | ⟨-, hfits, rfl⟩ | ⟨hres, hfits, rfl⟩
  · exact iff_of_false nofun fun h => hres h.1
  · exact iff_of_false nofun fun h => hfits h.2
  · exact iff_of_true rfl ⟨hres, hfits⟩

end

/-! ## Fragments -/

/-- No fragment is answered: what is transmitted for the frame is whole and answers a whole
packet, and a fragment is passed as it came. -/
def FragmentsPass (env : XdpEnv UInt64) (stats : Vector XdpStats 1) (f : Frame) : Prop :=
  ∀ action stats' f', dnsXdp env stats f = .ok (action, stats', f') →
    (action = .tx → ¬ Fragment f ∧ ¬ Fragment f') ∧ (Fragment f → action = .pass ∧ f' = f)

/-- **A fragment is left alone exactly when it is no resizable hit.** -/
theorem fragmentsPass_iff (env : XdpEnv UInt64) (stats : Vector XdpStats 1) (f : Frame) :
    FragmentsPass env stats f ↔ (Fragment f → ¬ Resized fnv1a env f) := by
  obtain ⟨action, stats', f', he, hcases⟩ := dnsXdpWith_cases fnv1a env stats f
  constructor
  · intro hpass hfrag hres
    obtain ⟨rfl, -⟩ := (hpass action stats' f' he).2 hfrag
    rcases hcases with ⟨hno, -⟩ | ⟨-, -, hact⟩ | ⟨-, -, hact⟩
    · exact hno hres
    · cases hact
    · cases hact
  · intro hcond action' stats'' f'' he'
    rw [show dnsXdp env stats f = _ from he] at he'
    cases he'
    refine ⟨fun htx => ?_, fun hfrag => ?_⟩
    · subst htx
      obtain ⟨q, entry, n, g, hit, hg, -, hshape⟩ := tx_shape he
      have hwhole : ¬ Fragment f := fun hfrag => hcond hfrag ⟨q, entry, n, g, hit, hg⟩
      exact ⟨hwhole, mt (fragment_iff_of_shape hshape).mp hwhole⟩
    · rcases hcases with ⟨-, hact, hf⟩ | ⟨hres, -⟩ | ⟨hres, -⟩
      · exact ⟨hact, hf⟩
      · exact absurd hres (hcond hfrag)
      · exact absurd hres (hcond hfrag)

/-- The sample query's bytes as the last fragment of a packet, eight bytes into it. -/
def fragmentQuery : Frame := patch (patch sampleQuery 20 [0, 1]) 24 [0x66, 0xb4]

theorem fragment_answered :
    ¬ FragmentsPass (sampleEnv (.newNegative [] 5) 4) sampleStats fragmentQuery := by
  intro hpass
  have hrun : dnsXdp (sampleEnv (.newNegative [] 5) 4) sampleStats fragmentQuery =
      .ok (.tx, record sampleStats .negativeHit,
        patch (patch sampleReply 20 [0x40, 1]) 24 [0x26, 0xb4]) := by
    decide +kernel
  exact ((hpass _ _ _ hrun).1 rfl).1 (by decide +kernel)

/-! ## Datagrams -/

/-- The DNS header and the question `q` lie in the UDP datagram, and the datagram in the IPv4
packet. -/
def Contained (f : Frame) (q : DnsQuery UInt64) : Prop :=
  DNS_HDR_LEN + q.questionLen ≤ udpLen f - UDP_HDR_LEN ∧ ipHdrLen f + udpLen f ≤ totLen f

instance (f : Frame) (q : DnsQuery UInt64) : Decidable (Contained f q) :=
  inferInstanceAs (Decidable (_ ∧ _))

/-- What is answered is a question a socket would have received. -/
def AnswersReceived (env : XdpEnv UInt64) (stats : Vector XdpStats 1) (f : Frame) : Prop :=
  ∀ stats' f', dnsXdp env stats f = .ok (.tx, stats', f') →
    ∃ q, parseQuery fnv1a env.config f = .ok (some q) ∧ Contained f q

/-- **The lengths in the headers have to agree on their own.** A hit that the kernel lets the
program resize, with its datagram's end in the frame, is answered wherever its question
stands. -/
theorem answersReceived_iff (env : XdpEnv UInt64) (stats : Vector XdpStats 1) (f : Frame) :
    AnswersReceived env stats f ↔
      (Resized fnv1a env f → ClaimFits f →
        ∀ q, parseQuery fnv1a env.config f = .ok (some q) → Contained f q) := by
  obtain ⟨action, stats', f', he, -⟩ := dnsXdpWith_cases fnv1a env stats f
  constructor
  · intro hall hres hfits q hq
    obtain rfl := (tx_iff he).mpr ⟨hres, hfits⟩
    obtain ⟨q', hq', hin⟩ := hall stats' f' he
    rw [hq] at hq'
    cases hq'
    exact hin
  · intro hcond stats'' f'' htx
    obtain ⟨hres, hfits⟩ := (tx_iff htx).mp rfl
    obtain ⟨q, entry, n, g, hit, hg⟩ := id hres
    exact ⟨q, hit.parsed, hcond hres hfits q hit.parsed⟩

/-- An empty datagram, with the sample query's message behind its end. -/
def trailingQuery : Frame :=
  patch (patch (patch sampleQuery 16 [0, 28]) 24 [0x66, 0xc8]) 38 [0, 8]

theorem trailing_question_answered :
    ¬ AnswersReceived (sampleEnv (.newNegative [] 5) 4) sampleStats trailingQuery := by
  intro hall
  have hrun : ∃ f', dnsXdp (sampleEnv (.newNegative [] 5) 4) sampleStats trailingQuery =
      .ok (.tx, record sampleStats .negativeHit, f') := by
    refine ⟨patch sampleReply 24 [0x26, 0xb5] ++ List.replicate 19 0, ?_⟩
    decide +kernel
  obtain ⟨f', hrun⟩ := hrun
  obtain ⟨q, -, hlen, -⟩ := hall _ f' hrun
  have hudp : udpLen trailingQuery = 8 := by decide +kernel
  rw [hudp, show DNS_HDR_LEN = 12 from rfl, show UDP_HDR_LEN = 8 from rfl] at hlen
  omega

/-! ## Responses -/

/-- The cached bytes of a positive entry are a response. -/
def PositivesRespond {H : Type} (cache : CacheKey H → Option CacheValue) : Prop :=
  ∀ key entry, cache key = some entry → entry.isNegative = false →
    byteAt entry.respData 2 &&& 0x80 ≠ 0

/-- A header word with QR in its high byte. -/
theorem be16_and_qr {hi : UInt8} (lo : UInt8) (h : hi &&& 0x80 ≠ 0) :
    be16 hi lo &&& 0x8000 ≠ 0 := by
  have hhi : ∀ b : UInt8, b &&& 0x80 ≠ 0 → (b.toUInt16 <<< 8) &&& 0x8000 = 0x8000 :=
    forall_uint8 (by decide +kernel)
  have hlo : ∀ b : UInt8, b.toUInt16 &&& 0x8000 = 0 := forall_uint8 (by decide +kernel)
  rw [be16, or_and_distrib, hhi hi h, hlo lo]
  decide

section
variable {H : Type} {hs : WordHasher H} {env : XdpEnv H} {stats : Vector XdpStats 1} {f f' : Frame}

/-- A frame the parser does not accept is passed and counted nowhere. -/
theorem dnsXdpWith_ignored (hq : parseQuery hs env.config f = .ok none) :
    dnsXdpWith hs env stats f = .ok (.pass, stats, f) := by
  unfold dnsXdpWith tryDnsXdp
  rw [hq]
  rfl

/-- A transmitted frame has QR set where its own headers put the DNS message. -/
theorem tx_responds (hcache : PositivesRespond env.cache) {stats' : Vector XdpStats 1}
    (h : dnsXdpWith hs env stats f = .ok (.tx, stats', f')) :
    be16At f' (dnsOffset f' + 2) &&& 0x8000 ≠ 0 := by
  obtain ⟨q, entry, n, g, hit, -, hn, hshape⟩ := tx_shape h
  have hdns : dnsOffset f' = dnsOffset f := by
    have hihl : byteAt f' ETH_HDR_LEN = byteAt f ETH_HDR_LEN :=
      byteAt_eq_of_slice_eq (k := 0) hshape.versionTos (by decide)
    simp only [dnsOffset, udpOffset, ipHdrLen, hihl]
  have hmin := hit.bounds.1
  have hhdr := hit.headersOk.length
  simp only [MIN_POSITIVE_LEN, DNS_HDR_LEN] at hmin hhdr
  have hid : (slice f (dnsOffset f) 2).length = 2 := by simp; omega
  rw [hdns, be16At]
  refine be16_and_qr _ ?_
  cases hneg : entry.isNegative with
  | false =>
    rw [byteAt_of_slice_append (hshape.positive hneg) (by omega) (by omega), hid,
      byteAt_slice (by omega)]
    exact hcache q.key entry (lookupEntry_eq_ok hit.live).1 hneg
  | true =>
    have hp := hshape.negative hneg
    simp only [List.append_assoc] at hp
    have hflags : byteAt f' (dnsOffset f + 2) =
        ((0x8003 ||| (be16At f (dnsOffset f + 2) &&& 0x0100)) >>> 8).toUInt8 := by
      rw [byteAt_of_slice_append hp (by omega) (by omega), hid]
      rfl
    rw [hflags]
    rcases and_rd_cases (be16At f (dnsOffset f + 2)) with hrd | hrd
    · rw [hrd]
      decide
    · rw [hrd]
      decide

end

/-- **No reply is answered.** Whoever gets a transmitted frame passes it on, whatever its port,
cache and clock. -/
theorem reply_not_answered {env env' : XdpEnv UInt64} {stats stats' stats'' : Vector XdpStats 1}
    {f f' : Frame} (hcache : PositivesRespond env.cache)
    (h : dnsXdp env stats f = .ok (.tx, stats', f')) :
    dnsXdp env' stats'' f' = .ok (.pass, stats'', f') := by
  have hqr := tx_responds hcache h
  refine dnsXdpWith_ignored ?_
  rw [parseQuery_eq, queryOf, if_neg fun hok => hqr hok.query]

/-- A reply with one address for the sample query, as the handler encodes it. -/
def sampleAnswer : List UInt8 :=
  [0, 0, 0x85, 0x00, 0, 1, 0, 1, 0, 0, 0, 0, 1, 0x41, 0, 0, 1, 0, 1,
   0xc0, 12, 0, 1, 0, 1, 0, 0, 0, 6, 0, 4, 10, 0, 0, 9]

theorem sampleAnswer_not_answered :
    ∃ f', dnsXdp (sampleEnv (.newPositive sampleAnswer 5) 4) sampleStats sampleQuery =
        .ok (.tx, record sampleStats .hit, f') ∧
      dnsXdp (sampleEnv (.newPositive sampleAnswer 5) 4) sampleStats f' =
        .ok (.pass, sampleStats, f') := by
  have hcache : PositivesRespond (sampleEnv (.newPositive sampleAnswer 5) 4).cache := by
    intro key entry hentry _
    unfold sampleEnv at hentry
    simp only at hentry
    split at hentry
    · cases hentry
      decide +kernel
    · cases hentry
  have hrun : ∃ f', dnsXdp (sampleEnv (.newPositive sampleAnswer 5) 4) sampleStats sampleQuery =
      .ok (.tx, record sampleStats .hit, f') := by
    refine ⟨slice sampleReply 0 16 ++ [0, 63] ++ slice sampleReply 18 6 ++ [0x26, 0xa5] ++
      slice sampleReply 26 12 ++ [0, 43, 0, 0, 0x12, 0x34] ++ sampleAnswer.drop 2, ?_⟩
    decide +kernel
  obtain ⟨f', hrun⟩ := hrun
  exact ⟨f', hrun, reply_not_answered hcache hrun⟩

end DoggyDns.Ebpf
