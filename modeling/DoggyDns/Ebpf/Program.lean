import DoggyDns.Ebpf.Question

/-!
# The XDP program

`dns_xdp` and `try_dns_xdp` of the eBPF `main.rs`, cut at the places where the
source numbers its steps: `parseQuery` is steps 1 to 5 (headers and question),
`lookupEntry` 6 and 7, `replyLen` and `tryDnsXdp` the rest. The frame is passed
through every function, so what an invocation left in it is part of its result,
on `Err` too.

What an invocation reads besides the frame is its `XdpEnv`: the runtime
configuration, the cache map, the clock, and the kernel's `bpf_xdp_adjust_tail`,
which fails or resizes the frame keeping the common prefix.
-/

namespace DoggyDns.Ebpf

open Bytes Swar WordHash

def MAX_DNS_LEN : Nat := 512
/-- Largest UDP/L4 length the fast path will touch. -/
def MAX_UDP_DNS_LEN : Nat := 1500
/-- The shortest possible positive reply: header, the root QNAME and QTYPE/QCLASS. -/
def MIN_POSITIVE_LEN : Nat := DNS_HDR_LEN + 1 + 4

/-- The verdicts the program returns. -/
inductive XdpAction where
  | pass
  | drop
  | tx
  deriving DecidableEq, Repr

/-- Why a packet fetched or matched nothing in the cache. -/
inductive Outcome where
  | hit
  | negativeHit
  | miss
  | expired
  | drop
  deriving DecidableEq, Repr

/-- Per-CPU fast-path counters. -/
structure XdpStats where
  hit : UInt64
  negativeHit : UInt64
  miss : UInt64
  expired : UInt64
  drop : UInt64
  deriving DecidableEq, Repr

/-- `bpf_xdp_adjust_tail`: fails, or resizes by `delta` and keeps the common prefix. -/
structure AdjustTail where
  run : Frame → Int → Option Frame
  length_run : ∀ {f d g}, run f d = some g → (g.length : Int) = f.length + d
  getElem?_run : ∀ {f d g}, run f d = some g → ∀ i, i < f.length → i < g.length → g[i]? = f[i]?

/-- What one invocation reads besides the frame. -/
structure XdpEnv (H : Type) where
  /-- `XDP_CONFIG[0].dns_port`, when the loader wrote it. -/
  config : Option UInt16
  cache : CacheKey H → Option CacheValue
  /-- `bpf_ktime_get_ns()`. -/
  now : UInt64
  adjustTail : AdjustTail

/-- What steps 1 to 5 extract from a frame they accept. -/
structure DnsQuery (H : Type) where
  ipHdrLen : Nat
  udpOffset : Nat
  oldDnsLen : Nat
  dnsOffset : Nat
  nameHash : H
  qtype : UInt16
  qclass : UInt16
  questionLen : Nat
  deriving DecidableEq

section
variable {H : Type} (hs : WordHasher H)

/-- Steps 1 to 5; `none` is `Ok((XDP_PASS, None))`. -/
def parseQuery (config : Option UInt16) (f : Frame) : Except Fault (Option (DnsQuery H)) :=
  -- 1. Ethernet header
  if ETH_HDR_LEN > f.length then .ok none
  else do
  let hProto ← readU16Be f 0 12
  if hProto ≠ ETH_P_IP then .ok none
  -- 2. IPv4 header
  else
  let ipOffset := ETH_HDR_LEN
  if ipOffset + IP_HDR_LEN > f.length then .ok none
  else do
  let protocol ← load8 f (ipOffset + 9)
  if protocol ≠ IPPROTO_UDP then .ok none
  else do
  let ihlVer ← load8 f ipOffset
  let ipHdrLen := (ihlVer &&& 0x0F).toNat * 4
  if ipHdrLen < 20 ∨ ipOffset + ipHdrLen > f.length then .ok none
  -- 3. UDP header
  else
  let udpOffset := ipOffset + ipHdrLen
  if udpOffset + UDP_HDR_LEN > f.length then .ok none
  else
  match config with
  | none => .ok none
  | some dnsPort => do
  let dest ← readU16Be f udpOffset 2
  if dest ≠ dnsPort then .ok none
  else do
  let udpLen := (← readU16Be f udpOffset 4).toNat
  if ¬(UDP_HDR_LEN ≤ udpLen ∧ udpLen ≤ MAX_UDP_DNS_LEN) then .ok none
  else
  let oldDnsLen := udpLen - UDP_HDR_LEN
  -- 4. DNS header
  let dnsOffset := udpOffset + UDP_HDR_LEN
  if dnsOffset + DNS_HDR_LEN > f.length then .ok none
  else do
  let flags ← readU16Be f dnsOffset 2
  let qdcount ← readU16Be f dnsOffset 4
  if flags &&& 0x8000 ≠ 0 ∨ qdcount ≠ 1 then .ok none
  -- 5. QNAME and hash
  else do
  match ← parseDnsQuestionWith hs f dnsOffset with
  | none => .ok none
  | some (nameHash, qtype, qclass, questionLen) =>
    .ok (some ⟨ipHdrLen, udpOffset, oldDnsLen, dnsOffset, nameHash, qtype, qclass, questionLen⟩)

/-- The key step 6 looks up. -/
def DnsQuery.key (q : DnsQuery H) : CacheKey H where
  nameHash := q.nameHash
  qtypeClass := (q.qtype.toUInt32 <<< 16) ||| q.qclass.toUInt32
  pad := 0

/-- Steps 6 and 7: the live entry, or why there is none. -/
def lookupEntry (env : XdpEnv H) (q : DnsQuery H) : Except Outcome CacheValue :=
  match env.cache q.key with
  | none => .error .miss
  | some entry => if entry.expiresAt ≤ env.now then .error .expired else .ok entry

/-- The reply's DNS length; `none` for a cached length out of range. -/
def replyLen (entry : CacheValue) (q : DnsQuery H) : Option Nat :=
  if entry.isNegative then some (DNS_HDR_LEN + q.questionLen)
  else if entry.respLen.toNat < MIN_POSITIVE_LEN ∨ entry.respLen.toNat > MAX_DNS_LEN then none
  else some entry.respLen.toNat

end

/-! ## Response construction -/

/-- Rewrite the DNS header for a cached NXDOMAIN answer. -/
def writeNxdomain (f : Frame) (dns : Nat) : Except Fault (Except Unit Unit × Frame) :=
  if dns + DNS_HDR_LEN > f.length then .ok (.error (), f)
  else do
    -- keep the RD bit from the query, set QR=1 and RCODE=3
    let origFlags ← readU16Be f dns 2
    let newFlags := 0x8000 ||| (origFlags &&& 0x0100) ||| 0x0003
    let f ← writeU16Be f dns 2 newFlags
    -- ANCOUNT, NSCOUNT, ARCOUNT
    let f ← writeU16Be f dns 6 0
    let f ← writeU16Be f dns 8 0
    let f ← writeU16Be f dns 10 0
    .ok (.ok (), f)

/-- The `while i < resp_len` loop of `write_positive`; a round copies one chunk. -/
def copyLoop (dns : Nat) (src : List UInt8) (respLen : Nat) :
    (rounds : Nat) → (i : Nat) → Frame → Except Fault (Except Unit Unit × Frame)
  | 0, _, f => .ok (.ok (), f)
  | rounds + 1, i, f =>
    if i < respLen then
      if dns + i + COPY_CHUNK > f.length then .ok (.error (), f)
      else do
        let f ← copyChunk f (dns + i) src i
        copyLoop dns src respLen rounds (i + COPY_CHUNK) f
    else .ok (.ok (), f)

/-- Copy the cached reply into the packet, keeping the query's transaction id. -/
def writePositive (f : Frame) (dns : Nat) (entry : CacheValue) (respLen : Nat) (txid : UInt16) :
    Except Fault (Except Unit Unit × Frame) :=
  if respLen < MIN_POSITIVE_LEN ∨ respLen > MAX_DNS_LEN then .ok (.error (), f)
  else
  let src := entry.respData
  let lead := respLen &&& (COPY_CHUNK - 1)
  if lead ≠ 0 ∧ dns + COPY_CHUNK > f.length then .ok (.error (), f)
  else do
    let f ← if lead ≠ 0 then copyChunk f dns src 0 else .ok f
    match ← copyLoop dns src respLen respLen lead f with
    | (.error (), f) => .ok (.error (), f)
    | (.ok (), f) =>
      if dns + 2 > f.length then .ok (.error (), f)
      else do
        let f ← writeU16Be f dns 0 txid
        .ok (.ok (), f)

/-- HC' = ~(~HC + ~m + m') over the two words that changed (RFC 1624), folded twice. -/
def updatedCheck (oldCheck oldTotLen newTotLen oldFragOff newFragOff : UInt16) : UInt16 :=
  let sum := (~~~oldCheck).toUInt32 + (~~~oldTotLen).toUInt32 + newTotLen.toUInt32 +
    (~~~oldFragOff).toUInt32 + newFragOff.toUInt32
  let sum : UInt32 := (sum &&& (0xFFFF : UInt32)) + (sum >>> 16)
  let sum : UInt32 := (sum &&& (0xFFFF : UInt32)) + (sum >>> 16)
  ~~~sum.toUInt16

/-- Swap headers for the reply, fix lengths and update the IPv4 checksum. -/
def finalizeHeaders (f : Frame) (ipHdrLen udpOffset newDnsLen : Nat) :
    Except Fault (Except Unit Unit × Frame) :=
  if ETH_HDR_LEN > f.length then .ok (.error (), f)
  else do
  let f ← swapU32 f 0 0 6
  let f ← swapU16 f 0 4 10
  if ETH_HDR_LEN + IP_HDR_LEN > f.length then .ok (.error (), f)
  else do
  let ip := ETH_HDR_LEN
  let oldTotLen ← readU16Be f ip 2
  let oldFragOff ← readU16Be f ip 6
  let oldCheck ← readU16Be f ip 10
  let f ← swapU32 f ip 12 16
  let newTotLen := UInt16.ofNat (ipHdrLen + UDP_HDR_LEN + newDnsLen)
  let newFragOff := oldFragOff ||| 0x4000
  let f ← writeU16Be f ip 2 newTotLen
  let f ← writeU16Be f ip 6 newFragOff
  let f ← writeU16Be f ip 10 (updatedCheck oldCheck oldTotLen newTotLen oldFragOff newFragOff)
  if udpOffset + UDP_HDR_LEN > f.length then .ok (.error (), f)
  else do
  let f ← swapU16 f udpOffset 0 2
  let f ← writeU16Be f udpOffset 4 (UInt16.ofNat (UDP_HDR_LEN + newDnsLen))
  let f ← writeU16Be f udpOffset 6 0
  .ok (.ok (), f)

/-! ## Entry point -/

section
variable {H : Type} (hs : WordHasher H)

def tryDnsXdp (env : XdpEnv H) (f : Frame) :
    Except Fault (Except Unit (XdpAction × Option Outcome) × Frame) := do
  match ← parseQuery hs env.config f with
  | none => .ok (.ok (.pass, none), f)
  | some q =>
  match lookupEntry env q with
  | .error outcome => .ok (.ok (.pass, some outcome), f)
  | .ok entry => do
  let txid ← readU16Be f q.dnsOffset 0
  match replyLen entry q with
  | none => .ok (.ok (.pass, none), f)
  | some newDnsLen =>
  -- 8. resize the frame to the new DNS message length
  match env.adjustTail.run f ((newDnsLen : Int) - q.oldDnsLen) with
  | none => .ok (.ok (.pass, none), f)
  | some f =>
  if q.dnsOffset + newDnsLen > f.length then .ok (.error (), f)
  else do
  let (written, f) ← if entry.isNegative then writeNxdomain f q.dnsOffset
    else writePositive f q.dnsOffset entry entry.respLen.toNat txid
  match written with
  | .error () => .ok (.error (), f)
  | .ok () => do
  -- 9. headers
  let (finalized, f) ← finalizeHeaders f q.ipHdrLen q.udpOffset newDnsLen
  match finalized with
  | .error () => .ok (.error (), f)
  | .ok () => .ok (.ok (.tx, some (if entry.isNegative then .negativeHit else .hit)), f)

/-- The counter of an outcome, incremented. -/
def XdpStats.bump (s : XdpStats) : Outcome → XdpStats
  | .hit => { s with hit := s.hit + 1 }
  | .negativeHit => { s with negativeHit := s.negativeHit + 1 }
  | .miss => { s with miss := s.miss + 1 }
  | .expired => { s with expired := s.expired + 1 }
  | .drop => { s with drop := s.drop + 1 }

/-- Increment the current CPU's counter: entry 0 of a one-entry per-CPU array. -/
def record (stats : Vector XdpStats 1) (outcome : Outcome) : Vector XdpStats 1 :=
  match stats[0]? with
  | none => stats
  | some s => stats.set 0 (s.bump outcome)

/-- The program at any word hash: verdict, counters and frame after one invocation. -/
def dnsXdpWith (env : XdpEnv H) (stats : Vector XdpStats 1) (f : Frame) :
    Except Fault (XdpAction × Vector XdpStats 1 × Frame) := do
  let (result, f) ← tryDnsXdp hs env f
  let (action, outcome) := match result with
    | .ok result => result
    | .error () => (.drop, some .drop)
  match outcome with
  | some outcome => .ok (action, record stats outcome, f)
  | none => .ok (action, stats, f)

end

/-- The program. -/
def dnsXdp (env : XdpEnv UInt64) (stats : Vector XdpStats 1) (f : Frame) :
    Except Fault (XdpAction × Vector XdpStats 1 × Frame) :=
  dnsXdpWith fnv1a env stats f

end DoggyDns.Ebpf
