import DoggyDns.Lib.Run
import DoggyDns.Lib.LogMap
import DoggyDns.Ebpf.Reply
import DoggyDns.Xdp.Middleware

/-!
# Cache coherence

The whole fast path as one machine: requests handled in userspace, the inserts
they lead to, evictions from the map and frames processed in the kernel, in any
order under one clock. `Genuine` says where an insert comes from, the log keeps
the inserts that succeeded, and every transmitted frame is justified by the
newest one under the frame's key.
-/

namespace DoggyDns

open Bytes Ebpf

/-- An insert `after_request` attempts, with where it came from. -/
structure Insertion where
  request : Request
  outcome : RequestOutcome
  /-- The clock value the expiry was computed from. -/
  time : UInt64
  key : CacheKey
  value : CacheValue

/-- The state shared by userspace and the kernel. `log` is the history of successful
inserts, newest first. -/
structure Machine where
  now : UInt64
  cache : CacheKey → Option CacheValue
  pending : List Insertion
  log : List Insertion
  stats : Vector XdpStats 1

/-- What happens in a step. -/
inductive Move where
  | tick
  | request (e : Insertion)
  | inserted (e : Insertion)
  | insertFailed (e : Insertion)
  | evicted (key : CacheKey)
  /-- A frame processed at time `t`, with the frame handed back. -/
  | frame (config : Option UInt16) (t : UInt64) (f : Frame) (action : XdpAction) (f' : Frame)

section
variable (hk : Hickory) (negativeTtl : UInt64)

/-- The insert comes from a request handled with XDP enabled, whose outcome the cache
middleware was given. -/
def Genuine (e : Insertion) : Prop :=
  (∃ (W : Type) (h : DoggyDnsHandler W) (w : W) (send : Send) (i : Nat), h.xdpEnabled = true ∧
    Event.after i e.outcome ∈ (handleRequest hk h w e.request send).events) ∧
  afterRequest negativeTtl e.time e.request e.outcome = some (e.key, e.value)

/-- One step of the system. -/
inductive Step : Machine → Move → Machine → Prop
  | tick {s : Machine} (t : UInt64) (ht : s.now ≤ t) : Step s .tick { s with now := t }
  | request {s : Machine} (e : Insertion) (hgen : Genuine hk negativeTtl e) (ht : e.time = s.now) :
      Step s (.request e) { s with pending := e :: s.pending }
  | inserted {s : Machine} {pre post : List Insertion} (e : Insertion)
    (hp : s.pending = pre ++ e :: post) :
      Step s (.inserted e) { s with
        cache := Function.update s.cache e.key (some e.value), pending := pre ++ post,
        log := e :: s.log }
  | insertFailed {s : Machine} {pre post : List Insertion} (e : Insertion)
      (hp : s.pending = pre ++ e :: post) :
      Step s (.insertFailed e) { s with pending := pre ++ post }
  | evicted {s : Machine} (key : CacheKey) :
      Step s (.evicted key) { s with cache := Function.update s.cache key none }
  | frame {s : Machine} (env : XdpEnv UInt64) (f : Frame) {action : XdpAction}
    {stats' : Vector XdpStats 1}
      {f' : Frame} (hc : env.cache = s.cache) (ht : s.now ≤ env.now)
      (hrun : dnsXdp env s.stats f = .ok (action, stats', f')) :
      Step s (.frame env.config env.now f action f') { s with now := env.now, stats := stats' }

/-- The machine at boot: an empty map. -/
def Machine.init (now : UInt64) (stats : Vector XdpStats 1) : Machine :=
  ⟨now, fun _ => none, [], [], stats⟩

/-- What every reachable state keeps. -/
structure Coherent (s : Machine) : Prop where
  genuine : ∀ e ∈ s.pending ++ s.log, Genuine hk negativeTtl e ∧ e.time ≤ s.now
  backs : LogMap.Backs Insertion.key Insertion.value s.log s.cache

end

section
variable {hk : Hickory} {negativeTtl : UInt64} {s s' : Machine} {l : Move}

theorem Coherent.init (now : UInt64) (stats : Vector XdpStats 1) :
    Coherent hk negativeTtl (Machine.init now stats) :=
  ⟨fun _ he => (nomatch he), .empty⟩

theorem Coherent.step (h : Coherent hk negativeTtl s) (hs : Step hk negativeTtl s l s') :
    Coherent hk negativeTtl s' := by
  obtain ⟨hgen, hbacks⟩ := h
  have hlater : ∀ {t : UInt64}, s.now ≤ t → ∀ e ∈ s.pending ++ s.log,
      Genuine hk negativeTtl e ∧ e.time ≤ t := by
    intro t ht e he
    exact ⟨(hgen e he).1, UInt64.le_trans (hgen e he).2 ht⟩
  cases hs with
  | tick t ht => exact ⟨hlater ht, hbacks⟩
  | request e hg ht =>
    refine ⟨?_, hbacks⟩
    intro e' he'
    rcases List.mem_cons.mp he' with rfl | he'
    · exact ⟨hg, by rw [ht]; exact UInt64.le_refl _⟩
    · exact hgen e' he'
  | inserted e hp =>
    refine ⟨?_, hbacks.insert e⟩
    intro e' he'
    apply hgen
    simp only [hp, List.mem_append, List.mem_cons] at he' ⊢
    tauto
  | insertFailed e hp =>
    refine ⟨?_, hbacks⟩
    intro e' he'
    apply hgen
    simp only [hp, List.mem_append, List.mem_cons] at he' ⊢
    tauto
  | evicted key => exact ⟨hgen, hbacks.evict key⟩
  | frame env f hc ht hrun => exact ⟨hlater ht, hbacks⟩

end

/-! ## A transmitted frame -/

/-- The payload sent from an entry that packs `bytes`: synthesised if the entry is
negative, else the bytes themselves under the query's transaction id. -/
theorem Ebpf.ReplyShape.payload_of_response {f g f' : Frame} {entry : CacheValue}
    {questionLen n : Nat}
    {bytes : List UInt8} {expiresAt : UInt64} {negative : Bool}
    (hshape : ReplyShape f g f' entry questionLen n)
    (hn : n = (if entry.isNegative then DNS_HDR_LEN + questionLen else entry.respLen.toNat))
    (hmin : 2 ≤ n) (hval : entry = CacheValue.fromResponse bytes expiresAt negative)
    (hlen : bytes.length ≤ MAX_RESPONSE_SIZE) :
    (negative = true → n = DNS_HDR_LEN + questionLen) ∧
    (negative = false → n = bytes.length ∧
      slice f' (dnsOffset f) bytes.length = slice f (dnsOffset f) 2 ++ bytes.drop 2) := by
  have hneg : entry.isNegative = negative := by rw [hval, CacheValue.isNegative_fromResponse]
  rw [hneg] at hn
  constructor
  · rintro rfl
    exact hn
  · rintro rfl
    have hrl : entry.respLen.toNat = bytes.length := by
      rw [hval, CacheValue.toNat_respLen_fromResponse, Nat.min_eq_left hlen]
    have hdata : slice entry.respData 0 bytes.length = bytes := by
      rw [hval]
      exact CacheValue.slice_fromResponse hlen _ _
    rw [if_neg Bool.false_ne_true, hrl] at hn
    subst hn
    refine ⟨rfl, ?_⟩
    rw [hshape.positive hneg]
    congr 1
    conv_rhs => rw [← hdata]
    rw [← slice_slice _ 0 2 bytes.length _ (by omega), hdata, slice,
      List.take_of_length_le (by simp)]

/-- A frame `f'` transmitted at `t` for `f` is the newest insert `e` under the frame's
key, still alive: a synthesised NXDOMAIN if `e` is one, else `e`'s bytes `bytes` under
the query's transaction id. -/
structure Justified (hk : Hickory) (negativeTtl : UInt64) (log : List Insertion)
    (q : DnsQuery UInt64)
    (t : UInt64) (f f' : Frame) (e : Insertion) (bytes : List UInt8) (m : Message) : Prop where
  newest : LogMap.newest Insertion.key log q.key = some e
  genuine : Genuine hk negativeTtl e
  earlier : e.time ≤ t
  alive : t.toNat < e.time.toNat + cacheTtl negativeTtl e.outcome * 10 ^ 9
  responseBytes : e.outcome.responseBytes = some bytes
  /-- The bytes encode a message with the outcome's code and answers, fit the map value
  and are not truncated. -/
  cached : CachedReply hk e.request e.outcome bytes m
  synthesised : e.value.isNegative = true ↔ e.outcome.responseCode = .nxDomain
  negative : e.outcome.responseCode = .nxDomain →
    (be16At f' (udpOffset f + 4)).toNat = UDP_HDR_LEN + (DNS_HDR_LEN + q.questionLen) ∧
    slice f' (dnsOffset f) (DNS_HDR_LEN + q.questionLen) = slice f (dnsOffset f) 2 ++
      be16Bytes (0x8003 ||| (be16At f (dnsOffset f + 2) &&& 0x0100)) ++ [0, 1] ++
        [0, 0, 0, 0, 0, 0] ++
      slice f (dnsOffset f + DNS_HDR_LEN) q.questionLen
  positive : e.outcome.responseCode ≠ .nxDomain →
    (be16At f' (udpOffset f + 4)).toNat = UDP_HDR_LEN + bytes.length ∧
    slice f' (dnsOffset f) bytes.length = slice f (dnsOffset f) 2 ++ bytes.drop 2

section
variable {hk : Hickory} {negativeTtl : UInt64} {s : Machine} {env : XdpEnv UInt64}
  {stats' : Vector XdpStats 1} {f f' : Frame}

/-- The bytes of an insert, as the kernel reads them back from the map value. -/
theorem Genuine.value_eq {e : Insertion} (h : Genuine hk negativeTtl e) :
    ∃ bytes m expiresAt, e.outcome.responseBytes = some bytes ∧
      CachedReply hk e.request e.outcome bytes m ∧
      e.value = CacheValue.fromResponse bytes expiresAt (e.outcome.responseCode = .nxDomain) ∧
      e.value.expiresAt.toNat ≤ e.time.toNat + cacheTtl negativeTtl e.outcome * 10 ^ 9 := by
  obtain ⟨⟨W, h, w, send, i, -, hafter⟩, hins⟩ := h
  obtain ⟨query, bytes, -, hbytes, -, hentry⟩ := afterRequest_eq_some hins
  obtain ⟨m, -, -, hc⟩ := (outcomeOk_after hafter) bytes hbytes
  have hv : e.value = (computeCacheEntry query.name query.queryType query.queryClass
    e.outcome.responseCode
      bytes e.outcome.minAnswerTtl negativeTtl e.time).2 := congrArg Prod.snd hentry
  obtain ⟨expiresAt, hexp⟩ := computeCacheEntry_value query.name query.queryType query.queryClass
    e.outcome.responseCode bytes e.outcome.minAnswerTtl negativeTtl e.time
  refine ⟨bytes, m, expiresAt, hbytes, hc, by rw [hv, hexp], ?_⟩
  rw [hv]
  exact expiresAt_computeCacheEntry_le e.outcome

/-- **A transmitted frame is justified by the log.** -/
theorem Coherent.justified (h : Coherent hk negativeTtl s) (hc : env.cache = s.cache)
    (ht : s.now ≤ env.now)
    (hrun : dnsXdp env s.stats f = .ok (.tx, stats', f')) :
    ∃ q e bytes m, parseQuery fnv1a env.config f = .ok (some q) ∧
      Justified hk negativeTtl s.log q env.now f f' e bytes m := by
  obtain ⟨q, entry, n, g, hit, hg, hn, hshape⟩ := tx_shape hrun
  obtain ⟨hentry, hlive⟩ := lookupEntry_eq_ok hit.live
  rw [hc] at hentry
  obtain ⟨e, hnew, rfl⟩ := h.backs q.key entry hentry
  obtain ⟨hmem, -⟩ := LogMap.newest_mem hnew
  obtain ⟨hgen, htime⟩ := h.genuine e (List.mem_append_right _ hmem)
  obtain ⟨bytes, m, expiresAt, hbytes, hcached, hval, hexp⟩ := hgen.value_eq
  have hneg : e.value.isNegative = true ↔ e.outcome.responseCode = .nxDomain := by
    rw [hval, CacheValue.isNegative_fromResponse, decide_eq_true_iff]
  have hmin := hit.bounds.1
  simp only [MIN_POSITIVE_LEN, DNS_HDR_LEN] at hmin
  obtain ⟨hnegative, hpositive⟩ :=
    hshape.payload_of_response hn (by omega) hval hcached.admitted.length_le
  refine ⟨q, e, bytes, m, hit.parsed, ?_⟩
  exact {
    newest := hnew
    genuine := hgen
    earlier := UInt64.le_trans htime ht
    alive := Nat.lt_of_lt_of_le (UInt64.lt_iff_toNat_lt.mp hlive) hexp
    responseBytes := hbytes
    cached := hcached
    synthesised := hneg
    negative := by
      intro hcode
      obtain rfl := hnegative (decide_eq_true hcode)
      exact ⟨hshape.udpLength, hshape.negative (hneg.mpr hcode)⟩
    positive := by
      intro hcode
      obtain ⟨rfl, hpayload⟩ := hpositive (decide_eq_false hcode)
      exact ⟨hshape.udpLength, hpayload⟩ }

/-- **Cache coherence over whole runs.** -/
theorem run_frame_justified {now : UInt64} {stats : Vector XdpStats 1} {pre post : List Move}
    {s : Machine}
    {config : Option UInt16} {t : UInt64} {f f' : Frame}
    (hrun : Lts.Run (Step hk negativeTtl) (Machine.init now stats)
      (pre ++ .frame config t f .tx f' :: post) s) :
    ∃ before, Lts.Run (Step hk negativeTtl) (Machine.init now stats) pre before ∧
      ∃ q e bytes m, parseQuery fnv1a config f = .ok (some q) ∧
        Justified hk negativeTtl before.log q t f f' e bytes m := by
  obtain ⟨before, after, hpre, hstep⟩ := hrun.split
  have hcoh : Coherent hk negativeTtl before :=
    hpre.invariant (.init now stats) fun h hs => h.step hs
  refine ⟨before, hpre, ?_⟩
  cases hstep with
  | frame env f hc ht hx => exact hcoh.justified hc ht hx

end

/-- The insert that follows the sample request at time 0, with a negative TTL of 60 s. -/
def sampleInsertion : Insertion where
  request := sampleRequest
  outcome := .nxdomain (some sampleBytes)
  time := 0
  key := makeCacheKey sampleName 1 1
  value := .newNegative sampleBytes 60000000000

theorem sampleInsertion_genuine : Genuine .plain 60 sampleInsertion :=
  ⟨⟨Unit, emptyHandler, (), sendOk, 0, rfl, by decide +kernel⟩, by decide +kernel⟩

/-- The sample query one nanosecond later. -/
def sampleFrameEnv : XdpEnv UInt64 where
  config := some 53
  cache := Function.update (fun _ => none) sampleInsertion.key (some sampleInsertion.value)
  now := 1
  adjustTail := AdjustTail.linux 256

theorem run_frame_justified_sample :
    ∃ before, Lts.Run (Step .plain 60) (Machine.init 0 sampleStats)
        [.request sampleInsertion, .inserted sampleInsertion] before ∧
      ∃ q e bytes m, parseQuery fnv1a (some 53) sampleQuery = .ok (some q) ∧
        Justified .plain 60 before.log q 1 sampleQuery sampleReply e bytes m := by
  have h1 : Lts.Run (Step .plain 60) (Machine.init 0 sampleStats) [.request sampleInsertion] _ :=
    .snoc .nil (.request sampleInsertion sampleInsertion_genuine rfl)
  have h2 : Lts.Run (Step .plain 60) (Machine.init 0 sampleStats)
      [.request sampleInsertion, .inserted sampleInsertion] _ :=
    .snoc h1 (.inserted sampleInsertion (show _ = [] ++ sampleInsertion :: [] from rfl))
  have hx : dnsXdp sampleFrameEnv sampleStats sampleQuery =
      .ok (.tx, record sampleStats .negativeHit, sampleReply) := by
    decide +kernel
  have h3 : Lts.Run (Step .plain 60) (Machine.init 0 sampleStats)
      ([.request sampleInsertion, .inserted sampleInsertion] ++
        .frame (some 53) 1 sampleQuery .tx sampleReply :: []) _ :=
    .snoc h2 (.frame sampleFrameEnv sampleQuery rfl (by decide) hx)
  exact run_frame_justified h3

end DoggyDns
