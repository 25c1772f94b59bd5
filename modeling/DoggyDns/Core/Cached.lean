import DoggyDns.Core.Handler

/-!
# What is cached is what was sent

`CachedReply` ties the bytes of an outcome to a message of the same request
that went to the socket. Every branch of the reply keeps it, so it holds of
every outcome `after_request` is given.
-/

namespace DoggyDns

open Bytes

/-- Bytes the XDP cache admits: small enough for a map value and not truncated. -/
structure Admitted (bytes : List UInt8) : Prop where
  length_le : bytes.length ≤ XDP_CACHE_MAX_SIZE
  tc : byteAt bytes 2 &&& 0x02 = 0

theorem serializeForXdp_eq_some {request : Request} {emit : UInt16 → Option (List UInt8)}
    {bytes : List UInt8} (h : serializeForXdp request emit = some bytes) :
    emit (maxMessageSize request.protocol request.edns) = some bytes ∧ Admitted bytes := by
  unfold serializeForXdp at h
  split at h
  · cases h
  · next hemit =>
    split at h
    · cases h
    · next hlen =>
      split at h
      · cases h
      · next htc =>
        cases h
        refine ⟨hemit, by omega, ?_⟩
        unfold byteAt
        rw [List.getD_eq_getElem?_getD]
        cases hb : bytes[2]? with
        | none => rfl
        | some flags => simpa [hb] using htc

/-- `bytes` in an outcome: the encoding of message `m`, which the outcome describes. -/
structure CachedReply (hk : Hickory) (request : Request) (outcome : RequestOutcome)
    (bytes : List UInt8)
    (m : Message) : Prop where
  encodes : hk.destructiveEmit m (maxMessageSize request.protocol request.edns) = some bytes
  queries : m.queries = request.queries
  responseCode : outcome.responseCode = m.metadata.responseCode
  cacheable : outcome.responseCode = .noError ∨ outcome.responseCode = .nxDomain
  minTtl : outcome.minAnswerTtl = (m.answers.map Record.ttl).min?
  minTtl_none : outcome.minAnswerTtl = none ↔ m.answers = []
  admitted : Admitted bytes

theorem minTtl_eq_none_iff (records : List Record) :
    (records.map Record.ttl).min? = none ↔ records = [] := by
  rw [List.min?_eq_none_iff, List.map_eq_nil_iff]

section
variable {hk : Hickory} {xdpEnabled : Bool} {rotation : AnswerRotation} {request : Request}
    {send : Send}

theorem sendError_sent (i : Nat) (code : ResponseCode) (authoritative : Bool)
    (soa : Option Record) :
    (sendError hk send i request code authoritative soa).2.1 =
      Message.build request (errorMetadata hk request code authoritative) [] [] soa.toList [] := by
  unfold sendError
  simp only
  split <;> rfl

/-- What an outcome's bytes say of the messages sent for the same request. -/
def OutcomeOk (hk : Hickory) (xdpEnabled : Bool) (request : Request) (outcome : RequestOutcome)
    (sent : List Sent) : Prop :=
  ∀ bytes, outcome.responseBytes = some bytes →
    xdpEnabled = true ∧ ∃ m ok, sent = [(m, ok)] ∧ CachedReply hk request outcome bytes m

/-- An outcome without answers whose bytes encode the message `sendError` sends. -/
theorem outcomeOk_sendError {outcome : RequestOutcome} {i : Nat} {code : ResponseCode}
    {authoritative : Bool} {soa : Option Record} (hcode : outcome.responseCode = code)
    (httl : outcome.minAnswerTtl = none)
    (hbytes : ∀ bytes, outcome.responseBytes = some bytes →
      xdpEnabled = true ∧ (code = .noError ∨ code = .nxDomain) ∧
      serializeForXdp request (fun limit => hk.destructiveEmit (Message.build request
        (errorMetadata hk request code authoritative) [] [] soa.toList []) limit) = some bytes) :
    OutcomeOk hk xdpEnabled request outcome
      [(sendError hk send i request code authoritative soa).2] := by
  intro bytes hb
  obtain ⟨hxdp, hcacheable, hser⟩ := hbytes bytes hb
  obtain ⟨hemit, hadm⟩ := serializeForXdp_eq_some hser
  refine ⟨hxdp, _, _, rfl, ?_⟩
  rw [sendError_sent]
  exact {
    encodes := hemit
    queries := rfl
    responseCode := hcode
    cacheable := hcode ▸ hcacheable
    minTtl := httl
    minTtl_none := by rw [httl]; exact ⟨fun _ => rfl, fun _ => rfl⟩
    admitted := hadm }

theorem respondAnswers_ok (result : ResolveResult) (lookup : AuthLookup) :
    OutcomeOk hk xdpEnabled request
      (respondAnswers hk xdpEnabled rotation request send result lookup).outcome
      (respondAnswers hk xdpEnabled rotation request send result lookup).sent := by
  intro bytes hb
  unfold respondAnswers at hb ⊢
  simp only at hb ⊢
  split at hb
  · next info hsend =>
    cases xdpEnabled with
    | false => cases hb
    | true =>
      obtain ⟨hemit, hadm⟩ := serializeForXdp_eq_some hb
      refine ⟨rfl, _, _, rfl, ?_⟩
      exact {
        encodes := hemit
        queries := rfl
        responseCode := rfl
        cacheable := .inl rfl
        minTtl := rfl
        minTtl_none := minTtl_eq_none_iff _
        admitted := hadm }
  · cases hb

theorem respondError_ok (result : ResolveResult) (e : LookupError) :
    OutcomeOk hk xdpEnabled request
      (respondError hk xdpEnabled rotation request send result e).outcome
      (respondError hk xdpEnabled rotation request send result e).sent := by
  refine outcomeOk_sendError rfl rfl ?_
  intro bytes hb
  simp only [respondError] at hb
  split at hb
  · next hc => exact ⟨hc.1, hc.2, hb⟩
  · cases hb

theorem respondSkip_ok :
    OutcomeOk hk xdpEnabled request (respondSkip hk xdpEnabled rotation request send).outcome
      (respondSkip hk xdpEnabled rotation request send).sent := by
  refine outcomeOk_sendError rfl rfl ?_
  intro bytes hb
  simp only [respondSkip, RequestOutcome.nxdomain] at hb
  split at hb
  · next hx => exact ⟨hx, .inr rfl, hb⟩
  · cases hb

/-- Every branch of the reply keeps the cache in step with the socket. -/
theorem respond_ok (result : ResolveResult) :
    OutcomeOk hk xdpEnabled request (respond hk xdpEnabled rotation request send result).outcome
      (respond hk xdpEnabled rotation request send result).sent := by
  unfold respond
  split
  · exact respondAnswers_ok _ _
  · exact respondAnswers_ok _ _
  · exact respondError_ok _ _
  · exact respondError_ok _ _
  · exact respondSkip_ok

theorem respond_xdp_disabled (result : ResolveResult) :
    (respond hk false rotation request send result).outcome.responseBytes = none := by
  cases h : (respond hk false rotation request send result).outcome.responseBytes with
  | none => rfl
  | some bytes => cases (respond_ok result bytes h).1

/-- A failed send of an answer leaves nothing to cache. -/
theorem respond_send_failed {result : ResolveResult} {lookup : AuthLookup} {m : Message}
    (hres : result.outcome.result? = some (.ok lookup))
    (hfail : (m, false) ∈ (respond hk xdpEnabled rotation request send result).sent) :
    (respond hk xdpEnabled rotation request send result).outcome.responseBytes = none := by
  have hans : respond hk xdpEnabled rotation request send result =
      respondAnswers hk xdpEnabled rotation request send result lookup := by
    unfold respond
    cases ho : result.outcome with
    | skip =>
      rw [ho] at hres
      cases hres
    | «continue» r | «break» r =>
      rw [ho] at hres
      cases hres
      rfl
  rw [hans] at hfail ⊢
  unfold respondAnswers at hfail ⊢
  simp only at hfail ⊢
  split
  · next hsend =>
    rw [hsend] at hfail
    simp at hfail
  · rfl

end

section
variable {W : Type} {hk : Hickory} {h : DoggyDnsHandler W} {w : W} {request : Request} {send : Send}

theorem mem_finish {ms : List Middleware} {o o' : RequestOutcome} {i : Nat}
    (hm : Event.after i o ∈ finish ms o') : o = o' := by
  obtain ⟨j, -, hj⟩ := List.mem_map.mp hm
  cases hj
  rfl

theorem after_notMem_sentEvents {sent : List Sent} {i : Nat} {o : RequestOutcome} :
    Event.after i o ∉ sentEvents sent := by
  intro hm
  obtain ⟨p, -, hp⟩ := List.mem_map.mp hm
  cases hp

theorem after_notMem_runBefore {ms : List Middleware} {i j : Nat} {o : RequestOutcome} :
    Event.after i o ∉ (runBefore request ms j).1 := by
  induction ms generalizing j with
  | nil => simp [runBefore]
  | cons m ms ih =>
    unfold runBefore
    cases m.beforeRequest request with
    | shortCircuit => simp
    | «continue» => simpa using ih

/-- The chain result and reply of a request that got as far as the chain. -/
def chainReply (hk : Hickory) (h : DoggyDnsHandler W) (w : W) (request : Request) (send : Send)
    (query : Query) : Reply :=
  respond hk h.xdpEnabled h.rotation request send
    (resolve query.name query.queryType h.authorityChain w).1

variable (hk h w request send) in
/-- The events of a request: turned away early, or answered from the chain. -/
theorem handleRequest_events :
    (∃ code sent, (handleRequest hk h w request send).events =
      (runBefore request h.middlewares 0).1 ++ finish h.middlewares (.error code) ++
        sentEvents [sent]) ∨
    ∃ query, request.requestInfo = some query ∧ (handleRequest hk h w request send).events =
      (runBefore request h.middlewares 0).1 ++
        sentEvents (chainReply hk h w request send query).sent ++
        finish h.middlewares (chainReply hk h w request send query).outcome := by
  unfold handleRequest chainReply
  cases hs : (runBefore request h.middlewares 0).2 with
  | true => exact .inl ⟨.refused, (sendError hk send 0 request .refused false none).2, by simp [hs]⟩
  | false =>
    cases hq : request.requestInfo with
    | none =>
      exact .inl ⟨.formErr, (sendError hk send 0 request .formErr false none).2, by simp [hs]⟩
    | some query => exact .inr ⟨query, rfl, by simp [hs]⟩

/-- The outcome the middlewares see: an early error, or the reply's. -/
theorem after_mem {i : Nat} {o : RequestOutcome}
    (hm : Event.after i o ∈ (handleRequest hk h w request send).events) :
    (∃ code, o = .error code) ∨
    ∃ query, request.requestInfo = some query ∧ o = (chainReply hk h w request send query).outcome ∧
      (handleRequest hk h w request send).events =
        (runBefore request h.middlewares 0).1 ++
          sentEvents (chainReply hk h w request send query).sent ++
          finish h.middlewares (chainReply hk h w request send query).outcome := by
  rcases handleRequest_events hk h w request send with
    ⟨code, sent, he⟩ | ⟨query, hq, he⟩
  · rw [he] at hm
    simp only [List.mem_append, after_notMem_runBefore, after_notMem_sentEvents, false_or,
      or_false] at hm
    exact .inl ⟨code, mem_finish hm⟩
  · refine .inr ⟨query, hq, ?_, he⟩
    rw [he] at hm
    simp only [List.mem_append, after_notMem_runBefore, after_notMem_sentEvents, false_or] at hm
    exact mem_finish hm

theorem sent_mem_iff {sent : List Sent} {o : RequestOutcome} {m : Message} {ok : Bool} :
    Event.sent m ok ∈ (runBefore request h.middlewares 0).1 ++ sentEvents sent ++
      finish h.middlewares o ↔
      (m, ok) ∈ sent := by
  have hb : ∀ {ms : List Middleware} {j : Nat}, Event.sent m ok ∉ (runBefore request ms j).1 := by
    intro ms
    induction ms with
    | nil => simp [runBefore]
    | cons m' ms ih =>
      intro j
      unfold runBefore
      cases m'.beforeRequest request with
      | shortCircuit => simp
      | «continue» => simpa using ih
  simp [hb, sentEvents, finish]

/-- The bytes of an outcome the middlewares see encode a message sent for the request. -/
theorem outcomeOk_after {i : Nat} {o : RequestOutcome}
    (hm : Event.after i o ∈ (handleRequest hk h w request send).events) :
    ∀ bytes, o.responseBytes = some bytes →
      ∃ m ok, Event.sent m ok ∈ (handleRequest hk h w request send).events ∧
        CachedReply hk request o bytes m := by
  intro bytes hb
  rcases after_mem hm with ⟨code, rfl⟩ | ⟨query, hq, rfl, he⟩
  · cases hb
  · obtain ⟨-, m, ok, hsent, hc⟩ := respond_ok _ bytes hb
    refine ⟨m, ok, ?_, hc⟩
    rw [he, chainReply, hsent]
    exact sent_mem_iff.mpr List.mem_cons_self

/-- **What is cached is what was sent.** -/
theorem cached_is_sent {i : Nat} {outcome : RequestOutcome}
    (hafter : Event.after i outcome ∈ (handleRequest hk h w request send).events) :
    (∀ bytes, outcome.responseBytes = some bytes →
      ∃ m ok, Event.sent m ok ∈ (handleRequest hk h w request send).events ∧
        CachedReply hk request outcome bytes m) ∧
    (h.xdpEnabled = false → outcome.responseBytes = none) ∧
    (∀ query lookup m, request.requestInfo = some query →
      (resolve query.name query.queryType h.authorityChain w).1.outcome.result? =
        some (.ok lookup) →
      Event.sent m false ∈ (handleRequest hk h w request send).events →
        outcome.responseBytes = none) ∧
    (outcome.responseCode ≠ .noError → outcome.responseCode ≠ .nxDomain →
      outcome.responseBytes = none) := by
  refine ⟨outcomeOk_after hafter, ?_⟩
  rcases after_mem hafter with ⟨code, rfl⟩ | ⟨query, hq, rfl, he⟩
  · exact ⟨fun _ => rfl, fun _ _ _ _ _ _ => rfl, fun _ _ => rfl⟩
  refine ⟨?_, ?_, ?_⟩
  · intro hx
    unfold chainReply
    rw [hx]
    exact respond_xdp_disabled _
  · intro query' lookup m hq' hres hfail
    obtain rfl : query = query' := Option.some.inj (hq ▸ hq')
    rw [he] at hfail
    exact respond_send_failed hres (sent_mem_iff.mp hfail)
  · intro h1 h2
    cases hb : (chainReply hk h w request send query).outcome.responseBytes with
    | none => rfl
    | some bytes =>
      obtain ⟨-, m, ok, -, hc⟩ := respond_ok _ bytes hb
      rcases hc.cacheable with hc | hc
      · exact absurd hc h1
      · exact absurd hc h2

end

/-- A UDP query for `A.` type A class IN with RD. -/
def sampleRequest : Request where
  metadata := ⟨0x1234, .query, .query, false, false, true, false, false, false, .noError⟩
  queries := [⟨⟨[[0x41]], by decide, by decide⟩, RecordType.A, 1⟩]
  edns := none
  protocol := .udp

/-- A handler with one middleware and no authority. -/
def emptyHandler : DoggyDnsHandler Unit := ⟨[⟨fun _ => .continue⟩], [], true, ⟨true, 0⟩⟩

/-- The NXDOMAIN it caches for the query. -/
def sampleBytes : List UInt8 :=
  [0x12, 0x34, 0x81, 0x83, 0, 1, 0, 0, 0, 0, 0, 0, 1, 0x41, 0, 0, 1, 0, 1]

/-- A socket that takes every message. -/
def sendOk : Send := fun _ m => some ⟨m.metadata, ⟨1, 0, 0, 0⟩⟩

theorem cached_is_sent_sample :
    ∃ m ok, Event.sent m ok ∈ (handleRequest .plain emptyHandler () sampleRequest sendOk).events ∧
      CachedReply .plain sampleRequest (.nxdomain (some sampleBytes)) sampleBytes m := by
  have hafter : Event.after 0 (.nxdomain (some sampleBytes)) ∈
      (handleRequest .plain emptyHandler () sampleRequest sendOk).events := by
    decide +kernel
  exact (cached_is_sent hafter).1 sampleBytes rfl

end DoggyDns
