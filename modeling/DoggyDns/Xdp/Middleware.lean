import DoggyDns.Xdp.Cache
import DoggyDns.Core.Cached

/-!
# The cache-writing middleware

`compute_cache_entry` and `XdpCacheMiddleware::after_request`. The clock read
and the map insert are two moments of `after_request`, with a lock between
them, so `afterRequest` returns the insert it will attempt. `u64` arithmetic
wraps, as in a release build.
-/

namespace DoggyDns

open Bytes

/-- Cache key and value for a DNS response. -/
def computeCacheEntry (qname : Name) (qtype qclass : UInt16) (responseCode : ResponseCode)
    (respBytes : List UInt8) (minAnswerTtl : Option UInt32) (negativeTtl nowNs : UInt64) :
    CacheKey × CacheValue :=
  let key := makeCacheKey qname qtype qclass
  let isNegative : Bool := responseCode = .nxDomain
  let ttl : UInt64 := if isNegative then negativeTtl
    else (minAnswerTtl.getD negativeTtl.toUInt32).toUInt64
  let expiresAt := nowNs + ttl * 1000000000
  let value := if isNegative then CacheValue.newNegative respBytes expiresAt
    else CacheValue.newPositive respBytes expiresAt
  (key, value)

/-- The insert `after_request` attempts, if any. -/
def afterRequest (negativeTtl nowNs : UInt64) (request : Request) (outcome : RequestOutcome) :
    Option (CacheKey × CacheValue) :=
  if outcome.responseCode ≠ .noError ∧ outcome.responseCode ≠ .nxDomain then none
  else
    match outcome.responseBytes with
    | none => none
    | some respBytes =>
      match request.requestInfo with
      | none => none
      | some query =>
        some (computeCacheEntry query.name query.queryType query.queryClass outcome.responseCode
          respBytes
          outcome.minAnswerTtl negativeTtl nowNs)

/-- The time to live an outcome is cached for, in seconds. -/
def cacheTtl (negativeTtl : UInt64) (outcome : RequestOutcome) : Nat :=
  if outcome.responseCode = .nxDomain then negativeTtl.toNat
  else match outcome.minAnswerTtl with
    | some ttl => ttl.toNat
    | none => negativeTtl.toNat

section
variable {qname : Name} {qtype qclass : UInt16} {code : ResponseCode} {bytes : List UInt8}
  {minTtl : Option UInt32} {negativeTtl now : UInt64}

variable (qname qtype qclass code bytes minTtl negativeTtl now) in
theorem computeCacheEntry_value :
    ∃ expiresAt, (computeCacheEntry qname qtype qclass code bytes minTtl negativeTtl now).2 =
      CacheValue.fromResponse bytes expiresAt (code = .nxDomain) := by
  unfold computeCacheEntry
  by_cases h : code = .nxDomain
  · exact ⟨_, by simp only [h, decide_true, ↓reduceIte]; rfl⟩
  · exact ⟨_, by simp only [h, decide_false, Bool.false_eq_true, ↓reduceIte]; rfl⟩

theorem toNat_expiry_le (now ttl : UInt64) :
    (now + ttl * 1000000000).toNat ≤ now.toNat + ttl.toNat * 10 ^ 9 := by
  rw [UInt64.toNat_add, UInt64.toNat_mul]
  calc (now.toNat + ttl.toNat * (1000000000 : UInt64).toNat % 2 ^ 64) % 2 ^ 64
      ≤ now.toNat + ttl.toNat * (1000000000 : UInt64).toNat % 2 ^ 64 := Nat.mod_le _ _
    _ ≤ now.toNat + ttl.toNat * 10 ^ 9 := Nat.add_le_add_left (Nat.mod_le _ _) _

/-- An entry never outlives the outcome's time to live, wrapped arithmetic included. -/
theorem expiresAt_computeCacheEntry_le (outcome : RequestOutcome) :
    (computeCacheEntry qname qtype qclass outcome.responseCode bytes outcome.minAnswerTtl
      negativeTtl
      now).2.expiresAt.toNat ≤ now.toNat + cacheTtl negativeTtl outcome * 10 ^ 9 := by
  have hpos : ∀ ttl : UInt32,
      (now + ttl.toUInt64 * 1000000000).toNat ≤ now.toNat + ttl.toNat * 10 ^ 9 := by
    intro ttl
    have := toNat_expiry_le now ttl.toUInt64
    rwa [UInt32.toNat_toUInt64] at this
  unfold computeCacheEntry cacheTtl
  by_cases h : outcome.responseCode = .nxDomain
  · simp only [h, decide_true, ↓reduceIte]
    exact toNat_expiry_le now negativeTtl
  · simp only [h, decide_false, Bool.false_eq_true, ↓reduceIte]
    cases outcome.minAnswerTtl with
    | some ttl => exact hpos ttl
    | none =>
      -- `negative_ttl as u32` drops high bits, so it only shortens the entry
      have hle : negativeTtl.toUInt32.toNat ≤ negativeTtl.toNat := by
        rw [UInt64.toNat_toUInt32]
        exact Nat.mod_le _ _
      exact Nat.le_trans (hpos _) (Nat.add_le_add_left (Nat.mul_le_mul_right _ hle) _)

end

/-- An attempted insert comes from a cacheable outcome with bytes, for the request's one query. -/
theorem afterRequest_eq_some {negativeTtl now : UInt64} {request : Request}
    {outcome : RequestOutcome}
    {entry : CacheKey × CacheValue}
    (h : afterRequest negativeTtl now request outcome = some entry) :
    ∃ query bytes, request.requestInfo = some query ∧ outcome.responseBytes = some bytes ∧
      (outcome.responseCode = .noError ∨ outcome.responseCode = .nxDomain) ∧
      entry = computeCacheEntry query.name query.queryType query.queryClass outcome.responseCode
        bytes
        outcome.minAnswerTtl negativeTtl now := by
  unfold afterRequest at h
  split at h
  · cases h
  next hcode =>
  split at h
  · cases h
  next bytes hbytes =>
  split at h
  · cases h
  next query hquery =>
  cases h
  refine ⟨query, bytes, hquery, hbytes, ?_, rfl⟩
  by_cases hn : outcome.responseCode = .noError
  · exact .inl hn
  · exact .inr (by_contra fun hx => hcode ⟨hn, hx⟩)

end DoggyDns
