import DoggyDns.Basic.Xdp
import DoggyDns.Ebpf.Program
import DoggyDns.Xdp.Middleware

/-!
# When a cached entry expires

`compute_cache_entry` works in `u64` nanoseconds and narrows `negative_ttl` to
`u32` on one branch, while `validate_config` only asks that it be positive. A
minimum answer TTL always survives the arithmetic; `negative_ttl` survives it
within a bound that differs between the two negative branches.
-/

namespace DoggyDns

open Ebpf

/-- `ttl` of `compute_cache_entry`. -/
def entryTtl (negativeTtl : UInt64) (outcome : RequestOutcome) : UInt64 :=
  if outcome.responseCode = .nxDomain then negativeTtl
  else (outcome.minAnswerTtl.getD negativeTtl.toUInt32).toUInt64

theorem expiresAt_computeCacheEntry (qname : Name) (qtype qclass : UInt16)
    (outcome : RequestOutcome) (bytes : List UInt8) (negativeTtl now : UInt64) :
    (computeCacheEntry qname qtype qclass outcome.responseCode bytes outcome.minAnswerTtl
      negativeTtl now).2.expiresAt = now + entryTtl negativeTtl outcome * 1000000000 := by
  unfold computeCacheEntry entryTtl
  by_cases h : outcome.responseCode = .nxDomain
  · simp only [h, decide_true, ↓reduceIte]
    rfl
  · simp only [h, decide_false, Bool.false_eq_true, ↓reduceIte]
    rfl

/-- The narrowing, the product and the sum keep every bit, and the kernel serves the entry
exactly until its time to live has passed. -/
structure ExpiryExact (negativeTtl now : UInt64) (outcome : RequestOutcome)
    (value : CacheValue) : Prop where
  ttl : (entryTtl negativeTtl outcome).toNat = cacheTtl negativeTtl outcome
  product : (entryTtl negativeTtl outcome * 1000000000).toNat =
    cacheTtl negativeTtl outcome * 10 ^ 9
  expiresAt : value.expiresAt.toNat = now.toNat + cacheTtl negativeTtl outcome * 10 ^ 9
  served : ∀ {H : Type} (env : XdpEnv H) (q : DnsQuery H), env.cache q.key = some value →
    (lookupEntry env q = .ok value ↔
      env.now.toNat < now.toNat + cacheTtl negativeTtl outcome * 10 ^ 9)

/-- `negative_ttl` is small enough for the branch an outcome takes. -/
def NegativeTtlFits (negativeTtl now : UInt64) (outcome : RequestOutcome) : Prop :=
  if outcome.responseCode = .nxDomain then now.toNat + negativeTtl.toNat * 10 ^ 9 < 2 ^ 64
  else outcome.minAnswerTtl = none → negativeTtl.toNat < 2 ^ 32

section
variable {negativeTtl now : UInt64} {outcome : RequestOutcome}

theorem lookupEntry_eq_ok_iff {H : Type} {env : XdpEnv H} {q : DnsQuery H} {value : CacheValue}
    (hc : env.cache q.key = some value) :
    lookupEntry env q = .ok value ↔ env.now.toNat < value.expiresAt.toNat := by
  unfold lookupEntry
  rw [hc]
  simp only [UInt64.le_iff_toNat_le]
  split
  · next h => exact iff_of_false (by simp) (by omega)
  · next h => exact iff_of_true rfl (by omega)

/-- A `u32` time to live, in nanoseconds, fits behind any clock below `2^63`. -/
theorem toNat_ttl_fits {ttl : Nat} (ht : ttl < 2 ^ 32) (hnow : now.toNat < 2 ^ 63) :
    now.toNat + ttl * 10 ^ 9 < 2 ^ 64 := by
  omega

theorem NegativeTtlFits.ttl_eq (h : NegativeTtlFits negativeTtl now outcome)
    (hnow : now.toNat < 2 ^ 63) :
    (entryTtl negativeTtl outcome).toNat = cacheTtl negativeTtl outcome ∧
    now.toNat + cacheTtl negativeTtl outcome * 10 ^ 9 < 2 ^ 64 := by
  unfold NegativeTtlFits at h
  unfold entryTtl cacheTtl
  by_cases hcode : outcome.responseCode = .nxDomain
  · rw [if_pos hcode] at h ⊢
    rw [if_pos hcode]
    exact ⟨rfl, h⟩
  simp only [hcode, ↓reduceIte] at h ⊢
  cases hm : outcome.minAnswerTtl with
  | some ttl =>
    exact ⟨UInt32.toNat_toUInt64 ttl, toNat_ttl_fits ttl.toNat_lt hnow⟩
  | none =>
    have hlt : negativeTtl.toNat < 2 ^ 32 := h hm
    refine ⟨?_, toNat_ttl_fits hlt hnow⟩
    rw [Option.getD_none, UInt32.toNat_toUInt64, UInt64.toNat_toUInt32, Nat.mod_eq_of_lt hlt]

/-- Conversely, an exact expiry is below `2^64`, and `negative_ttl` was not narrowed. -/
theorem NegativeTtlFits.of_exact {value : CacheValue}
    (h : ExpiryExact negativeTtl now outcome value) : NegativeTtlFits negativeTtl now outcome := by
  have hlt := value.expiresAt.toNat_lt
  have hexp := h.expiresAt
  have httl := h.ttl
  unfold NegativeTtlFits
  unfold cacheTtl at hexp httl
  unfold entryTtl at httl
  by_cases hcode : outcome.responseCode = .nxDomain
  · simp only [hcode, ↓reduceIte] at hexp ⊢
    omega
  simp only [hcode, ↓reduceIte] at httl ⊢
  intro hm
  rw [hm, Option.getD_none, UInt32.toNat_toUInt64, UInt64.toNat_toUInt32] at httl
  simp only at httl
  omega

/-- **The stored expiry is exact precisely when `negative_ttl` fits its branch.** -/
theorem expiry_exact_iff {config : XdpConfig} (_ : validateXdp config = .ok ())
    {request : Request} {entry : CacheKey × CacheValue} (hnow : now.toNat < 2 ^ 63)
    (hcached : afterRequest config.negativeTtl now request outcome = some entry) :
    ExpiryExact config.negativeTtl now outcome entry.2 ↔
      NegativeTtlFits config.negativeTtl now outcome := by
  refine ⟨NegativeTtlFits.of_exact, fun h => ?_⟩
  obtain ⟨httl, hfit⟩ := h.ttl_eq hnow
  obtain ⟨query, bytes, -, -, -, rfl⟩ := afterRequest_eq_some hcached
  have hproduct : (entryTtl config.negativeTtl outcome * 1000000000).toNat =
      cacheTtl config.negativeTtl outcome * 10 ^ 9 := by
    rw [UInt64.toNat_mul, httl, show (1000000000 : UInt64).toNat = 10 ^ 9 from rfl,
      Nat.mod_eq_of_lt (by omega)]
  have hexp : (now + entryTtl config.negativeTtl outcome * 1000000000).toNat =
      now.toNat + cacheTtl config.negativeTtl outcome * 10 ^ 9 := by
    rw [UInt64.toNat_add, hproduct, Nat.mod_eq_of_lt hfit]
  rw [← expiresAt_computeCacheEntry query.name query.queryType query.queryClass outcome bytes]
    at hexp
  exact {
    ttl := httl
    product := hproduct
    expiresAt := hexp
    served := fun env q hc => by rw [lookupEntry_eq_ok_iff hc, hexp] }

end

/-- A NODATA the handler offers for the cache. -/
def nodataOutcome : RequestOutcome where
  responseCode := .noError
  authority := some "nacos"
  answers := 0
  responseBytes := some sampleBytes
  minAnswerTtl := none

theorem expiry_exact_default :
    ∃ entry, afterRequest 30 5 sampleRequest nodataOutcome = some entry ∧
      ExpiryExact 30 5 nodataOutcome entry.2 := by
  have hfits : NegativeTtlFits 30 5 nodataOutcome := fun _ => by decide
  obtain ⟨entry, hentry⟩ : ∃ entry, afterRequest 30 5 sampleRequest nodataOutcome = some entry :=
    ⟨_, rfl⟩
  exact ⟨entry, hentry,
    (expiry_exact_iff (validateXdp_default true) (by decide) hentry).mpr hfits⟩

/-- A section with a `negative_ttl` of 2^32 + 30 seconds, accepted as any other. -/
def wideConfig : XdpConfig := { enabled := true, negativeTtl := 4294967326 }

theorem wide_negativeTtl_truncated :
    validateXdp wideConfig = .ok () ∧
    ∃ entry, afterRequest wideConfig.negativeTtl 0 sampleRequest nodataOutcome = some entry ∧
      cacheTtl wideConfig.negativeTtl nodataOutcome = 4294967326 ∧
      entry.2.expiresAt.toNat = 30 * 10 ^ 9 ∧
      ¬ ExpiryExact wideConfig.negativeTtl 0 nodataOutcome entry.2 := by
  refine ⟨by decide +kernel, _, rfl, by decide, by decide +kernel, fun h => ?_⟩
  have := h.ttl
  exact absurd this (by decide)

end DoggyDns
