import DoggyDns.Nacos.Authority

/-!
# Service instances

The instance lists the Nacos client hands out, and what of them the watcher
serves: healthy, enabled instances whose address parses (`watcher.rs`).
-/

namespace DoggyDns

/-- An instance as the Nacos client reports it. -/
structure ServiceInstance where
  ip : List UInt8
  port : Int32
  healthy : Bool
  enabled : Bool
  deriving DecidableEq

def CachedInstance.fromServiceInstance (i : ServiceInstance) : Option CachedInstance :=
  (IpAddr.fromStr i.ip).map fun ip => ⟨ip, i.port, i.healthy⟩

/-- The instances worth answering with. -/
def usableInstances (instances : List ServiceInstance) : List CachedInstance :=
  (instances.filter fun i => i.healthy && i.enabled).filterMap CachedInstance.fromServiceInstance

/-- What the client's cache can answer, if anything: an empty list is no answer. -/
def cacheHitOf (instances : List ServiceInstance) : Option CatalogAnswer :=
  let usable := usableInstances instances
  if usable.isEmpty then none else some (.instances usable)

/-- What a service list implies. -/
def answerOf (instances : List ServiceInstance) : CatalogAnswer :=
  let usable := usableInstances instances
  if usable.isEmpty then .unknown else .instances usable

theorem mem_usableInstances {instances : List ServiceInstance} {c : CachedInstance} :
    c ∈ usableInstances instances ↔
      ∃ i ∈ instances, i.healthy ∧ i.enabled ∧ CachedInstance.fromServiceInstance i = some c := by
  simp only [usableInstances, List.mem_filterMap, List.mem_filter, Bool.and_eq_true, and_assoc]

/-- Of `10.0.0.1`, an unhealthy instance and one with a leading zero, the first is served. -/
example :
    usableInstances
      [⟨[0x31, 0x30, 0x2E, 0x30, 0x2E, 0x30, 0x2E, 0x31], 80, true, true⟩,
        ⟨[0x3A, 0x3A, 0x31], 80, false, true⟩,
        ⟨[0x31, 0x30, 0x2E, 0x30, 0x2E, 0x30, 0x2E, 0x30, 0x31], 80, true, true⟩] =
      [⟨.v4 0x0A000001, 80, true⟩] := by
  decide

theorem cacheHitOf_eq_none {instances : List ServiceInstance} :
    cacheHitOf instances = none ↔ usableInstances instances = [] := by
  simp [cacheHitOf]

theorem cacheHitOf_eq_some {instances : List ServiceInstance} {answer : CatalogAnswer} :
    cacheHitOf instances = some answer ↔
      usableInstances instances ≠ [] ∧ .instances (usableInstances instances) = answer := by
  simp [cacheHitOf]

theorem answerOf_eq_unknown {instances : List ServiceInstance} :
    answerOf instances = .unknown ↔ usableInstances instances = [] := by
  simp [answerOf]

theorem answerOf_eq_instances {instances : List ServiceInstance} {l : List CachedInstance} :
    answerOf instances = .instances l ↔
      usableInstances instances ≠ [] ∧ usableInstances instances = l := by
  simp only [answerOf, List.isEmpty_iff]
  split <;> simp_all

theorem answerOf_ne_unavailable (instances : List ServiceInstance) :
    answerOf instances ≠ .unavailable := by
  simp only [answerOf]
  split <;> simp

end DoggyDns
