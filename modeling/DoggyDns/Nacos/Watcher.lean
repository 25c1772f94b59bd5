import DoggyDns.Nacos.Instance
import DoggyDns.Lib.Async

/-!
# The Nacos watcher

`watcher.rs`: which source a query reads (`entryOf`), the failure backoff, and
`NacosServiceWatcher::instances` with the four asynchronous functions under
it. The Nacos client is the other side of `SdkCall`: it may reply anything, at
any time, or never. Times are Unix seconds, bounds are milliseconds.
-/

namespace DoggyDns

open Async

/-! ## Bounds and backoff -/

def NACOS_LOOKUP_TIMEOUT : Nat := 3000

def NACOS_CACHE_READ_TIMEOUT : Nat := 50

def NACOS_FAILURE_THRESHOLD : UInt32 := 3

def NACOS_FAILURE_BACKOFF : Int64 := 30

/-- `opened_at` value meaning "no window". -/
def WINDOW_CLOSED : Int64 := Int64.minValue

def saturatingSub (a b : Int64) : Int64 := Int64.ofIntClamp (a.toInt - b.toInt)

/-- Consecutive remote failures, and the window they open. -/
structure FailureBackoff where
  failures : UInt32 := 0
  openedAt : Int64 := WINDOW_CLOSED
  confirmed : Bool := false
  deriving DecidableEq

namespace FailureBackoff

/-- Whether the window is open as a result. -/
def recordFailure (b : FailureBackoff) (now : Int64) : Bool × FailureBackoff :=
  let streak := b.failures + 1
  if streak < NACOS_FAILURE_THRESHOLD then (false, { b with failures := streak })
  else (true, { b with failures := streak, openedAt := now })

def recordSuccess (_ : FailureBackoff) : FailureBackoff :=
  { failures := 0, openedAt := WINDOW_CLOSED, confirmed := true }

def everConfirmed (b : FailureBackoff) : Bool := b.confirmed

def isOpen (b : FailureBackoff) (now : Int64) : Bool :=
  if b.openedAt = WINDOW_CLOSED ∨ b.failures < NACOS_FAILURE_THRESHOLD then false
  else
    let elapsed := saturatingSub now b.openedAt
    0 ≤ elapsed ∧ elapsed < NACOS_FAILURE_BACKOFF

end FailureBackoff

/-! ## The entry table -/

/-- Which source a query reads first, and what it may fall back to. -/
inductive QueryEntry where
  | clientCache
  | cacheFirst
  | serverFirst
  | cacheOnly
  deriving DecidableEq

def entryOf (ledgered everConfirmed windowOpen : Bool) : QueryEntry :=
  if ledgered then .clientCache
  else if windowOpen then .cacheOnly
  else if everConfirmed then .serverFirst
  else .cacheFirst

theorem entryOf_eq_clientCache {l e o : Bool} : entryOf l e o = .clientCache ↔ l = true := by
  revert l e o
  decide

theorem entryOf_eq_cacheFirst {l e o : Bool} :
    entryOf l e o = .cacheFirst ↔ l = false ∧ e = false ∧ o = false := by
  revert l e o
  decide

theorem entryOf_eq_cacheOnly {l e o : Bool} :
    entryOf l e o = .cacheOnly ↔ l = false ∧ o = true := by
  revert l e o
  decide

/-! ## The watcher -/

inductive SdkCall where
  | getAllInstances (service group : List UInt8) (subscribe : Bool)
  | subscribe (service group : List UInt8)

/-- What the client hands back; the watcher only logs an error's text. -/
abbrev SdkCall.Reply : SdkCall → Type
  | .getAllInstances .. => Except String (List ServiceInstance)
  | .subscribe .. => Except String Unit

/-- What the queries in flight share. -/
structure WatcherState where
  /-- Names whose subscription this process has registered. -/
  subscribed : List (List UInt8) := []
  backoff : FailureBackoff := {}
  deriving DecidableEq

abbrev CatalogFiber := Fiber SdkCall SdkCall.Reply Int64 WatcherState

structure NacosServiceWatcher where
  group : List UInt8
  /-- `ServiceFilter::is_selected`: a configured regular expression. -/
  isSelected : List UInt8 → Bool

namespace NacosServiceWatcher

variable (w : NacosServiceWatcher) (service : List UInt8)

/-- Ask the server, with no cache read and no subscription. -/
def confirmWithServer : SdkCall := .getAllInstances service w.group false

/-- Ask the client's own view. -/
def fetchCache : SdkCall := .getAllInstances service w.group true

def recordRemoteFailure : CatalogFiber Unit := do
  let now ← Fiber.now
  Fiber.update fun s => { s with backoff := (s.backoff.recordFailure now).2 }

/-- Subscribe the name, then put it in the ledger. -/
def subscribeName : CatalogFiber Unit := do
  if (← Fiber.get).subscribed.contains service then return
  match ← Fiber.call (SdkCall.subscribe service w.group) with
  | .ok () => Fiber.update fun s => { s with subscribed := s.subscribed.insert service }
  | .error _ => return

/-- Ask the server, then answer from its own list. -/
def answerFromServer : CatalogFiber CatalogAnswer := do
  match ← Fiber.callWithin NACOS_LOOKUP_TIMEOUT (w.confirmWithServer service) with
  | some (.ok confirmed) =>
    Fiber.update fun s => { s with backoff := s.backoff.recordSuccess }
    w.subscribeName service
    return answerOf confirmed
  | some (.error _) =>
    recordRemoteFailure
    return .unavailable
  | none =>
    recordRemoteFailure
    return .unavailable

/-- What the client's own view answers right now, if anything. -/
def answerFromCache : CatalogFiber (Option CatalogAnswer) := do
  match ← Fiber.callWithin NACOS_CACHE_READ_TIMEOUT (w.fetchCache service) with
  | some (.ok instances) =>
    let hit := cacheHitOf instances
    if hit.isSome then w.subscribeName service
    return hit
  | some (.error _) => return none
  | none => return none

/-- The client cache's answer for a name this process subscribed. -/
def readClientCache : CatalogFiber CatalogAnswer := do
  match ← Fiber.callWithin NACOS_LOOKUP_TIMEOUT (w.fetchCache service) with
  | some (.ok instances) => return answerOf instances
  | some (.error _) => return .unavailable
  | none =>
    recordRemoteFailure
    return .unavailable

/-- `ServiceCatalog::instances`. -/
def instances : CatalogFiber CatalogAnswer := do
  if !w.isSelected service then return .unknown
  let now ← Fiber.now
  let s ← Fiber.get
  match entryOf (s.subscribed.contains service) s.backoff.everConfirmed (s.backoff.isOpen now) with
  | .clientCache => w.readClientCache service
  | .cacheFirst =>
    match ← w.answerFromCache service with
    | some answer => return answer
    | none => w.answerFromServer service
  | .serverFirst =>
    match ← w.answerFromServer service with
    | .unavailable => return (← w.answerFromCache service).getD .unavailable
    | answer => return answer
  | .cacheOnly =>
    match ← w.answerFromCache service with
    | some answer => return answer
    | none => return .unavailable

end NacosServiceWatcher

end DoggyDns
