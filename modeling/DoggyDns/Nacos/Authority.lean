import DoggyDns.Basic.Net
import DoggyDns.Plugin.Chain

/-!
# The Nacos zone

`mapping.rs` and `authority.rs`: a name `<service>.<group>.<namespace>.<zone>`
inside the zone is answered from a service catalog and from nothing else;
outside the zone the handler skips. Texts are their UTF-8 bytes.
-/

namespace DoggyDns

/-! ## Names and services -/

/-- `zone_of`: the zone's labels are the last labels of the name. -/
def Name.zoneOf (zone name : Name) : Bool := zone.labels.isSuffixOf name.labels

/-- `str::from_utf8`. -/
def validUtf8 (bytes : List UInt8) : Bool := ByteArray.validateUTF8 ⟨bytes.toArray⟩

def eqIgnoreAsciiCase (a b : List UInt8) : Bool := a.map toAsciiLowercase = b.map toAsciiLowercase

/-- A DNS label as text: no control byte, no dot, valid UTF-8. -/
def labelText (label : Label) : Option (List UInt8) :=
  if label.any (· < 0x20) || label.contains 0x2E then none
  else if validUtf8 label then some label else none

/-- The Nacos service a name asks for; membership in the zone is the caller's check. -/
def serviceNameFromName (name zone : Name) (group «namespace» : List UInt8) : Option (List UInt8) :=
  let zoneLen := zone.labels.length
  let nameLen := name.labels.length
  if nameLen < zoneLen + 3 then none
  else do
    let serviceLen := nameLen - zoneLen - 2
    let service ← (name.labels.take serviceLen).zipIdx.foldlM (fun service (label, index) => do
      let text ← labelText label
      return if index = 0 then text else service ++ [0x2E] ++ text) []
    let rest := name.labels.drop serviceLen
    let matchesGroup := (rest[0]?.bind labelText).any (eqIgnoreAsciiCase · group)
    let matchesNamespace := (rest[1]?.bind labelText).any (eqIgnoreAsciiCase · «namespace»)
    if !matchesGroup || !matchesNamespace then none else return service

/-! ## Answers -/

/-- Simplified service instance for DNS resolution. -/
structure CachedInstance where
  ip : IpAddr
  port : Int32
  healthy : Bool
  deriving DecidableEq

/-- What a catalog knows about one service. -/
inductive CatalogAnswer where
  | instances (instances : List CachedInstance)
  | unknown
  | unavailable
  deriving DecidableEq

/-- The instances' addresses of the requested family, owned by the queried name. -/
def toDnsRecords (name : Name) (instances : List CachedInstance) (ttl : UInt32)
    (rtype : RecordType) :
    List Record :=
  instances.filterMap fun i =>
    match i.ip with
    | .v4 ip => if rtype = RecordType.A then some ⟨name, ttl, .a ip⟩ else none
    | .v6 ip => if rtype = RecordType.AAAA then some ⟨name, ttl, .aaaa ip⟩ else none

structure NacosAuthority (W : Type) where
  /-- `ServiceCatalog::instances`. -/
  catalog : List UInt8 → W → CatalogAnswer × W
  ttl : UInt32
  origin : Name
  group : List UInt8
  «namespace» : List UInt8
  apexSoa : Record

section
variable {W : Type} (a : NacosAuthority W)

def NacosAuthority.answer (name : Name) (instances : List CachedInstance) (rtype : RecordType) :
    LookupControlFlow :=
  if ¬(rtype = RecordType.A ∨ rtype = RecordType.AAAA) then .continue (.error .nameExists)
  else
    let records := toDnsRecords name instances a.ttl rtype
    if records.isEmpty then .continue (.error .nameExists)
    else .continue (.ok (.section records))

def nxdomain : LookupControlFlow := .continue (.error (.responseCode .nxDomain))

def servfail : LookupControlFlow := .continue (.error (.responseCode .servFail))

def NacosAuthority.lookup (name : Name) (rtype : RecordType) (w : W) : LookupControlFlow × W :=
  if !a.origin.zoneOf name then (.skip, w)
  -- the apex: equal label count inside the zone
  else if name.labels.length = a.origin.labels.length then
    (if rtype = RecordType.SOA then .continue (.ok (.section [a.apexSoa]))
      else .continue (.error .nameExists), w)
  else
    match serviceNameFromName name a.origin a.group a.namespace with
    | none => (nxdomain, w)
    | some service =>
      match a.catalog service w with
      | (.instances instances, w) => (a.answer name instances rtype, w)
      | (.unknown, w) => (nxdomain, w)
      | (.unavailable, w) => (servfail, w)

theorem NacosAuthority.answer_ne_skip (name : Name) (instances : List CachedInstance)
    (rtype : RecordType) : a.answer name instances rtype ≠ .skip := by
  unfold NacosAuthority.answer
  split
  · simp
  · simp only
    split <;> simp

/-- Outside the zone the handler skips without a catalog call, and only there. -/
theorem NacosAuthority.lookup_eq_skip_iff (name : Name) (rtype : RecordType) (w : W) :
    (a.lookup name rtype w).1 = .skip ↔ a.origin.zoneOf name = false := by
  unfold NacosAuthority.lookup
  cases hz : a.origin.zoneOf name with
  | false => simp
  | true =>
    refine iff_of_false ?_ (by decide)
    simp only [Bool.not_true, Bool.false_eq_true, ↓reduceIte]
    split
    · split <;> simp
    · split
      · simp [nxdomain]
      · split
        · exact a.answer_ne_skip name _ rtype
        · simp [nxdomain]
        · simp [servfail]

/-- `NacosAuthority` as a zone handler. -/
def NacosAuthority.handler : ZoneHandler W where
  zoneType := .primary
  origin := a.origin
  lookup := a.lookup

end

/-- The zone `z.`, with the service group `g` and the namespace `n`. -/
def sampleZone : Name := ⟨[[0x7A]], by decide, by decide⟩

def sampleSoa : Record :=
  ⟨sampleZone, 60, .soa ⟨sampleZone, sampleZone, 1, 3600, 600, 86400, 60⟩⟩

def sampleAuthority (answer : CatalogAnswer) : NacosAuthority Unit where
  catalog _ w := (answer, w)
  ttl := 60
  origin := sampleZone
  group := [0x67]
  «namespace» := [0x6E]
  apexSoa := sampleSoa

/-- The service `s` of that zone. -/
def serviceName : Name := ⟨[[0x73], [0x67], [0x6E], [0x7A]], by decide, by decide⟩

end DoggyDns
