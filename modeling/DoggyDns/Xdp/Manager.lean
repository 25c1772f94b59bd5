import DoggyDns.Xdp.Pin

/-!
# Starting the fast path

`interface.rs` and `XdpManager::new`: the interface is resolved, the loader is
given the pin path and a capacity, and the program is set up and, in auto mode,
attached. Every step behind the interface is a call into the loader or the
kernel, which are not part of the repository: a start is a function of what
those calls answer.
-/

namespace DoggyDns

/-! ## The interface -/

/-- `str::lines`. -/
def lines (text : Text) : List Text :=
  let pieces := text.splitOn '\n'
  pieces.dropLast.map (fun line => (stripSuffix '\r' line).getD line) ++
    (pieces.getLast?.filter fun line => !line.isEmpty).toList

/-- `str::split_whitespace`. -/
def splitWhitespace (text : Text) : List Text :=
  (text.splitOnP isWhitespace).filter fun field => !field.isEmpty

/-- The interface of the default route. -/
def parseDefaultFromRoute (content : Text) : Except Error Text :=
  required "no default route found in /proc/net/route" <|
    ((lines content).drop 1).findSome? fun line =>
      match splitWhitespace line with
      | interface :: destination :: _ =>
        if destination = "00000000".toList then some interface else none
      | _ => none

/-- `route` is what reading `/proc/net/route` gives. -/
def detectDefaultInterface (route : Except Error Text) : Except Error Text := do
  let content ← context "failed to read /proc/net/route" route
  parseDefaultFromRoute content

def resolveInterface (env : Text → Option Text) (route : Except Error Text) (configured : Text) :
    Except Error Text :=
  if !configured.isEmpty then .ok configured
  else
    match env "XDP_INTERFACE".toList with
    | some interface => if !interface.isEmpty then .ok interface else detectDefaultInterface route
    | none => detectDefaultInterface route

/-! ## The calls -/

/-- What one start is answered by everything outside the repository. -/
structure XdpCalls where
  env : Text → Option Text
  /-- `read_to_string("/proc/net/route")`. -/
  route : Except Error Text
  /-- The embedded ELF. -/
  elf : List UInt8
  /-- `MapInfo::from_pin`. -/
  fromPin : Except Error UInt32
  /-- `EbpfLoader::load`, given the capacity and the path of `DNS_CACHE`. -/
  load : UInt32 → Text → Except Error Unit
  /-- `EbpfLogger::init_with_logger`. -/
  logger : Except Error Unit
  /-- The maps `take_map` finds in the ELF. -/
  hasMap : String → Bool
  /-- `DnsCacheMap::from_map`. -/
  cacheMap : Except Error Unit
  /-- `DnsCacheMap::shape`. -/
  shape : Except Error PinnedCacheShape
  /-- `XdpStatsReader::from_map`. -/
  statsMap : Except Error Unit
  /-- `Array::try_from`. -/
  configMap : Except Error Unit
  /-- `Array::set` of the DNS port. -/
  setConfig : UInt16 → Except Error Unit
  /-- `Ebpf::program_mut` finds `dns_xdp`. -/
  hasProgram : Bool
  /-- `Xdp::try_from`. -/
  isXdp : Except Error Unit
  /-- `Xdp::load`. -/
  loadProgram : Except Error Unit
  /-- `Xdp::attach`. -/
  attach : Text → Except Error Unit

/-- `CString::new`. -/
def cString (text : Text) : Except Error Unit :=
  match (utf8 text).findIdx? (· = 0) with
  | none => .ok ()
  | some position => .error [s!"nul byte found in provided data at position: {position}"]

/-- What a start that came through leaves, with the line it logged about the map. -/
structure XdpManager where
  /-- The interface the program is attached to. -/
  link : Option Text
  logger : Bool
  interface : Text
  provenance : Provenance
  deriving DecidableEq

namespace XdpManager

section
variable (calls : XdpCalls) (pinned : Bool) (config : XdpConfig)

/-- The capacity `new` declares; `pinned` says whether the pin path is occupied. -/
def declaredSize : UInt32 :=
  declaredCacheSize (if pinned then some calls.fromPin else none) config.cacheSize

/-- `XdpManager::new` up to the call of the loader, which creates the map or takes the pinned
one. -/
def loadElf : Except Error Text := do
  let interface ← context "failed to resolve XDP interface"
    (resolveInterface calls.env calls.route config.interface)
  ensure (!calls.elf.isEmpty) "eBPF ELF is empty — build the eBPF program first"
  context "failed to load eBPF ELF"
    (calls.load (declaredSize calls pinned config) (versionedPinPath config.pinPath))
  .ok interface

def loadDnsProgram : Except Error Unit := do
  ensure calls.hasProgram "dns_xdp program not found"
  context "dns_xdp is not an XDP program" calls.isXdp

/-- The program is attached in auto mode; in manual mode that is left to others. -/
def attachLink (interface : Text) : Except Error (Option Text) :=
  if config.attachMode = "auto".toList then do
    context "interface name contains a NUL byte" (cString interface)
    context s!"failed to attach XDP to interface {String.ofList interface}"
      (calls.attach interface)
    .ok (some interface)
  else .ok none

/-- `XdpManager::new` behind the loader. -/
def setUp (interface : Text) (dnsPort : UInt16) : Except Error XdpManager := do
  ensure (calls.hasMap "DNS_CACHE") "DNS_CACHE map not found in ELF"
  calls.cacheMap
  let provenance := logCacheProvenance calls.shape config.cacheSize pinned
  ensure (calls.hasMap "XDP_STATS") "XDP_STATS map not found in ELF"
  context "failed to read XDP_STATS map" calls.statsMap
  ensure (calls.hasMap "XDP_CONFIG") "XDP_CONFIG map not found in ELF"
  context "XDP_CONFIG has an unexpected value type" calls.configMap
  context "failed to write XDP runtime configuration" (calls.setConfig dnsPort)
  loadDnsProgram calls
  context "failed to load XDP program" calls.loadProgram
  let link ← attachLink calls config interface
  .ok { link, logger := calls.logger.isOk, interface, provenance }

/-- `XdpManager::new`. -/
def new (dnsPort : UInt16) : Except Error XdpManager := do
  let interface ← loadElf calls pinned config
  setUp calls pinned config interface dnsPort

end

/-! ## What it takes -/

variable {calls : XdpCalls} {pinned : Bool} {config : XdpConfig}

theorem new_eq_ok {dnsPort : UInt16} {manager : XdpManager}
    (h : new calls pinned config dnsPort = .ok manager) :
    loadElf calls pinned config = .ok manager.interface ∧
      manager.provenance = logCacheProvenance calls.shape config.cacheSize pinned ∧
      attachLink calls config manager.interface = .ok manager.link := by
  obtain ⟨interface, hload, h⟩ := bind_eq_ok h
  obtain ⟨-, h⟩ := ensure_bind_eq_ok.mp h
  obtain ⟨-, -, h⟩ := bind_eq_ok h
  obtain ⟨-, h⟩ := ensure_bind_eq_ok.mp h
  obtain ⟨-, -, h⟩ := bind_eq_ok h
  obtain ⟨-, h⟩ := ensure_bind_eq_ok.mp h
  obtain ⟨-, -, h⟩ := bind_eq_ok h
  obtain ⟨-, -, h⟩ := bind_eq_ok h
  obtain ⟨-, -, h⟩ := bind_eq_ok h
  obtain ⟨-, -, h⟩ := bind_eq_ok h
  obtain ⟨link, hlink, h⟩ := bind_eq_ok h
  cases h
  exact ⟨hload, rfl, hlink⟩

end XdpManager

end DoggyDns
