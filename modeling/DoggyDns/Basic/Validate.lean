import DoggyDns.Basic.Load
import DoggyDns.Basic.Net
import DoggyDns.Basic.Xdp

/-!
# Validating the configuration

`validate_config`, section by section in the source's order: the first check
that fails is the error. A section holds the fields that are checked. What the
checks ask of the host is the parameter `Host`.

A configuration is accepted when every section is, and for `[[plugins]]` that
means: every enabled Nacos plugin has a zone, the zone's labels are in order,
and no two of the zones are spelled alike.
-/

namespace DoggyDns

/-! ## The sections -/

inductive TargetOs where
  | linux
  | macos
  | other
  deriving DecidableEq, Repr

structure Host where
  targetOs : TargetOs
  /-- `Path::exists`. -/
  pathExists : Text → Bool

structure TlsConfig where
  enabled : Bool := false
  certPath : Text
  keyPath : Text
  deriving DecidableEq, Repr

structure HttpsConfig where
  enabled : Bool := false
  certPath : Text
  keyPath : Text
  deriving DecidableEq, Repr

structure ServerConfig where
  workerThreads : UInt64 := 1
  reuseportListenNum : UInt16 := 1
  cpuAffinity : Option (List UInt64) := none
  tls : Option TlsConfig := none
  https : Option HttpsConfig := none
  deriving DecidableEq, Repr

structure RemoteConfig where
  enabled : Bool := false
  serverAddr : Text := []
  dataId : Text := []
  deriving DecidableEq, Repr

inductive PluginKind where
  | nacos
  | native
  | forward
  deriving DecidableEq, Repr

structure PluginConfig where
  kind : PluginKind
  enabled : Bool := true
  serverAddr : Option Text := none
  «namespace» : Option Text := none
  group : Option Text := none
  dnsZone : Option Text := none
  servicePattern : Option Text := none
  ttl : UInt32 := 6
  minTtl : UInt32 := 10
  maxTtl : UInt32 := 300
  upstream : Option (List Text) := none
  deriving DecidableEq, Repr

structure LogsConfig where
  enabled : Bool := true
  level : Text := "warn".toList
  endpoint : Option Text := none
  deriving DecidableEq, Repr

structure MetricsConfig where
  enabled : Bool := true
  intervalSecs : UInt64 := 15
  endpoint : Option Text := none
  deriving DecidableEq, Repr

structure TracesConfig where
  enabled : Bool := true
  /-- The bits of the `f64`; 0.05. -/
  sampleRatio : UInt64 := 0x3FA999999999999A
  maxQueueSize : UInt64 := 8192
  maxExportBatchSize : UInt64 := 512
  scheduledDelayMs : UInt64 := 2000
  endpoint : Option Text := none
  deriving DecidableEq, Repr

structure ProfilesConfig where
  enabled : Bool := false
  intervalSecs : UInt64 := 60
  durationSecs : UInt64 := 10
  frequencyHz : Int32 := 99
  endpoint : Option Text := none
  deriving DecidableEq, Repr

/-- The credentials, and the fields that only validation reads. -/
structure ObservabilitySection extends ObservabilityConfig where
  enabled : Bool := false
  endpoint : Text := []
  serviceName : Option Text := none
  timeoutSecs : UInt64 := 10
  logs : LogsConfig := {}
  metrics : MetricsConfig := {}
  traces : TracesConfig := {}
  profiles : ProfilesConfig := {}
  deriving DecidableEq, Repr

def CONTROL_ENDPOINTS : List Text := ["mcp".toList, "healthz".toList, "readyz".toList]

structure ControlConfig where
  enabled : Bool := false
  listenAddr : Text := "127.0.0.1".toList
  port : UInt16 := 19090
  endpoints : List Text := CONTROL_ENDPOINTS
  deriving DecidableEq, Repr

structure DoggyDnsConfig where
  server : ServerConfig := {}
  plugins : List PluginConfig := []
  remoteConfig : RemoteConfig := {}
  observability : ObservabilitySection := {}
  xdp : XdpConfig := {}
  control : ControlConfig := {}
  deriving DecidableEq, Repr

/-! ## Server, remote configuration and control plane -/

/-- A loop that checks each element and that it was not seen before. -/
def checkEach {α : Type} [DecidableEq α] (check : α → Except Error Unit) (duplicate : α → String) :
    List α → List α → Except Error Unit
  | _, [] => .ok ()
  | seen, a :: rest => do
    check a
    ensure (!seen.contains a) (duplicate a)
    checkEach check duplicate (a :: seen) rest

def validateCertificate (host : Host) (protocol : String) (certPath keyPath : Text) :
    Except Error Unit := do
  let cert := String.ofList certPath
  let key := String.ofList keyPath
  ensure (host.pathExists certPath) s!"{protocol} cert_path does not exist: {cert}"
  ensure (host.pathExists keyPath) s!"{protocol} key_path does not exist: {key}"

def validateServer (host : Host) (config : ServerConfig) : Except Error Unit := do
  let workers := config.workerThreads
  ensure (config.workerThreads > 0) "server.worker_threads must be greater than 0"
  ensure (config.reuseportListenNum ≥ 1) "server.reuseport_listen_num must be >= 1"
  if config.reuseportListenNum > 1 then
    ensure (host.targetOs = .linux)
      "server.reuseport_listen_num > 1 is only supported on Linux (SO_REUSEPORT)"
  match config.cpuAffinity with
  | none => .ok ()
  | some affinity => do
    let count := affinity.length
    ensure (!affinity.isEmpty) "server.cpu_affinity must not be empty when specified"
    ensure (affinity.length = config.workerThreads.toNat)
      s!"server.cpu_affinity length ({count}) must equal worker_threads ({workers})"
    checkEach (fun _ => .ok ())
      (fun coreId => s!"server.cpu_affinity contains duplicate core ID {coreId}") [] affinity
  match config.tls with
  | some tls => if tls.enabled then validateCertificate host "TLS" tls.certPath tls.keyPath
  | none => .ok ()
  match config.https with
  | some https =>
    if https.enabled then validateCertificate host "HTTPS" https.certPath https.keyPath
  | none => .ok ()

def validateRemoteConfig (config : RemoteConfig) : Except Error Unit := do
  if config.enabled then
    ensure (!config.serverAddr.isEmpty)
      "remote_config.server_addr is required when remote_config is enabled"
    ensure (!config.dataId.isEmpty)
      "remote_config.data_id is required when remote_config is enabled"

def validateControl (config : ControlConfig) : Except Error Unit := do
  if config.enabled then
    let listenAddr := String.ofList config.listenAddr
    ensure (socketAddr config.listenAddr config.port).isOk
      s!"control.listen_addr is not a valid IP address: {listenAddr}"
    ensure (!config.endpoints.isEmpty)
      "control.endpoints must not be empty when the control plane is enabled"
    checkEach
      (fun value =>
        let endpoint := String.ofList value
        ensure (CONTROL_ENDPOINTS.contains value)
          (s!"control.endpoints contains unknown value: {endpoint} " ++
            "(allowed: [\"mcp\", \"healthz\", \"readyz\"])"))
      (fun value =>
        let endpoint := String.ofList value
        s!"control.endpoints contains duplicate value: {endpoint}")
      [] config.endpoints

/-! ## Observability -/

def trimEndMatches (c : Char) (t : Text) : Text := (t.reverse.dropWhile (· = c)).reverse

def isBlank (t : Text) : Bool := (trim t).isEmpty

def validateObservabilityUrl (name : String) (value : Text) (allowSignalPath : Bool) :
    Except Error Unit := do
  let value := trim value
  ensure ("http://".toList.isPrefixOf value || "https://".toList.isPrefixOf value)
    s!"{name} must start with http:// or https://"
  ensure (!value.any isWhitespace) s!"{name} must not contain whitespace"
  if !allowSignalPath then
    ensure (!value.any fun c => c = '?' ∨ c = '#')
      s!"{name} must not contain a query string or fragment"
    ensure (!"/v1".toList.isSuffixOf (trimEndMatches '/' value))
      s!"{name} must be the OTLP base URL without /v1"
    ["logs", "metrics", "traces", "profiles"].forM fun signal =>
      ensure (!(s!"/v1/{signal}").toList.isSuffixOf value)
        (s!"{name} must be the OTLP base URL without /v1/{signal}; " ++
          "use the signal-specific endpoint for a full URL")

/-- A finite `f64` between 0.0 and 1.0, by its bits: both zeros, and what lies up to 1.0. -/
def isRatio (bits : UInt64) : Bool := bits ≤ 0x3FF0000000000000 ∨ bits = 0x8000000000000000

def validateSignals (config : ObservabilitySection) : Except Error Unit := do
  ensure (config.timeoutSecs > 0) "observability.timeout_secs must be greater than 0"
  ensure (["trace", "debug", "info", "warn", "error"].contains
      (String.ofList (config.logs.level.map Char.toLower)))
    "observability.logs.level must be one of trace, debug, info, warn, error"
  ensure (config.metrics.intervalSecs > 0)
    "observability.metrics.interval_secs must be greater than 0"
  ensure (isRatio config.traces.sampleRatio)
    "observability.traces.sample_ratio must be between 0.0 and 1.0"
  ensure (config.traces.maxQueueSize > 0)
    "observability.traces.max_queue_size must be greater than 0"
  ensure (config.traces.maxExportBatchSize > 0 &&
      config.traces.maxExportBatchSize ≤ config.traces.maxQueueSize)
    "observability.traces.max_export_batch_size must be in 1..=max_queue_size"
  ensure (config.traces.scheduledDelayMs > 0)
    "observability.traces.scheduled_delay_ms must be greater than 0"
  ensure (config.profiles.intervalSecs > 0)
    "observability.profiles.interval_secs must be greater than 0"
  ensure (config.profiles.durationSecs > 0 &&
      config.profiles.durationSecs ≤ config.profiles.intervalSecs)
    "observability.profiles.duration_secs must be in 1..=interval_secs"
  ensure (1 ≤ config.profiles.frequencyHz && config.profiles.frequencyHz ≤ 1000)
    "observability.profiles.frequency_hz must be between 1 and 1000"

def validateObservability (host : Host) (config : ObservabilitySection) : Except Error Unit := do
  if config.enabled then
    ensure (!config.serviceName.any isBlank) "observability.service_name must not be empty"
    ensure (config.logs.enabled || config.metrics.enabled || config.traces.enabled ||
        config.profiles.enabled)
      ("observability.enabled is true but no signal (logs/metrics/traces/profiles) " ++
        "is enabled")
    if !isBlank config.endpoint then
      validateObservabilityUrl "observability.endpoint" config.endpoint false
    [("observability.logs.endpoint", config.logs.endpoint),
      ("observability.metrics.endpoint", config.metrics.endpoint),
      ("observability.traces.endpoint", config.traces.endpoint),
      ("observability.profiles.endpoint", config.profiles.endpoint)].forM fun (name, endpoint) =>
        match endpoint.filter (!isBlank ·) with
        | some endpoint => validateObservabilityUrl name endpoint true
        | none => .ok ()
    validateSignals config
    if config.profiles.enabled then
      ensure (host.targetOs = .linux || host.targetOs = .macos)
        "observability.profiles is only supported on Linux and macOS"
    ensure (config.basicAuth.all fun auth => !isBlank auth.username && !auth.password.isEmpty)
      "observability.basic_auth username and password must not be empty"

/-! ## Plugins -/

def kindName : PluginKind → String
  | .nacos => "nacos"
  | .native => "native"
  | .forward => "forward"

def isAsciiAlphanumeric (b : UInt8) : Bool :=
  (0x30 ≤ b && b ≤ 0x39) || (0x41 ≤ b && b ≤ 0x5A) || (0x61 ≤ b && b ≤ 0x7A)

def validateDnsZone (label : String) (zone : Text) : Except Error Unit := do
  ensure (!zone.isEmpty) s!"{label}.dns_zone must not be empty"
  ensure ((utf8 zone).length ≤ 253) s!"{label}.dns_zone must be at most 253 bytes"
  (zone.splitOn '.').forM fun text => do
    let part := String.ofList text
    ensure (!text.isEmpty) s!"{label}.dns_zone must not contain empty labels"
    ensure ((utf8 text).length ≤ 63) s!"{label}.dns_zone label '{part}' must be at most 63 bytes"
    ensure ((utf8 text).all fun byte => isAsciiAlphanumeric byte || byte = 0x2D || byte = 0x5F)
      s!"{label}.dns_zone label '{part}' may only contain letters, digits, '-' and '_'"

/-- The configured zone without its trailing dot. -/
def PluginConfig.zone (plugin : PluginConfig) : Text :=
  let configured := plugin.dnsZone.getD []
  (stripSuffix '.' configured).getD configured

/-- The checks of a Nacos plugin, and the zones seen after it. -/
def validateNacos (label : String) (zones : List Text) (plugin : PluginConfig) :
    Except Error (List Text) := do
  [("server_addr", plugin.serverAddr), ("namespace", plugin.namespace), ("group", plugin.group),
    ("dns_zone", plugin.dnsZone)].forM fun (field, value) =>
      ensure (value.any (!isBlank ·)) s!"{label}.{field} is required for an enabled nacos plugin"
  validateDnsZone label plugin.zone
  let lower := plugin.zone.map Char.toLower
  let zone := String.ofList lower
  ensure (!zones.contains lower)
    (s!"duplicate nacos dns_zone '{zone}' at {label}; " ++
      "each enabled nacos plugin needs its own zone")
  ensure (!plugin.servicePattern.any isBlank)
    (s!"{label}.service_pattern must not be blank; " ++
      "omit it for the built-in bare-application-name rule")
  return lower :: zones

def validateResolverTtls (label : String) (plugin : PluginConfig) : Except Error Unit :=
  let min := plugin.minTtl
  let max := plugin.maxTtl
  ensure (plugin.minTtl ≤ plugin.maxTtl)
    s!"{label}.min_ttl ({min}) must not exceed max_ttl ({max})"

def validateUpstream (label : String) (plugin : PluginConfig) : Except Error Unit := do
  match plugin.upstream with
  | none => .ok ()
  | some upstream => do
    ensure (!upstream.isEmpty)
      s!"{label}.upstream must not be empty; omit it to use the default servers"
    upstream.forM fun text =>
      let address := String.ofList text
      ensure ((SocketAddr.fromStr (utf8 text)).isSome || (IpAddr.fromStr (utf8 text)).isSome)
        s!"{label}.upstream entry '{address}' is not an IP address or IP:port"

/-- One round of the loop over the plugins. -/
def validatePlugin (index : Nat) (zones : List Text) (plugin : PluginConfig) :
    Except Error (List Text) := do
  let kind := kindName plugin.kind
  let label := s!"plugins[{index}] ({kind})"
  if !plugin.enabled then return zones
  match plugin.kind with
  | .nacos => validateNacos label zones plugin
  | .native => do
    validateResolverTtls label plugin
    return zones
  | .forward => do
    validateResolverTtls label plugin
    validateUpstream label plugin
    return zones

/-- The loop: plugins number `index` and on, with the zones seen so far. -/
def validatePluginsFrom : Nat → List Text → List PluginConfig → Except Error Unit
  | _, _, [] => .ok ()
  | index, zones, plugin :: plugins => do
    let zones ← validatePlugin index zones plugin
    validatePluginsFrom (index + 1) zones plugins

def validatePlugins (plugins : List PluginConfig) : Except Error Unit :=
  if plugins.isEmpty then .ok ()
  else do
    ensure (plugins.any (·.enabled))
      "at least one plugin must be enabled when [[plugins]] is configured"
    validatePluginsFrom 0 [] plugins

/-! ## The whole configuration -/

def validateConfig (host : Host) (config : DoggyDnsConfig) : Except Error Unit := do
  validateServer host config.server
  validateRemoteConfig config.remoteConfig
  validatePlugins config.plugins
  validateObservability host config.observability
  validateXdp config.xdp
  validateControl config.control

theorem validateSignals_default (enabled : Bool) : validateSignals { enabled } = .ok () := by
  cases enabled <;> decide +kernel

theorem validateObservability_default (host : Host) (enabled : Bool) :
    validateObservability host { enabled } = .ok () := by
  unfold validateObservability
  rw [validateSignals_default]
  cases enabled <;> rfl

theorem validateControl_default (enabled : Bool) : validateControl { enabled } = .ok () := by
  cases enabled <;> decide +kernel

/-- Every default passes its own checks, also once its section is enabled. -/
theorem validateConfig_default (host : Host) (observability xdp control : Bool) :
    validateConfig host
      { observability := { enabled := observability }
        xdp := { enabled := xdp }
        control := { enabled := control } } = .ok () := by
  unfold validateConfig
  rw [validateObservability_default, validateXdp_default, validateControl_default]
  rfl

/-! ## What is accepted -/

theorem forM_eq_ok {α : Type} {f : α → Except Error Unit} {as : List α} :
    as.forM f = .ok () ↔ ∀ a ∈ as, f a = .ok () := by
  induction as with
  | nil => exact iff_of_true rfl nofun
  | cons a as ih =>
    rw [List.forall_mem_cons, ← ih]
    constructor
    · intro h
      obtain ⟨_, ha, h⟩ := bind_eq_ok h
      exact ⟨ha, h⟩
    · rintro ⟨ha, h⟩
      show f a >>= (fun _ => as.forM f) = _
      rw [ha]
      exact h

/-- A byte of a zone's label. -/
def isZoneByte (byte : UInt8) : Bool := isAsciiAlphanumeric byte || byte = 0x2D || byte = 0x5F

/-- A zone that is accepted. -/
structure ZoneOk (zone : Text) : Prop where
  length_le : (utf8 zone).length ≤ 253
  label_pos : ∀ part ∈ zone.splitOn '.', part ≠ []
  label_le : ∀ part ∈ zone.splitOn '.', (utf8 part).length ≤ 63
  label_bytes : ∀ part ∈ zone.splitOn '.', ∀ byte ∈ utf8 part, isZoneByte byte = true

theorem validateDnsZone_ok {label : String} {zone : Text}
    (h : validateDnsZone label zone = .ok ()) : ZoneOk zone := by
  unfold validateDnsZone at h
  rw [ensure_bind_eq_ok, ensure_bind_eq_ok, forM_eq_ok] at h
  obtain ⟨-, hlen, hparts⟩ := h
  have hpart : ∀ part ∈ zone.splitOn '.', part ≠ [] ∧ (utf8 part).length ≤ 63 ∧
      ∀ byte ∈ utf8 part, isZoneByte byte = true := by
    intro part hmem
    have := hparts part hmem
    rw [ensure_bind_eq_ok, ensure_bind_eq_ok, ensure_eq_ok] at this
    simpa [isZoneByte] using this
  exact ⟨by simpa using hlen, fun p hp => (hpart p hp).1, fun p hp => (hpart p hp).2.1,
    fun p hp => (hpart p hp).2.2⟩

/-- What the duplicate check compares. -/
def PluginConfig.zoneKey (plugin : PluginConfig) : Text := plugin.zone.map Char.toLower

def PluginConfig.isNacos (plugin : PluginConfig) : Bool := plugin.enabled && plugin.kind = .nacos

theorem validateNacos_ok {label : String} {zones zones' : List Text} {plugin : PluginConfig}
    (h : validateNacos label zones plugin = .ok zones') :
    plugin.dnsZone.isSome ∧ ZoneOk plugin.zone ∧ plugin.zoneKey ∉ zones ∧
      zones' = plugin.zoneKey :: zones := by
  unfold validateNacos at h
  obtain ⟨_, hfields, h⟩ := bind_eq_ok h
  obtain ⟨_, hzone, h⟩ := bind_eq_ok h
  rw [ensure_bind_eq_ok, ensure_bind_eq_ok] at h
  obtain ⟨hfresh, -, h⟩ := h
  have hdns := ensure_eq_ok.mp (forM_eq_ok.mp hfields ("dns_zone", plugin.dnsZone) (by simp))
  refine ⟨?_, validateDnsZone_ok hzone, by simpa [PluginConfig.zoneKey] using hfresh, ?_⟩
  · cases hz : plugin.dnsZone with
    | none => simp [hz] at hdns
    | some z => rfl
  · cases h
    rfl

theorem validatePlugin_ok {index : Nat} {zones zones' : List Text} {plugin : PluginConfig}
    (h : validatePlugin index zones plugin = .ok zones') :
    (plugin.isNacos = true ∧ plugin.dnsZone.isSome ∧ ZoneOk plugin.zone ∧
      plugin.zoneKey ∉ zones ∧ zones' = plugin.zoneKey :: zones) ∨
    (plugin.isNacos = false ∧ zones' = zones) := by
  unfold validatePlugin at h
  unfold PluginConfig.isNacos
  cases henabled : plugin.enabled with
  | false =>
    rw [henabled] at h
    cases h
    exact .inr ⟨rfl, rfl⟩
  | true =>
    rw [henabled, if_neg (by decide)] at h
    cases hkind : plugin.kind with
    | nacos =>
      rw [hkind] at h
      exact .inl ⟨rfl, validateNacos_ok h⟩
    | native =>
      rw [hkind] at h
      obtain ⟨_, -, h⟩ := bind_eq_ok h
      cases h
      exact .inr ⟨rfl, rfl⟩
    | forward =>
      rw [hkind] at h
      obtain ⟨_, -, h⟩ := bind_eq_ok h
      obtain ⟨_, -, h⟩ := bind_eq_ok h
      cases h
      exact .inr ⟨rfl, rfl⟩

/-- The plugins that get a `NacosAuthority`. -/
def nacosPlugins (plugins : List PluginConfig) : List PluginConfig := plugins.filter (·.isNacos)

theorem validatePluginsFrom_ok {index : Nat} {zones : List Text} {plugins : List PluginConfig}
    (h : validatePluginsFrom index zones plugins = .ok ()) :
    (∀ p ∈ nacosPlugins plugins, p.dnsZone.isSome ∧ ZoneOk p.zone ∧ p.zoneKey ∉ zones) ∧
      (nacosPlugins plugins).Pairwise fun p q => p.zoneKey ≠ q.zoneKey := by
  induction plugins generalizing index zones with
  | nil => exact ⟨fun _ hp => absurd hp List.not_mem_nil, .nil⟩
  | cons plugin plugins ih =>
    obtain ⟨zones', hplugin, h⟩ := bind_eq_ok h
    obtain ⟨hrest, hdistinct⟩ := ih h
    unfold nacosPlugins at hrest hdistinct ⊢
    rcases validatePlugin_ok hplugin with ⟨hn, hsome, hzone, hfresh, rfl⟩ | ⟨hn, rfl⟩
    · rw [List.filter_cons_of_pos hn, List.forall_mem_cons, List.pairwise_cons]
      refine ⟨⟨⟨hsome, hzone, hfresh⟩, fun p hp => ?_⟩, fun p hp => ?_, hdistinct⟩
      · obtain ⟨hsome, hzone, hp⟩ := hrest p hp
        exact ⟨hsome, hzone, fun hmem => hp (List.mem_cons_of_mem _ hmem)⟩
      · intro heq
        exact (hrest p hp).2.2 (heq ▸ List.mem_cons_self)
    · rw [List.filter_cons_of_neg (by rw [hn]; exact Bool.false_ne_true)]
      exact ⟨hrest, hdistinct⟩

/-- **Accepted zones.** Every enabled Nacos plugin of an accepted configuration has an accepted
zone, and no two have zones that differ in case only. -/
theorem validateConfig_ok {host : Host} {config : DoggyDnsConfig}
    (h : validateConfig host config = .ok ()) :
    (∀ p ∈ nacosPlugins config.plugins, p.dnsZone.isSome ∧ ZoneOk p.zone) ∧
      (nacosPlugins config.plugins).Pairwise fun p q => p.zoneKey ≠ q.zoneKey := by
  obtain ⟨_, -, h⟩ := bind_eq_ok h
  obtain ⟨_, -, h⟩ := bind_eq_ok h
  obtain ⟨_, hplugins, -⟩ := bind_eq_ok h
  unfold validatePlugins at hplugins
  split at hplugins
  next hempty =>
    rw [List.isEmpty_iff.mp hempty]
    exact ⟨fun _ hp => absurd hp List.not_mem_nil, .nil⟩
  next =>
    obtain ⟨-, hplugins⟩ := ensure_bind_eq_ok.mp hplugins
    obtain ⟨hall, hdistinct⟩ := validatePluginsFrom_ok hplugins
    exact ⟨fun p hp => ⟨(hall p hp).1, (hall p hp).2.1⟩, hdistinct⟩

end DoggyDns
