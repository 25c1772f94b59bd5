import Mathlib.Data.List.Lex
import Mathlib.Data.String.Basic
import DoggyDns.Lib.Overrides
import DoggyDns.Nacos.Configured
import DoggyDns.Nacos.Watcher
import DoggyDns.Observability.Profiles
import DoggyDns.Plugin.Consult
import DoggyDns.System.Flags

/-!
# From the configuration to the chain

`build_authority_chain` starts a backend for each enabled plugin and puts its
handler behind those before it; `build_live_state` names a signal for each zone.
Both read the configuration again: the upstreams are parsed a second time, and
zones that were compared without case and trailing dot become the keys of a map.

What the clients of the backends do with what they are given is the parameter
`Backends`.
-/

namespace DoggyDns

open Lts

/-! ## What a backend is given -/

inductive ConnectionProtocol where
  | udp
  | tcp
  deriving DecidableEq, Repr

structure ConnectionConfig where
  protocol : ConnectionProtocol
  port : UInt16
  deriving DecidableEq, Repr

structure NameServerConfig where
  ip : IpAddr
  trustNegativeResponses : Bool
  connections : List ConnectionConfig
  deriving DecidableEq, Repr

/-- The options that are set; times are in seconds. -/
structure ResolverOpts where
  cacheSize : UInt64
  positiveMinTtl : UInt64
  positiveMaxTtl : UInt64
  deriving DecidableEq, Repr

structure ClientProps where
  serverAddr : Text
  «namespace» : Text
  appName : String := Profiles.APP_NAME
  namingPushEmptyProtection : Bool := false
  namingLoadCacheAtStart : Bool := true
  deriving DecidableEq, Repr

/-- A connected naming service, and the ledger of the watcher that is built on it. -/
structure NamingService (W : Type) where
  /-- What a watcher answers from this service. -/
  instances : NacosServiceWatcher → List UInt8 → W → CatalogAnswer × W
  subscribed : W → List (List UInt8)

structure Backends (W : Type) where
  /-- `Regex::new`, and `is_match` of the result. -/
  regex : Text → Except String (List UInt8 → Bool)
  /-- `NamingServiceBuilder::build`. -/
  naming : ClientProps → Except Error (NamingService W)
  /-- `Resolver::builder_tokio`, and `build` with the options. -/
  systemResolver : ResolverOpts → Except Error (Resolver W)
  /-- `Resolver::builder_with_config`, and `build` with the options. -/
  resolver : List NameServerConfig → ResolverOpts → Except Error (Resolver W)

/-- A watcher with its service. -/
structure Watching (W : Type) where
  watcher : NacosServiceWatcher
  service : NamingService W

def Watching.subscribedCount {W : Type} (x : Watching W) (w : W) : Nat :=
  (x.service.subscribed w).length

/-! ## Building the chain -/

def DEFAULT_SERVICE_PATTERN : Text := "[A-Za-z0-9_-]+".toList

/-- The upstreams of a forward plugin that names none. -/
def DEFAULT_UPSTREAM : List Text := ["8.8.8.8:53".toList, "1.1.1.1:53".toList]

/-- Parse `IP` or `IP:port`, defaulting to port 53. -/
def parseUpstream (addr : Text) : Except Error SocketAddr :=
  let shown := String.ofList addr
  match SocketAddr.fromStr (utf8 addr), IpAddr.fromStr (utf8 addr) with
  | some socketAddr, _ => .ok socketAddr
  | none, some ip => .ok ⟨ip, 53, 0⟩
  | none, none => .error [s!"invalid upstream address '{shown}': expected IP or IP:port"]

/-- An upstream is asked over UDP and TCP, both on its port. -/
def nameServer (addr : SocketAddr) : NameServerConfig :=
  ⟨addr.ip, true, [⟨.udp, addr.port⟩, ⟨.tcp, addr.port⟩]⟩

/-- The handlers and watchers so far. -/
structure Loaded (W : Type) where
  handlers : List (String × Plugin W) := []
  watchers : List (Text × Watching W) := []

section
variable {W : Type} (backends : Backends W) (names : HickoryNames)

/-- The pattern with anchors around it. -/
def anchored (pattern : Option Text) : Text :=
  "^(?:".toList ++ pattern.getD DEFAULT_SERVICE_PATTERN ++ ")$".toList

/-- `ServiceFilter::from_config`. -/
def serviceFilter (pattern : Option Text) : Except Error (List UInt8 → Bool) :=
  let configured := String.ofList (pattern.getD DEFAULT_SERVICE_PATTERN)
  match backends.regex (anchored pattern) with
  | .ok isMatch => .ok isMatch
  | .error e => .error [s!"service_pattern '{configured}' is not a valid regex: {e}"]

/-- `NacosServiceWatcher::new`. -/
def watching (serverAddr «namespace» group : Text) (filter : List UInt8 → Bool) :
    Except Error (Watching W) := do
  let service ← backends.naming { serverAddr, «namespace» }
  return ⟨⟨utf8 group, filter⟩, service⟩

/-- `ForwardAuthority::new`, up to its resolver. -/
def forwardResolver (upstream : List Text) (opts : ResolverOpts) : Except Error (Resolver W) := do
  ensure (!upstream.isEmpty) "forward authority requires at least one upstream server"
  let nameServers ← upstream.mapM fun addr => nameServer <$> parseUpstream addr
  backends.resolver nameServers opts

/-- The options a plugin's resolver gets. -/
def PluginConfig.resolverOpts (plugin : PluginConfig) (cacheSize : UInt32) : ResolverOpts :=
  ⟨cacheSize.toUInt64, plugin.minTtl.toUInt64, plugin.maxTtl.toUInt64⟩

def PluginConfig.dnsZoneText (plugin : PluginConfig) : Text :=
  plugin.dnsZone.getD "nacos.local".toList

def PluginConfig.upstreams (plugin : PluginConfig) : List Text :=
  plugin.upstream.getD DEFAULT_UPSTREAM

/-- What a Nacos plugin's client is built with. -/
def PluginConfig.clientProps (plugin : PluginConfig) : ClientProps where
  serverAddr := plugin.serverAddr.getD "127.0.0.1:8848".toList
  «namespace» := plugin.namespace.getD "public".toList

def nacosName (plugin : PluginConfig) : String :=
  let zone := String.ofList plugin.dnsZoneText
  s!"nacos[{zone}]"

def forwardName (plugin : PluginConfig) : String :=
  let addrs := ",".intercalate (plugin.upstreams.map String.ofList)
  s!"forward[{addrs}]"

/-- One round of the loop, for the plugin at an index; `cacheSize` is the plugin's field. -/
def loadPlugin (index : Nat) (cacheSize : UInt32) (plugin : PluginConfig) (loaded : Loaded W) :
    Except Error (Loaded W) := do
  if !plugin.enabled then return loaded
  match plugin.kind with
  | .nacos => do
    let filter ← context s!"plugins[{index}].service_pattern"
      (serviceFilter backends plugin.servicePattern)
    let x ← watching backends plugin.clientProps.serverAddr plugin.clientProps.namespace
      (plugin.group.getD "DEFAULT_GROUP".toList) filter
    let authority := pluginAuthority names (x.service.instances x.watcher) plugin
    return ⟨loaded.handlers ++ [(nacosName plugin, .nacos authority)],
      loaded.watchers ++ [(plugin.dnsZoneText, x)]⟩
  | .native => do
    let resolver ← backends.systemResolver (plugin.resolverOpts cacheSize)
    return { loaded with handlers := loaded.handlers ++ [("native", .native resolver)] }
  | .forward => do
    let resolver ← forwardResolver backends plugin.upstreams (plugin.resolverOpts cacheSize)
    return { loaded with handlers := loaded.handlers ++ [(forwardName plugin, .forward resolver)] }

variable (cacheSizes : Nat → UInt32)

/-- The loop: plugins number `index` and on. -/
def loadFrom : Nat → List PluginConfig → Loaded W → Except Error (Loaded W)
  | _, [], loaded => .ok loaded
  | index, plugin :: plugins, loaded => do
    let loaded ← loadPlugin backends names index (cacheSizes index) plugin loaded
    loadFrom (index + 1) plugins loaded

/-- `build_authority_chain`; without plugins the chain forwards to the default upstreams. -/
def buildAuthorityChain (config : DoggyDnsConfig) : Except Error (Loaded W) :=
  if config.plugins.isEmpty then do
    let resolver ← forwardResolver backends DEFAULT_UPSTREAM ⟨1024, 30, 600⟩
    return { handlers := [("forward[default]", .forward resolver)] }
  else loadFrom backends names cacheSizes 0 config.plugins {}

end

def Loaded.chain {W : Type} (loaded : Loaded W) : List (NamedHandler W) :=
  AuthorityChain.new (loaded.handlers.map fun (name, p) => (name, p.handler))

/-! ## The live signals -/

inductive Json where
  | bool (b : Bool)
  | number (n : Nat)
  | object (entries : List (Text × Json))

section
variable {W : Type}

/-- A probe reads the state at the time of a request. -/
structure LiveState (W : Type) where
  probes : List (Text × (W → Json)) := []

def LiveState.register (live : LiveState W) (name : Text) (probe : W → Json) : LiveState W :=
  ⟨live.probes ++ [(name, probe)]⟩

/-- Evaluate every probe once. The map is ordered by name, and a name that comes again replaces
its value. -/
def LiveState.snapshot (live : LiveState W) (w : W) : Json :=
  let signals :=
    (live.probes.map fun (name, probe) => (name, probe w)).foldl Overrides.insertSorted []
  .object [("signals".toList, .object signals)]

end

/-! ## What a start amounts to -/

/-- What an enabled plugin adds to the chain. -/
structure Part (W : Type) where
  name : String
  plugin : Plugin W
  watcher : Option (Text × Watching W)

def Loaded.add {W : Type} (loaded : Loaded W) (part : Part W) : Loaded W :=
  ⟨loaded.handlers ++ [(part.name, part.plugin)], loaded.watchers ++ part.watcher.toList⟩

/-- The addresses that texts stand for. -/
def Parsed (texts : List Text) (servers : List SocketAddr) : Prop :=
  List.Forall₂ (fun text addr => parseUpstream text = .ok addr) texts servers

section
variable {W : Type} (backends : Backends W) (names : HickoryNames) (index : Nat)
  (cacheSize : UInt32) (p : PluginConfig)

/-- A plugin whose backend is there. -/
inductive Starts : Part W → Prop
  | nacos {filter : List UInt8 → Bool} {service : NamingService W} {x : Watching W}
      (hkind : p.kind = .nacos)
      (hfilter : backends.regex (anchored p.servicePattern) = .ok filter)
      (hservice : backends.naming p.clientProps = .ok service)
      (hx : x = ⟨⟨utf8 (p.group.getD "DEFAULT_GROUP".toList), filter⟩, service⟩) :
      Starts ⟨nacosName p, .nacos (pluginAuthority names (service.instances x.watcher) p),
        some (p.dnsZoneText, x)⟩
  | native {resolver : Resolver W} (hkind : p.kind = .native)
      (hresolver : backends.systemResolver (p.resolverOpts cacheSize) = .ok resolver) :
      Starts ⟨"native", .native resolver, none⟩
  | forward {servers : List SocketAddr} {resolver : Resolver W} (hkind : p.kind = .forward)
      (hservers : Parsed p.upstreams servers)
      (hresolver : backends.resolver (servers.map nameServer) (p.resolverOpts cacheSize) =
        .ok resolver) :
      Starts ⟨forwardName p, .forward resolver, none⟩

/-- A plugin whose backend is not, with the error that ends the start. -/
inductive Refuses : Error → Prop
  | pattern {filter : Error} (hkind : p.kind = .nacos)
      (hfilter : serviceFilter backends p.servicePattern = .error filter) :
      Refuses (s!"plugins[{index}].service_pattern" :: filter)
  | naming {e : Error} (hkind : p.kind = .nacos)
      (hservice : backends.naming p.clientProps = .error e) : Refuses e
  | systemResolver {e : Error} (hkind : p.kind = .native)
      (hresolver : backends.systemResolver (p.resolverOpts cacheSize) = .error e) : Refuses e
  | resolver {servers : List SocketAddr} {e : Error} (hkind : p.kind = .forward)
      (hservers : Parsed p.upstreams servers)
      (hresolver : backends.resolver (servers.map nameServer) (p.resolverOpts cacheSize) =
        .error e) : Refuses e

end

/-! ## Accepted upstreams -/

/-- At least one upstream, and each is an address. -/
def UpstreamsOk (texts : List Text) : Prop :=
  texts ≠ [] ∧ ∀ text ∈ texts, ∃ addr, parseUpstream text = .ok addr

theorem parseUpstream_ok {text : Text}
    (h : ((SocketAddr.fromStr (utf8 text)).isSome || (IpAddr.fromStr (utf8 text)).isSome) = true) :
    ∃ addr, parseUpstream text = .ok addr := by
  unfold parseUpstream
  cases hsocket : SocketAddr.fromStr (utf8 text) with
  | some addr => exact ⟨addr, rfl⟩
  | none =>
    rw [hsocket] at h
    obtain ⟨ip, hip⟩ := Option.isSome_iff_exists.mp (by simpa using h)
    exact ⟨_, by rw [hip]⟩

theorem defaultUpstream_ok : UpstreamsOk DEFAULT_UPSTREAM := by
  refine ⟨by decide, fun text htext => parseUpstream_ok ?_⟩
  revert text
  decide +kernel

theorem validateUpstream_ok {label : String} {plugin : PluginConfig}
    (h : validateUpstream label plugin = .ok ()) : UpstreamsOk plugin.upstreams := by
  unfold validateUpstream at h
  unfold PluginConfig.upstreams
  cases hup : plugin.upstream with
  | none => exact defaultUpstream_ok
  | some upstream =>
    rw [hup] at h
    obtain ⟨hne, h⟩ := ensure_bind_eq_ok.mp h
    refine ⟨by simpa using hne, fun text htext => parseUpstream_ok ?_⟩
    exact ensure_eq_ok.mp (forM_eq_ok.mp h text htext)

/-- The enabled forward plugins have upstreams. -/
def ForwardsOk (plugins : List PluginConfig) : Prop :=
  ∀ p ∈ plugins, p.enabled = true → p.kind = .forward → UpstreamsOk p.upstreams

theorem validatePlugin_upstreams {index : Nat} {zones zones' : List Text} {p : PluginConfig}
    (h : validatePlugin index zones p = .ok zones') (henabled : p.enabled = true)
    (hkind : p.kind = .forward) : UpstreamsOk p.upstreams := by
  unfold validatePlugin at h
  rw [henabled, if_neg (by decide), hkind] at h
  obtain ⟨_, -, h⟩ := bind_eq_ok h
  obtain ⟨_, hup, -⟩ := bind_eq_ok h
  exact validateUpstream_ok hup

theorem validatePluginsFrom_upstreams {index : Nat} {zones : List Text}
    {plugins : List PluginConfig} (h : validatePluginsFrom index zones plugins = .ok ()) :
    ForwardsOk plugins := by
  induction plugins generalizing index zones with
  | nil => exact fun _ hp => absurd hp List.not_mem_nil
  | cons plugin plugins ih =>
    obtain ⟨zones', hplugin, h⟩ := bind_eq_ok h
    exact List.forall_mem_cons.mpr ⟨validatePlugin_upstreams hplugin, ih h⟩

theorem validateConfig_plugins {host : Host} {config : DoggyDnsConfig}
    (h : validateConfig host config = .ok ()) : validatePlugins config.plugins = .ok () := by
  obtain ⟨_, -, h⟩ := bind_eq_ok h
  obtain ⟨_, -, h⟩ := bind_eq_ok h
  obtain ⟨_, hplugins, -⟩ := bind_eq_ok h
  exact hplugins

theorem validateConfig_upstreams {host : Host} {config : DoggyDnsConfig}
    (h : validateConfig host config = .ok ()) : ForwardsOk config.plugins := by
  have hplugins := validateConfig_plugins h
  unfold validatePlugins at hplugins
  split at hplugins
  next hempty =>
    rw [List.isEmpty_iff.mp hempty]
    exact fun _ hp => absurd hp List.not_mem_nil
  next =>
    obtain ⟨-, hplugins⟩ := ensure_bind_eq_ok.mp hplugins
    exact validatePluginsFrom_upstreams hplugins

/-! ## One plugin -/

section
variable {W : Type} {backends : Backends W} {names : HickoryNames}

theorem mapM_parseUpstream {texts : List Text}
    (h : ∀ text ∈ texts, ∃ addr, parseUpstream text = .ok addr) :
    ∃ servers, Parsed texts servers ∧
      texts.mapM (fun text => nameServer <$> parseUpstream text) =
        .ok (servers.map nameServer) := by
  induction texts with
  | nil => exact ⟨[], .nil, rfl⟩
  | cons text texts ih =>
    obtain ⟨⟨addr, haddr⟩, htexts⟩ := List.forall_mem_cons.mp h
    obtain ⟨servers, hparsed, hmap⟩ := ih htexts
    refine ⟨addr :: servers, .cons haddr hparsed, ?_⟩
    rw [List.mapM_cons, haddr, hmap]
    rfl

/-- With accepted upstreams only the resolver can fail. -/
theorem forwardResolver_eq (backends : Backends W) {texts : List Text} (h : UpstreamsOk texts)
    (opts : ResolverOpts) :
    ∃ servers, Parsed texts servers ∧
      forwardResolver backends texts opts = backends.resolver (servers.map nameServer) opts := by
  obtain ⟨servers, hparsed, hmap⟩ := mapM_parseUpstream h.2
  refine ⟨servers, hparsed, ?_⟩
  unfold forwardResolver
  rw [show texts.isEmpty = false by simpa using h.1, hmap]
  rfl

theorem serviceFilter_ok {pattern : Option Text} {filter : List UInt8 → Bool}
    (h : serviceFilter backends pattern = .ok filter) :
    backends.regex (anchored pattern) = .ok filter := by
  unfold serviceFilter at h
  dsimp only at h
  split at h
  next hregex => rw [hregex, Except.ok.inj h]
  next => cases h

theorem watching_eq (p : PluginConfig) (group : Text) (filter : List UInt8 → Bool) :
    watching backends p.clientProps.serverAddr p.clientProps.namespace group filter =
      (backends.naming p.clientProps).map fun service => ⟨⟨utf8 group, filter⟩, service⟩ := by
  show (backends.naming p.clientProps >>= _) = _
  cases backends.naming p.clientProps <;> rfl

variable (backends names) in
/-- One round adds the plugin's part, or ends with what its backend said. -/
theorem loadPlugin_enabled (index : Nat) (cacheSize : UInt32) {p : PluginConfig}
    (loaded : Loaded W) (henabled : p.enabled = true)
    (hup : p.kind = .forward → UpstreamsOk p.upstreams) :
    (∃ part, Starts backends names cacheSize p part ∧
      loadPlugin backends names index cacheSize p loaded = .ok (loaded.add part)) ∨
    ∃ e, Refuses backends index cacheSize p e ∧
      loadPlugin backends names index cacheSize p loaded = .error e := by
  unfold loadPlugin
  rw [henabled]
  cases hkind : p.kind with
  | nacos =>
    cases hfilter : serviceFilter backends p.servicePattern with
    | error e => exact .inr ⟨_, .pattern hkind hfilter, rfl⟩
    | ok filter =>
      cases hservice : backends.naming p.clientProps with
      | error e =>
        refine .inr ⟨e, .naming hkind hservice, ?_⟩
        show (watching .. >>= _) = _
        rw [watching_eq, hservice]
        rfl
      | ok service =>
        refine .inl ⟨_, .nacos hkind (serviceFilter_ok hfilter) hservice rfl, ?_⟩
        show (watching .. >>= _) = _
        rw [watching_eq, hservice]
        rfl
  | native =>
    cases hresolver : backends.systemResolver (p.resolverOpts cacheSize) with
    | error e => exact .inr ⟨e, .systemResolver hkind hresolver, by rfl⟩
    | ok resolver =>
      refine .inl ⟨_, .native hkind hresolver, ?_⟩
      simp [Loaded.add]
  | forward =>
    obtain ⟨servers, hservers, heq⟩ :=
      forwardResolver_eq backends (hup hkind) (p.resolverOpts cacheSize)
    simp only [heq]
    cases hresolver : backends.resolver (servers.map nameServer) (p.resolverOpts cacheSize) with
    | error e => exact .inr ⟨e, .resolver hkind hservers hresolver, by rfl⟩
    | ok resolver =>
      refine .inl ⟨_, .forward hkind hservers hresolver, ?_⟩
      simp [Loaded.add]

/-! ## The loop -/

/-- The enabled plugins, with their indices. -/
def enabledFrom (index : Nat) (plugins : List PluginConfig) : List (PluginConfig × Nat) :=
  (plugins.zipIdx index).filter fun x => x.1.enabled

theorem enabledFrom_cons (index : Nat) (p : PluginConfig) (plugins : List PluginConfig) :
    enabledFrom index (p :: plugins) =
      (if p.enabled then [(p, index)] else []) ++ enabledFrom (index + 1) plugins := by
  unfold enabledFrom
  rw [List.zipIdx_cons, List.filter_cons]
  split <;> rfl

theorem enabledFrom_append (index : Nat) (plugins plugins' : List PluginConfig) :
    enabledFrom index (plugins ++ plugins') =
      enabledFrom index plugins ++ enabledFrom (index + plugins.length) plugins' := by
  unfold enabledFrom
  rw [List.zipIdx_append, List.filter_append]

theorem map_fst_enabledFrom (index : Nat) (plugins : List PluginConfig) :
    (enabledFrom index plugins).map Prod.fst = plugins.filter (·.enabled) := by
  induction plugins generalizing index with
  | nil => rfl
  | cons p plugins ih =>
    rw [enabledFrom_cons, List.map_append, ih, List.filter_cons]
    split <;> rfl

variable (backends names) in
/-- The backends of all these plugins are there. -/
def AllStart (cacheSizes : Nat → UInt32) (plugins : List (PluginConfig × Nat))
    (parts : List (Part W)) : Prop :=
  List.Forall₂ (fun x part => Starts backends names (cacheSizes x.2) x.1 part) plugins parts

variable (backends names) in
/-- A part for each enabled plugin, or the error of the first whose backend is not there. -/
def LoadsAs (cacheSizes : Nat → UInt32) (plugins : List (PluginConfig × Nat))
    (loaded : Loaded W) : Except Error (Loaded W) → Prop
  | .ok loaded' => ∃ parts, AllStart backends names cacheSizes plugins parts ∧
      loaded' = parts.foldl Loaded.add loaded
  | .error e => ∃ pre x post parts, plugins = pre ++ x :: post ∧
      AllStart backends names cacheSizes pre parts ∧
      Refuses backends x.2 (cacheSizes x.2) x.1 e

variable {cacheSizes : Nat → UInt32} {plugins : List PluginConfig}

theorem LoadsAs.cons {x : PluginConfig × Nat} {rest : List (PluginConfig × Nat)}
    {loaded : Loaded W} {part : Part W} {r : Except Error (Loaded W)}
    (hpart : Starts backends names (cacheSizes x.2) x.1 part)
    (h : LoadsAs backends names cacheSizes rest (loaded.add part) r) :
    LoadsAs backends names cacheSizes (x :: rest) loaded r := by
  cases r with
  | ok loaded' =>
    obtain ⟨parts, hparts, rfl⟩ := h
    exact ⟨part :: parts, .cons hpart hparts, rfl⟩
  | error e =>
    obtain ⟨pre, y, post, parts, rfl, hparts, hrefuses⟩ := h
    exact ⟨x :: pre, y, post, part :: parts, rfl, .cons hpart hparts, hrefuses⟩

theorem loadFrom_loads (hup : ForwardsOk plugins) (index : Nat) (loaded : Loaded W) :
    LoadsAs backends names cacheSizes (enabledFrom index plugins) loaded
      (loadFrom backends names cacheSizes index plugins loaded) := by
  induction plugins generalizing index loaded with
  | nil => exact ⟨[], .nil, rfl⟩
  | cons p plugins ih =>
    obtain ⟨hp, hrest⟩ := List.forall_mem_cons.mp hup
    unfold loadFrom
    rw [enabledFrom_cons]
    cases henabled : p.enabled with
    | false =>
      have hskip : loadPlugin backends names index (cacheSizes index) p loaded = .ok loaded := by
        unfold loadPlugin
        rw [henabled]
        rfl
      rw [hskip]
      exact ih hrest (index + 1) loaded
    | true =>
      rcases loadPlugin_enabled backends names index (cacheSizes index) loaded henabled
        (hp henabled) with ⟨part, hpart, hload⟩ | ⟨e, hrefuses, hload⟩
      · rw [hload]
        exact LoadsAs.cons hpart (ih hrest (index + 1) (loaded.add part))
      · rw [hload]
        exact ⟨[], (p, index), _, [], rfl, .nil, hrefuses⟩

theorem foldl_add (parts : List (Part W)) (loaded : Loaded W) :
    parts.foldl Loaded.add loaded =
      ⟨loaded.handlers ++ parts.map fun part => (part.name, part.plugin),
        loaded.watchers ++ parts.filterMap (·.watcher)⟩ := by
  induction parts generalizing loaded with
  | nil => simp
  | cons part parts ih =>
    rw [List.foldl_cons, ih]
    cases hw : part.watcher <;> simp [Loaded.add, hw]

/-- Only Nacos plugins have a watcher, under their zone. -/
theorem Starts.watcher_zone {cacheSize : UInt32} {p : PluginConfig} {part : Part W}
    (h : Starts backends names cacheSize p part) :
    part.watcher.map Prod.fst = if p.kind = .nacos then some p.dnsZoneText else none := by
  cases h with
  | nacos hkind => rw [if_pos hkind]; rfl
  | native hkind | forward hkind => rw [if_neg (by rw [hkind]; decide)]; rfl

theorem AllStart.zones {xs : List (PluginConfig × Nat)} {parts : List (Part W)}
    (h : AllStart backends names cacheSizes xs parts) :
    (parts.filterMap (·.watcher)).map Prod.fst =
      xs.filterMap fun x => if x.1.kind = .nacos then some x.1.dnsZoneText else none := by
  induction h with
  | nil => rfl
  | @cons x part xs parts hpart _ ih =>
    rw [List.filterMap_cons, List.filterMap_cons, ← hpart.watcher_zone]
    cases part.watcher with
    | none => exact ih
    | some y => exact congrArg (y.1 :: ·) ih

/-- A Nacos plugin has a Nacos handler. -/
theorem Starts.nacos_plugin {cacheSize : UInt32} {p : PluginConfig} {part : Part W}
    (h : Starts backends names cacheSize p part) (hkind : p.kind = .nacos) :
    ∃ catalog, part.plugin = .nacos (pluginAuthority names catalog p) := by
  cases h with
  | nacos => exact ⟨_, rfl⟩
  | native hnative => rw [hkind] at hnative; cases hnative
  | forward hforward => rw [hkind] at hforward; cases hforward

theorem AllStart.nacos {xs : List (PluginConfig × Nat)} {parts : List (Part W)}
    (h : AllStart backends names cacheSizes xs parts) (hxs : ∀ x ∈ xs, x.1.kind = .nacos) :
    ∀ part ∈ parts, ∃ a, part.plugin = .nacos a := by
  induction h with
  | nil => exact fun _ hpart => absurd hpart List.not_mem_nil
  | @cons x part xs parts hpart _ ih =>
    obtain ⟨hkind, hxs⟩ := List.forall_mem_cons.mp hxs
    obtain ⟨_, hplugin⟩ := hpart.nacos_plugin hkind
    exact List.forall_mem_cons.mpr ⟨⟨_, hplugin⟩, ih hxs⟩

end

/-! ## The signals -/

section
variable {W : Type}

/-- The signal of a zone. -/
def zoneSignal (w : W) (zone : Text) (x : Watching W) : Text × Json :=
  ("nacos.".toList ++ zone,
    .object [("subscribedServices".toList, .number (x.subscribedCount w))])

def xdpSignal (attached : Bool) : Text × Json :=
  ("xdp".toList, .object [("attached".toList, .bool attached)])

/-- One signal for each zone, and the fast path's. -/
def signals (watchers : List (Text × Watching W)) (attached : Bool) (w : W) :
    List (Text × Json) :=
  watchers.map (fun x => zoneSignal w x.1 x.2) ++ [xdpSignal attached]

end

/-! ## Starting -/

section
variable {W : Type} (backends : Backends W) (names : HickoryNames) (cacheSizes : Nat → UInt32)
  {host : Host} {config : DoggyDnsConfig}

theorem buildAuthorityChain_loads (h : validateConfig host config = .ok ())
    (hne : config.plugins ≠ []) :
    LoadsAs backends names cacheSizes (enabledFrom 0 config.plugins) {}
      (buildAuthorityChain backends names cacheSizes config) := by
  unfold buildAuthorityChain
  rw [if_neg (by simpa using hne)]
  exact loadFrom_loads (validateConfig_upstreams h) 0 {}

end

/-! ## A configuration with a zone in front of a resolver -/

/-- The built-in pattern is the only one these backends know. -/
def startBackends : Backends Unit where
  regex pattern :=
    if pattern = anchored none then .ok fun name => !name.isEmpty && name.all isZoneByte
    else .error "unsupported pattern"
  naming _ := .ok ⟨fun _ _ w => (.unknown, w), fun _ => []⟩
  systemResolver _ := .ok fun _ _ w => (.ok [], w)
  resolver _ _ := .ok fun _ _ w => (.ok [], w)

def startConfig : DoggyDnsConfig where
  plugins := [zonePlugin "nacos.local.", { kind := .forward, upstream := some ["9.9.9.9".toList] }]

theorem startConfig_accepted : validateConfig sampleHost startConfig = .ok () := by
  decide +kernel

theorem startConfig_builds : ∃ loaded,
    buildAuthorityChain startBackends plainNames (fun _ => 1024) startConfig = .ok loaded := by
  have hok : (buildAuthorityChain startBackends plainNames (fun _ => 1024) startConfig).isOk := by
    decide +kernel
  cases hbuilt : buildAuthorityChain startBackends plainNames (fun _ => 1024) startConfig with
  | error e => rw [hbuilt] at hok; cases hok
  | ok loaded => exact ⟨loaded, rfl⟩

section
variable {W : Type} {name : Name} {rtype : RecordType}

/-- Nobody behind an entry that never skips a name is asked for it. -/
theorem asked_le (pre post : List (NamedHandler W)) {entry : NamedHandler W}
    (h : ∀ w, (entry.handler.lookup name rtype w).1 ≠ .skip) (w : W) :
    (∀ q ∈ asked name rtype (pre ++ entry :: post) w, q.index ≤ pre.length) ∧
      (resolve name rtype (pre ++ entry :: post) w).1.outcome ≠ .skip := by
  have hresponder : ∃ pre' e post' w', pre ++ entry :: post = pre' ++ e :: post' ∧
      pre'.length ≤ pre.length ∧ skipAll name rtype pre' w = some w' ∧
      (e.handler.lookup name rtype w').1 ≠ .skip := by
    rcases exists_responder pre w with ⟨w', hskip⟩ | ⟨pre', e, post', w', rfl, hskip, he⟩
    · exact ⟨pre, entry, post, w', rfl, le_rfl, hskip, h w'⟩
    · refine ⟨pre', e, post' ++ entry :: post, w', List.append_assoc .., ?_, hskip, he⟩
      rw [List.length_append]
      exact Nat.le_add_right ..
  obtain ⟨pre', e, post', w', heq, hle, hskip, he⟩ := hresponder
  obtain ⟨soa, hsoa, -, hasked⟩ := resolve_logged_answer hskip he post'
  rw [heq, resolve_of_responder hskip he]
  exact ⟨fun q hq => (index_le_of_asked hsoa hasked hq).trans hle, he⟩

/-- The labels of the configured zone, in lower case. -/
def PluginConfig.zoneLabels (p : PluginConfig) : List Label :=
  (p.zone.splitOn '.').map fun part => utf8 (part.map Char.toLower)

/-- What hickory does not read as a zone is read as the root, which has all names in it. -/
theorem pluginAuthority_zoneOf {names : HickoryNames} (hn : names.Lawful) {p : PluginConfig}
    (hsome : p.dnsZone.isSome) (hz : ZoneOk p.zone)
    (catalog : List UInt8 → W → CatalogAnswer × W) (hname : p.zoneLabels <:+ name.labels) :
    (pluginAuthority names catalog p).origin.zoneOf name = true := by
  obtain ⟨dnsZone, hdns⟩ := Option.isSome_iff_exists.mp hsome
  have hzone : (stripSuffix '.' dnsZone).getD dnsZone = p.zone := by
    unfold PluginConfig.zone
    rw [hdns]
    rfl
  unfold pluginAuthority NacosAuthority.new Name.zoneOf
  dsimp only
  rw [hdns, Option.getD_some, hz.trimmed hzone, fromAscii_zone hn hz, List.isSuffixOf_iff_suffix]
  cases hread : nameOf (p.zone.splitOn '.') with
  | none => exact List.nil_suffix
  | some zone =>
    show zone.labels.map Label.lower <:+ _
    have hlower : zone.labels.map Label.lower = p.zoneLabels := by
      rw [(nameOf_eq_some.mp hread).2, List.map_map]
      exact List.map_congr_left fun part hp => (lower_utf8 (hz.ascii hp)).symm
    rw [hlower]
    exact hname

theorem forall₂_split {α β : Type} {R : α → β → Prop} {xs ys : List α} {y : α} {zs : List β}
    (h : List.Forall₂ R (xs ++ y :: ys) zs) :
    ∃ zs₁ z zs₂, zs = zs₁ ++ z :: zs₂ ∧ List.Forall₂ R xs zs₁ ∧ R y z := by
  induction xs generalizing zs with
  | nil =>
    obtain ⟨z, zs₂, hz, -, rfl⟩ := List.forall₂_cons_left_iff.mp h
    exact ⟨[], z, zs₂, rfl, .nil, hz⟩
  | cons x xs ih =>
    obtain ⟨z, zs, hz, hrest, rfl⟩ := List.forall₂_cons_left_iff.mp h
    obtain ⟨zs₁, z', zs₂, rfl, hxs, hy⟩ := ih hrest
    exact ⟨z :: zs₁, z', zs₂, rfl, .cons hz hxs, hy⟩

/-- With Nacos plugins in front of a Nacos plugin, there are only Nacos plugins up to it. -/
theorem getElem?_nacos {front : List (Plugin W)} {p : Plugin W}
    (hfront : ∀ x ∈ front, ∃ a, x = .nacos a) (hp : ∃ a, p = .nacos a) (back : List (Plugin W))
    {i : Nat} (hi : i ≤ front.length) : ∃ a, (front ++ p :: back)[i]? = some (.nacos a) := by
  rcases Nat.lt_or_eq_of_le hi with hlt | rfl
  · obtain ⟨a, ha⟩ := hfront _ (List.getElem_mem hlt)
    exact ⟨a, by rw [List.getElem?_append_left hlt, List.getElem?_eq_getElem hlt, ha]⟩
  · obtain ⟨a, rfl⟩ := hp
    exact ⟨a, by rw [List.getElem?_append_right le_rfl, Nat.sub_self]; rfl⟩

/-- The handler of an accepted Nacos plugin answers every name in its zone. -/
theorem Starts.answers_zone {backends : Backends W} {names : HickoryNames} (hn : names.Lawful)
    {cacheSize : UInt32} {p : PluginConfig} {part : Part W}
    (h : Starts backends names cacheSize p part) (hkind : p.kind = .nacos)
    (hsome : p.dnsZone.isSome) (hz : ZoneOk p.zone) (hname : p.zoneLabels <:+ name.labels)
    (w : W) : (part.plugin.handler.lookup name rtype w).1 ≠ .skip := by
  obtain ⟨catalog, hplugin⟩ := h.nacos_plugin hkind
  rw [hplugin, ne_eq, lookup_eq_skip_iff]
  intro hdeclines
  exact Bool.false_ne_true (hdeclines.symm.trans (pluginAuthority_zoneOf hn hsome hz _ hname))

variable (rtype) in
/-- **A name in a configured zone stays in front.** For every accepted configuration, from the
start on and whatever was served before, a name under the zone of an enabled Nacos plugin is
answered, and no plugin behind that one is asked for it. With only Nacos plugins in front of it, no
resolver is asked. -/
theorem zone_names_stay {hk : Hickory} {backends : Backends W} {names : HickoryNames}
    (hn : names.Lawful) {cacheSizes : Nat → UInt32} {host : Host} {config : DoggyDnsConfig}
    (haccepted : validateConfig host config = .ok ()) {loaded : Loaded W}
    (hbuilt : buildAuthorityChain backends names cacheSizes config = .ok loaded)
    {h₀ h : DoggyDnsHandler W} {ls : List (Exchange W)}
    (hfresh : h₀.authorityChain = loaded.chain) (hrun : Run (Serve hk) h₀ ls h)
    {pre post : List PluginConfig} {p : PluginConfig} (hplugins : config.plugins = pre ++ p :: post)
    (hp : p.isNacos = true) (hname : p.zoneLabels <:+ name.labels) (w : W) :
    (resolve name rtype h.authorityChain w).1.outcome ≠ .skip ∧
    ∀ q ∈ asked name rtype h.authorityChain w,
      q.index ≤ (pre.filter (·.enabled)).length ∧
      ((∀ p' ∈ pre, p'.enabled = true → p'.kind = .nacos) →
        ∃ a, (loaded.handlers.map Prod.snd)[q.index]? = some (.nacos a)) := by
  have hmem : p ∈ nacosPlugins config.plugins := by
    rw [hplugins]
    exact List.mem_filter.mpr ⟨List.mem_append_right _ List.mem_cons_self, hp⟩
  obtain ⟨henabled, hkind⟩ : p.enabled = true ∧ p.kind = .nacos := by
    simpa [PluginConfig.isNacos] using hp
  obtain ⟨hsome, hz⟩ := (validateConfig_ok haccepted).1 p hmem
  have hentries : List.Forall₂ EntryOf (loaded.handlers.map Prod.snd) h.authorityChain :=
    hrun.invariant (hfresh ▸ entryOf_new loaded.handlers) fun he hs => hs.entries he
  have hloads := buildAuthorityChain_loads backends names cacheSizes haccepted
    (by rw [hplugins]; simp)
  -- the plugin's place: first among the parts of the start, then in the chain as it is now
  rw [hbuilt, hplugins, enabledFrom_append, enabledFrom_cons, if_pos henabled] at hloads
  obtain ⟨parts, hparts, hloaded⟩ := hloads
  obtain ⟨parts₁, part, parts₂, rfl, hparts₁, hpart⟩ := forall₂_split hparts
  have hhandlers : loaded.handlers.map Prod.snd =
      parts₁.map Part.plugin ++ part.plugin :: parts₂.map Part.plugin := by
    rw [hloaded, foldl_add]
    simp [Function.comp_def]
  rw [hhandlers] at hentries ⊢
  obtain ⟨chain₁, entry, chain₂, hchain, hchain₁, hentry⟩ := forall₂_split hentries
  have hlength : chain₁.length = (pre.filter (·.enabled)).length := by
    rw [← hchain₁.length_eq, List.length_map, ← hparts₁.length_eq, ← map_fst_enabledFrom 0,
      List.length_map]
  have hanswers : ∀ w, (entry.handler.lookup name rtype w).1 ≠ .skip := by
    rw [hentry.handler]
    exact hpart.answers_zone hn hkind hsome hz hname
  rw [hchain]
  obtain ⟨hle, houtcome⟩ := asked_le chain₁ chain₂ hanswers w
  refine ⟨houtcome, fun q hq => ⟨hlength ▸ hle q hq, fun hpre => ?_⟩⟩
  have hnacos : ∀ x ∈ parts₁.map Part.plugin, ∃ a, x = .nacos a :=
    List.forall_mem_map.mpr (AllStart.nacos hparts₁ fun x hx => by
      have hmem : x.1 ∈ pre.filter (·.enabled) :=
        map_fst_enabledFrom 0 pre ▸ List.mem_map_of_mem hx
      exact hpre x.1 (List.mem_of_mem_filter hmem) (List.mem_filter.mp hmem).2)
  obtain ⟨_, hplugin⟩ := hpart.nacos_plugin hkind
  exact getElem?_nacos hnacos ⟨_, hplugin⟩ _ (hchain₁.length_eq ▸ hle q hq)

end

/-- The name of a service in the zone. -/
def startName : Name :=
  ⟨["web", "nacos", "local"].map fun part => utf8 part.toList, by decide +kernel,
    by decide +kernel⟩

theorem zone_names_stay_sample : ∃ loaded,
    buildAuthorityChain startBackends plainNames (fun _ => 1024) startConfig = .ok loaded ∧
      ∀ q ∈ asked startName RecordType.A loaded.chain (), q.index = 0 := by
  obtain ⟨loaded, hbuilt⟩ := startConfig_builds
  have hfresh : ({ emptyHandler with authorityChain := loaded.chain }).authorityChain =
      loaded.chain := rfl
  have hrun : Run (Serve .plain) { emptyHandler with authorityChain := loaded.chain } [] _ := .nil
  have hplugins : startConfig.plugins = [] ++ zonePlugin "nacos.local." :: _ := rfl
  have hname : (zonePlugin "nacos.local.").zoneLabels <:+ startName.labels := by decide +kernel
  obtain ⟨-, hasked⟩ := zone_names_stay RecordType.A plainNames_lawful startConfig_accepted hbuilt
    hfresh hrun hplugins (by decide) hname ()
  exact ⟨loaded, hbuilt, fun q hq => Nat.le_zero.mp (hasked q hq).1⟩

end DoggyDns
