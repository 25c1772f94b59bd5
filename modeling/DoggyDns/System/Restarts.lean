import DoggyDns.System.Coherence
import DoggyDns.Xdp.Manager

/-!
# Restarts

The cache map is pinned, so it outlives the process that created it, and the
next process goes on with its entries. The host is a machine of processes of
this and other builds, of the maps in its kernel and of the paths they are
pinned at; it may be rebooted, and pins may be removed by hand.

A path belongs to one layout version, so this build never reads what another
layout wrote, and a frame answered after a restart is justified by an insert of
whichever process put the entry there, under that process's configuration.

A start is a run of `XdpManager::new` and can fail in many places. What the
loader and the kernel let through is a parameter; `Kernel.Lawful` says what the
source relies on.
-/

namespace DoggyDns

open ReprC Ebpf Lts

/-- A cache map, with the history the model keeps of it: which build created it from which
configuration, and the inserts of this build, newest first. -/
structure KernelMap where
  shape : PinnedCacheShape
  entries : ByteMap
  version : Nat
  creator : XdpConfig
  log : List (XdpConfig × Insertion)

/-- A running server of layout `version`. -/
structure Process where
  version : Nat
  config : XdpConfig
  map : Nat
  pending : List Insertion
  /-- The interface its program is attached to. -/
  link : Option Text

structure Node where
  now : UInt64
  maps : List KernelMap
  pins : Text → Option Nat
  processes : Nat → Option Process
  /-- The interfaces that carry a program of somebody else. -/
  others : Text → Bool

/-- What the loader and the kernel let through. -/
structure Kernel where
  /-- A map of this shape is created and pinned at a path. -/
  creates : PinnedCacheShape → Text → Prop
  /-- A pinned map of this shape is taken where this capacity is declared. -/
  reuses : PinnedCacheShape → UInt32 → Prop
  /-- The interfaces that are there. -/
  interfaces : Text → Prop
  /-- A program is attached to an interface while `taken` carry one. -/
  attaches : (Text → Prop) → Text → Prop

/-- A map holds at least one entry, bpffs pins no name with a dot, the loader takes a map whose
capacity is the declared one, and an interface that is there carries one program. -/
structure Kernel.Lawful (K : Kernel) : Prop where
  creates : ∀ {shape path}, 0 < shape.maxEntries → "/sys/fs/bpf/".toList.isPrefixOf path = true →
    '.' ∉ path → K.creates shape path
  reuses : ∀ {shape}, K.reuses shape shape.maxEntries
  attaches : ∀ {taken interface},
    K.attaches taken interface ↔ K.interfaces interface ∧ ¬ taken interface

namespace Node

/-- A host that came up: bpffs is in memory. -/
def boot (now : UInt64) : Node := ⟨now, [], fun _ => none, fun _ => none, fun _ => false⟩

/-- The interfaces that carry a program. -/
def Attached (s : Node) (interface : Text) : Prop :=
  s.others interface = true ∨ ∃ pid p, s.processes pid = some p ∧ p.link = some interface

/-- The map a build creates. -/
def create (version : Nat) (config : XdpConfig) (shape : PinnedCacheShape) : KernelMap :=
  { shape, entries := fun _ => none, version, creator := config, log := [] }

/-- The shape of a new map: this build's eBPF program declares it, another build's may differ. -/
def Declares (version : Nat) (config : XdpConfig) (shape : PinnedCacheShape) : Prop :=
  shape.maxEntries = declaredCacheSize none config.cacheSize ∧
    (version = CACHE_FORMAT_VERSION → shape.isLruHash = true ∧
      shape.keySize = UInt32.ofNat (size Types.CacheKey.fields) ∧
      shape.valueSize = UInt32.ofNat (size Types.CacheValue.fields))

/-- The kernel answers a question about a map, or the call fails. -/
def Reported {α : Type} (value : α) (answer : Except Error α) : Prop :=
  answer = .ok value ∨ ∃ error, answer = .error error

/-- `XdpManager::new` is called for an enabled section that was accepted. -/
def Accepted (config : XdpConfig) : Prop :=
  config.enabled = true ∧ validateXdp config = .ok ()

/-- A start of this build, and what its calls answer on this host: about the map of shape `shape`
that the loader makes or, if it is `pinned`, takes, and about the interfaces. -/
structure Attempt (K : Kernel) (s : Node) (config : XdpConfig) (pinned : Bool)
    (shape : PinnedCacheShape) (calls : XdpCalls) : Prop where
  accepted : Accepted config
  fromPin : Reported shape.maxEntries calls.fromPin
  load : calls.load (XdpManager.declaredSize calls pinned config)
      (versionedPinPath config.pinPath) = .ok () →
    if pinned then K.reuses shape (XdpManager.declaredSize calls pinned config)
    else K.creates shape (versionedPinPath config.pinPath)
  shape : Reported shape calls.shape
  attach : ∀ interface, calls.attach interface = .ok () → K.attaches s.Attached interface

inductive Move where
  | tick
  | reboot
  | unpinned (path : Text)
  /-- Somebody else's program comes to an interface or leaves it. -/
  | other (interface : Text) (taken : Bool)
  /-- `XdpManager::new` came through. -/
  | started (pid version : Nat) (config : XdpConfig) (manager : XdpManager)
  /-- `XdpManager::new` failed. -/
  | failed (version : Nat) (config : XdpConfig) (error : Error)
  | exited (pid : Nat)
  | request (pid : Nat) (e : Insertion)
  | inserted (pid : Nat) (e : Insertion)
  | insertFailed (pid : Nat) (e : Insertion)
  /-- A process of another build writes an entry of its layout. -/
  | wrote (pid : Nat)
  | evicted (map : Nat) (key : List UInt8)
  /-- The program of a process handles a frame at time `t`. -/
  | frame (pid : Nat) (config : Option UInt16) (t : UInt64) (f : Frame) (action : XdpAction)
      (f' : Frame)

def setMap (s : Node) (id : Nat) (m : KernelMap) : Node := { s with maps := s.maps.set id m }

def setProcess (s : Node) (pid : Nat) (p : Process) : Node :=
  { s with processes := Function.update s.processes pid (some p) }

/-- The host with a new map, pinned. -/
def withMap (s : Node) (path : Text) (m : KernelMap) : Node :=
  { s with maps := s.maps ++ [m], pins := Function.update s.pins path (some s.maps.length) }

section
variable (hk : Hickory) (en : Endian) (K : Kernel)

/-- Starts of another build are not known to be runs of this one's `XdpManager::new`. -/
inductive Step : Node → Move → Node → Prop
  | tick {s : Node} (t : UInt64) (ht : s.now ≤ t) : Step s .tick { s with now := t }
  | reboot {s : Node} (t : UInt64) : Step s .reboot (boot t)
  | unpinned {s : Node} {path : Text} :
      Step s (.unpinned path) { s with pins := Function.update s.pins path none }
  | other {s : Node} {interface : Text} {taken : Bool} :
      Step s (.other interface taken) { s with others := Function.update s.others interface taken }
  | created {s : Node} {pid version : Nat} {config : XdpConfig} {shape : PinnedCacheShape}
      {calls : XdpCalls} {port : UInt16} {manager : XdpManager} (hpid : s.processes pid = none)
      (hfree : s.pins (pinPathAt version config.pinPath) = none)
      (hshape : Declares version config shape)
      (hcalls : version = CACHE_FORMAT_VERSION → Attempt K s config false shape calls)
      (hnew : version = CACHE_FORMAT_VERSION →
        XdpManager.new calls false config port = .ok manager) :
      Step s (.started pid version config manager)
        ((s.withMap (pinPathAt version config.pinPath) (create version config shape)).setProcess
          pid ⟨version, config, s.maps.length, [], manager.link⟩)
  | reused {s : Node} {pid version id : Nat} {config : XdpConfig} {m : KernelMap}
      {calls : XdpCalls} {port : UInt16} {manager : XdpManager} (hpid : s.processes pid = none)
      (hpin : s.pins (pinPathAt version config.pinPath) = some id) (hmap : s.maps[id]? = some m)
      (hcalls : version = CACHE_FORMAT_VERSION → Attempt K s config true m.shape calls)
      (hnew : version = CACHE_FORMAT_VERSION →
        XdpManager.new calls true config port = .ok manager) :
      Step s (.started pid version config manager)
        (s.setProcess pid ⟨version, config, id, [], manager.link⟩)
  -- the loader pins a map as soon as it made it, and may still fail at the next
  | failedCreated {s : Node} {version : Nat} {config : XdpConfig} {shape : PinnedCacheShape}
      {calls : XdpCalls} {port : UInt16} {error : Error}
      (hfree : s.pins (pinPathAt version config.pinPath) = none)
      (hshape : Declares version config shape)
      (hcalls : version = CACHE_FORMAT_VERSION → Attempt K s config false shape calls ∧
        K.creates shape (versionedPinPath config.pinPath) ∧ calls.elf.isEmpty = false ∧
        ∃ interface, resolveInterface calls.env calls.route config.interface = .ok interface)
      (hnew : version = CACHE_FORMAT_VERSION →
        XdpManager.new calls false config port = .error error) :
      Step s (.failed version config error)
        (s.withMap (pinPathAt version config.pinPath) (create version config shape))
  | failed {s : Node} {version : Nat} {config : XdpConfig} {shape : PinnedCacheShape}
      {calls : XdpCalls} {port : UInt16} {pinned : Bool} {error : Error}
      (hpinned : pinned = (s.pins (pinPathAt version config.pinPath)).isSome)
      (hmap : ∀ id, s.pins (pinPathAt version config.pinPath) = some id →
        (s.maps[id]?).map KernelMap.shape = some shape)
      (hcalls : version = CACHE_FORMAT_VERSION → Attempt K s config pinned shape calls ∧
        (pinned = false → ∃ error, XdpManager.loadElf calls false config = .error error))
      (hnew : version = CACHE_FORMAT_VERSION →
        XdpManager.new calls pinned config port = .error error) :
      Step s (.failed version config error) s
  | exited {s : Node} {pid : Nat} :
      Step s (.exited pid) { s with processes := Function.update s.processes pid none }
  | request {s : Node} {pid : Nat} {p : Process} {e : Insertion}
      (hp : s.processes pid = some p) (hours : p.version = CACHE_FORMAT_VERSION)
      (hgen : Genuine hk p.config.negativeTtl e) (ht : e.time = s.now) :
      Step s (.request pid e) (s.setProcess pid { p with pending := e :: p.pending })
  | inserted {s : Node} {pid : Nat} {p : Process} {m : KernelMap} {e : Insertion}
      {pre post : List Insertion} {entries : ByteMap} (hp : s.processes pid = some p)
      (hours : p.version = CACHE_FORMAT_VERSION) (hpending : p.pending = pre ++ e :: post)
      (hmap : s.maps[p.map]? = some m)
      (hinsert : ByteStep en m.entries (.insert e.key e.value) entries) :
      Step s (.inserted pid e)
        ((s.setMap p.map { m with entries, log := (p.config, e) :: m.log }).setProcess pid
          { p with pending := pre ++ post })
  | insertFailed {s : Node} {pid : Nat} {p : Process} {e : Insertion} {pre post : List Insertion}
      (hp : s.processes pid = some p) (hpending : p.pending = pre ++ e :: post) :
      Step s (.insertFailed pid e) (s.setProcess pid { p with pending := pre ++ post })
  | wrote {s : Node} {pid : Nat} {p : Process} {m : KernelMap} {entries : ByteMap}
      (hp : s.processes pid = some p) (hother : p.version ≠ CACHE_FORMAT_VERSION)
      (hmap : s.maps[p.map]? = some m) :
      Step s (.wrote pid) (s.setMap p.map { m with entries })
  | evicted {s : Node} {id : Nat} {m : KernelMap} {key : List UInt8} {entries : ByteMap}
      (hmap : s.maps[id]? = some m) (hevict : ByteStep en m.entries (.evict key) entries) :
      Step s (.evicted id key) (s.setMap id { m with entries })
  | frame {s : Node} {pid : Nat} {p : Process} {m : KernelMap} {env : XdpEnv UInt64}
      {stats stats' : Vector XdpStats 1} {f f' : Frame} {action : XdpAction}
      (hp : s.processes pid = some p) (hours : p.version = CACHE_FORMAT_VERSION)
      (hmap : s.maps[p.map]? = some m) (ht : s.now ≤ env.now)
      (hcache : ∀ k v, env.cache k = some v ↔ Finds en m.entries k v)
      (hrun : dnsXdp env stats f = .ok (action, stats', f')) :
      Step s (.frame pid env.config env.now f action f') { s with now := env.now }

/-! ## What every reachable host keeps -/

/-- A map this build created: it has the declared shape, and its entries are inserts of processes
configured with its path. -/
structure Ours (now : UInt64) (m : KernelMap) : Prop where
  shape : m.shape = ⟨true, (declaredCacheShape 0).keySize, (declaredCacheShape 0).valueSize,
    m.creator.cacheSize⟩
  backs : ∃ cache, Reads en m.entries cache ∧
    LogMap.Backs (fun w => w.2.key) (fun w => w.2.value) m.log cache
  genuine : ∀ w ∈ m.log, Genuine hk w.1.negativeTtl w.2 ∧ w.2.time ≤ now ∧
    w.1.pinPath = m.creator.pinPath

structure Sound (s : Node) : Prop where
  pinned : ∀ path id, s.pins path = some id →
    ∃ m, s.maps[id]? = some m ∧ path = pinPathAt m.version m.creator.pinPath
  running : ∀ pid p, s.processes pid = some p → ∃ m, s.maps[p.map]? = some m ∧
    m.version = p.version ∧ m.creator.pinPath = p.config.pinPath
  pending : ∀ pid p, s.processes pid = some p →
    ∀ e ∈ p.pending, Genuine hk p.config.negativeTtl e ∧ e.time ≤ s.now
  ours : ∀ (id : Nat) m, s.maps[id]? = some m → m.version = CACHE_FORMAT_VERSION →
    Ours hk en s.now m

end

section
variable {hk : Hickory} {en : Endian} {K : Kernel} {s s' : Node} {m : KernelMap}

theorem Ours.later {now t : UInt64} (h : Ours hk en now m) (ht : now ≤ t) : Ours hk en t m := by
  refine ⟨h.shape, h.backs, fun w hw => ?_⟩
  obtain ⟨hgen, htime, hpath⟩ := h.genuine w hw
  exact ⟨hgen, UInt64.le_trans htime ht, hpath⟩

theorem Ours.create {now : UInt64} {config : XdpConfig} {shape : PinnedCacheShape}
    (hshape : Declares CACHE_FORMAT_VERSION config shape) :
    Ours hk en now (create CACHE_FORMAT_VERSION config shape) := by
  obtain ⟨lru, key, value, entries⟩ := shape
  obtain ⟨hentries, hlayout⟩ := hshape
  obtain ⟨hlru, hkey, hvalue⟩ := hlayout rfl
  refine ⟨?_, ⟨fun _ => none, fun _ => rfl, fun _ _ h => nomatch h⟩, List.forall_mem_nil _⟩
  cases hlru
  cases hkey
  cases hvalue
  cases hentries
  rfl

theorem Ours.insert {now : UInt64} {config : XdpConfig} {e : Insertion} {entries : ByteMap}
    (h : Ours hk en now m) (hgen : Genuine hk config.negativeTtl e ∧ e.time ≤ now)
    (hpath : config.pinPath = m.creator.pinPath)
    (hinsert : ByteStep en m.entries (.insert e.key e.value) entries) :
    Ours hk en now { m with entries, log := (config, e) :: m.log } := by
  obtain ⟨cache, hreads, hbacks⟩ := h.backs
  refine ⟨h.shape, ⟨_, hreads.step hinsert, hbacks.insert (config, e)⟩, ?_⟩
  exact List.forall_mem_cons.mpr ⟨⟨hgen.1, hgen.2, hpath⟩, h.genuine⟩

theorem Ours.evict {now : UInt64} {key : List UInt8} {entries : ByteMap}
    (h : Ours hk en now m) (hevict : ByteStep en m.entries (.evict key) entries) :
    Ours hk en now { m with entries } := by
  obtain ⟨cache, hreads, hbacks⟩ := h.backs
  refine ⟨h.shape, ⟨_, hreads.step hevict, fun k v hv => ?_⟩, h.genuine⟩
  by_cases hkey : k.image en = key
  · have hnone : (MapMove.evict key).apply en cache k = none := if_pos hkey
    rw [hnone] at hv
    cases hv
  · have hkept : (MapMove.evict key).apply en cache k = cache k := if_neg hkey
    exact hbacks k v (hkept ▸ hv)

theorem Sound.boot (now : UInt64) : Sound hk en (boot now) where
  pinned _ _ h := by cases h
  running _ _ h := by cases h
  pending _ _ h := by cases h
  ours _ _ h := by cases h

theorem Sound.later {t : UInt64} (h : Sound hk en s) (ht : s.now ≤ t) :
    Sound hk en { s with now := t } where
  pinned := h.pinned
  running := h.running
  pending pid p hp e he := by
    obtain ⟨hgen, htime⟩ := h.pending pid p hp e he
    exact ⟨hgen, UInt64.le_trans htime ht⟩
  ours id m hm hv := (h.ours id m hm hv).later ht

theorem setProcess_self (s : Node) (pid : Nat) (p : Process) :
    (s.setProcess pid p).processes pid = some p :=
  Function.update_self ..

theorem processes_setProcess {pid pid' : Nat} {p p' : Process}
    (h : (s.setProcess pid p).processes pid' = some p') :
    p' = p ∨ s.processes pid' = some p' := by
  unfold setProcess at h
  by_cases hpid : pid' = pid
  · subst hpid
    simp only [Function.update_self, Option.some.injEq] at h
    exact .inl h.symm
  · simp only [Function.update_of_ne hpid] at h
    exact .inr h

theorem Sound.setProcess (h : Sound hk en s) (pid : Nat) {p : Process}
    (hrunning : ∃ m, s.maps[p.map]? = some m ∧ m.version = p.version ∧
      m.creator.pinPath = p.config.pinPath)
    (hpending : ∀ e ∈ p.pending, Genuine hk p.config.negativeTtl e ∧ e.time ≤ s.now) :
    Sound hk en (s.setProcess pid p) where
  pinned := h.pinned
  running pid' p' hp' := by
    rcases processes_setProcess hp' with rfl | hp'
    · exact hrunning
    · exact h.running pid' p' hp'
  pending pid' p' hp' := by
    rcases processes_setProcess hp' with rfl | hp'
    · exact hpending
    · exact h.pending pid' p' hp'
  ours := h.ours

theorem getElem?_setMap (s : Node) {id : Nat} (m' : KernelMap) (hm : s.maps[id]? = some m)
    (id' : Nat) :
    (s.setMap id m').maps[id']? = if id = id' then some m' else s.maps[id']? := by
  obtain ⟨hlt, -⟩ := List.getElem?_eq_some_iff.mp hm
  rw [setMap, List.getElem?_set, if_pos hlt]

/-- Whatever a map was before, one of the same origin may take its place. -/
theorem Sound.setMap (h : Sound hk en s) {id : Nat} {m' : KernelMap} (hm : s.maps[id]? = some m)
    (hversion : m'.version = m.version) (hcreator : m'.creator = m.creator)
    (hours : m.version = CACHE_FORMAT_VERSION → Ours hk en s.now m') :
    Sound hk en (s.setMap id m') where
  pinned path id' hpin := by
    obtain ⟨m'', hm'', hpath⟩ := h.pinned path id' hpin
    rw [getElem?_setMap s m' hm]
    split
    next heq =>
      subst heq
      cases hm.symm.trans hm''
      exact ⟨m', rfl, by rw [hversion, hcreator]; exact hpath⟩
    next => exact ⟨m'', hm'', hpath⟩
  running pid p hp := by
    obtain ⟨m'', hm'', hv, hpath⟩ := h.running pid p hp
    rw [getElem?_setMap s m' hm]
    split
    next heq =>
      subst heq
      cases hm.symm.trans hm''
      exact ⟨m', rfl, hversion.trans hv, by rw [hcreator]; exact hpath⟩
    next => exact ⟨m'', hm'', hv, hpath⟩
  pending := h.pending
  ours id' m'' hm'' hv := by
    rw [getElem?_setMap s m' hm] at hm''
    split at hm''
    next =>
      cases hm''
      exact hours (hversion ▸ hv)
    next => exact h.ours id' m'' hm'' hv

theorem pins_withMap {path path' : Text} {id : Nat} (h : (s.withMap path m).pins path' = some id) :
    (path' = path ∧ id = s.maps.length) ∨ s.pins path' = some id := by
  unfold withMap at h
  by_cases hpath : path' = path
  · subst hpath
    simp only [Function.update_self, Option.some.injEq] at h
    exact .inl ⟨rfl, h.symm⟩
  · simp only [Function.update_of_ne hpath] at h
    exact .inr h

theorem getElem?_withMap {path : Text} {id : Nat} {m' : KernelMap} (h : s.maps[id]? = some m') :
    (s.withMap path m).maps[id]? = some m' := by
  obtain ⟨hlt, -⟩ := List.getElem?_eq_some_iff.mp h
  rw [withMap, List.getElem?_append_left hlt, h]

theorem Sound.withMap (h : Sound hk en s) {version : Nat} {config : XdpConfig}
    {shape : PinnedCacheShape} (hshape : Declares version config shape) :
    Sound hk en (s.withMap (pinPathAt version config.pinPath) (create version config shape)) where
  pinned path id hpin := by
    rcases pins_withMap hpin with ⟨rfl, rfl⟩ | hpin
    · exact ⟨_, List.getElem?_concat_length, rfl⟩
    · obtain ⟨m, hm, hpath⟩ := h.pinned path id hpin
      exact ⟨m, getElem?_withMap hm, hpath⟩
  running pid p hp := by
    obtain ⟨m, hm, hv⟩ := h.running pid p hp
    exact ⟨m, getElem?_withMap hm, hv⟩
  pending := h.pending
  ours id m hm hv := by
    rcases Nat.lt_trichotomy id s.maps.length with hlt | rfl | hgt
    · rw [Node.withMap, List.getElem?_append_left hlt] at hm
      exact h.ours id m hm hv
    · rw [Node.withMap, List.getElem?_concat_length] at hm
      cases hm
      cases hv
      exact .create hshape
    · rw [Node.withMap, List.getElem?_eq_none (by simp; omega)] at hm
      cases hm

theorem Sound.step {move : Move} (h : Sound hk en s) (hs : Step hk en K s move s') :
    Sound hk en s' := by
  cases hs with
  | tick t ht => exact h.later ht
  | reboot t => exact .boot t
  | @unpinned path =>
    refine ⟨fun path' id hpin => ?_, h.running, h.pending, h.ours⟩
    by_cases hpath : path' = path
    · simp [hpath] at hpin
    · exact h.pinned path' id (by simpa [Function.update_of_ne hpath] using hpin)
  | @other interface taken => exact ⟨h.pinned, h.running, h.pending, h.ours⟩
  | created hpid hfree hshape =>
    exact (h.withMap hshape).setProcess _ ⟨_, List.getElem?_concat_length, rfl, rfl⟩
      (List.forall_mem_nil _)
  | @reused pid version id config m calls port manager hpid hpin hmap =>
    refine h.setProcess pid ⟨m, hmap, ?_⟩ (List.forall_mem_nil _)
    obtain ⟨m', hm', hpath⟩ := h.pinned _ id hpin
    cases hmap.symm.trans hm'
    -- the path tells both the version and the configured path
    obtain ⟨hversion, hbase⟩ := pinPathAt_inj hpath
    exact ⟨hversion.symm, hbase.symm⟩
  | failedCreated hfree hshape => exact h.withMap hshape
  | failed => exact h
  | @exited pid =>
    have hkept : ∀ pid' p, Function.update s.processes pid none pid' = some p →
        s.processes pid' = some p := by
      intro pid' p hp
      by_cases hpid : pid' = pid
      · simp [hpid] at hp
      · rwa [Function.update_of_ne hpid] at hp
    exact ⟨h.pinned, fun pid' p hp => h.running pid' p (hkept pid' p hp),
      fun pid' p hp => h.pending pid' p (hkept pid' p hp), h.ours⟩
  | @request pid p e hp hours hgen ht =>
    refine h.setProcess pid (h.running pid p hp) (List.forall_mem_cons.mpr ⟨⟨hgen, ?_⟩,
      h.pending pid p hp⟩)
    rw [ht]
    exact UInt64.le_refl _
  | @inserted pid p m e pre post entries hp hours hpending hmap hinsert =>
    obtain ⟨m', hm', hversion, hpath⟩ := h.running pid p hp
    cases hmap.symm.trans hm'
    have hall := h.pending pid p hp
    rw [hpending] at hall
    have hmapped : Sound hk en
        (s.setMap p.map { m with entries, log := (p.config, e) :: m.log }) :=
      h.setMap hmap rfl rfl fun hv =>
        (h.ours _ _ hmap hv).insert (hall e (by simp)) hpath.symm hinsert
    refine hmapped.setProcess pid ⟨_, (getElem?_setMap s _ hmap p.map).trans (if_pos rfl), hversion,
      hpath⟩ fun e' he' => hall e' ?_
    simp only [List.mem_append, List.mem_cons] at he' ⊢
    tauto
  | @insertFailed pid p e pre post hp hpending =>
    refine h.setProcess pid (h.running pid p hp) fun e' he' => h.pending pid p hp e' ?_
    rw [hpending]
    simp only [List.mem_append, List.mem_cons] at he' ⊢
    tauto
  | @wrote pid p m entries hp hother hmap =>
    obtain ⟨m', hm', hversion, -⟩ := h.running pid p hp
    cases hmap.symm.trans hm'
    exact h.setMap hmap rfl rfl fun hv => absurd (hversion ▸ hv) hother
  | evicted hmap hevict =>
    exact h.setMap hmap rfl rfl fun hv => (h.ours _ _ hmap hv).evict hevict
  | frame hp hours hmap ht => exact h.later ht

theorem run_sound {now : UInt64} {moves : List Move} (h : Run (Step hk en K) (boot now) moves s) :
    Sound hk en s :=
  h.invariant (.boot now) fun hi hs => hi.step hs

end

/-! ## Starting -/

/-- The section's interface can turn out to be this one. -/
def Resolves (config : XdpConfig) (interface : Text) : Prop :=
  ∃ env route, resolveInterface env route config.interface = .ok interface

/-- A path that was free gets an empty map of the configured capacity. -/
def StartsCold (before after : Node) (pid : Nat) (config : XdpConfig) (line : Provenance) : Prop :=
  before.pins (versionedPinPath config.pinPath) = none ∧
    (line = .cold config.cacheSize ∨ ∃ error, line = .unreadable error) ∧
    ∃ p m, after.processes pid = some p ∧ after.maps = before.maps ++ [m] ∧
      p.map = before.maps.length ∧ m.shape.maxEntries = config.cacheSize ∧
      m.entries = fun _ => none

/-- The log names the capacity of a reused map, if it is not the configured one. -/
def reuseLine (capacity configured : UInt32) : Provenance :=
  if capacity = configured then .reused capacity
  else .misfit s!"capacity {capacity} != configured {configured}" configured

/-- A pinned map is taken with its entries, and with the capacity its creator had configured. -/
def StartsWarm (before after : Node) (pid : Nat) (config : XdpConfig) (line : Provenance) : Prop :=
  ∃ p m, before.pins (versionedPinPath config.pinPath) = some p.map ∧
    after.processes pid = some p ∧ after.maps = before.maps ∧ before.maps[p.map]? = some m ∧
    m.version = CACHE_FORMAT_VERSION ∧ m.creator.pinPath = config.pinPath ∧
    (line = reuseLine m.creator.cacheSize config.cacheSize ∨ ∃ error, line = .unreadable error)

section
variable {hk : Hickory} {en : Endian} {K : Kernel} {s s' : Node} {pid : Nat} {config : XdpConfig}

theorem logCacheProvenance_cold {shape : PinnedCacheShape}
    {report : Except Error PinnedCacheShape} (hreport : Reported shape report)
    (configured : UInt32) :
    logCacheProvenance report configured false = .cold shape.maxEntries ∨
      ∃ error, logCacheProvenance report configured false = .unreadable error := by
  rcases hreport with rfl | ⟨error, rfl⟩
  · exact .inl rfl
  · exact .inr ⟨error, rfl⟩

theorem logCacheProvenance_warm {m : KernelMap} {now : UInt64} (hours : Ours hk en now m)
    {report : Except Error PinnedCacheShape} (hreport : Reported m.shape report)
    (configured : UInt32) :
    logCacheProvenance report configured true = reuseLine m.creator.cacheSize configured ∨
      ∃ error, logCacheProvenance report configured true = .unreadable error := by
  rcases hreport with rfl | ⟨error, rfl⟩
  · left
    have hmismatch : cacheShapeMismatch m.shape (declaredCacheShape configured) = _ :=
      hours.shape ▸ cacheShapeMismatch_of_layout m.creator.cacheSize configured
    have hcapacity : m.shape.maxEntries = m.creator.cacheSize := by rw [hours.shape]
    unfold logCacheProvenance reuseLine
    by_cases hsame : m.creator.cacheSize = configured
    · rw [if_pos hsame] at hmismatch
      rw [if_pos hsame]
      simp only [Bool.not_true, Bool.false_eq_true, if_false, hmismatch, hcapacity]
    · rw [if_neg hsame] at hmismatch
      rw [if_neg hsame]
      simp only [Bool.not_true, Bool.false_eq_true, if_false, hmismatch]
      rfl
  · exact .inr ⟨error, rfl⟩

theorem Sound.started (h : Sound hk en s) {manager : XdpManager}
    (hs : Step hk en K s (.started pid CACHE_FORMAT_VERSION config manager) s') :
    StartsCold s s' pid config manager.provenance ∨
      StartsWarm s s' pid config manager.provenance := by
  cases hs with
  | @created _ _ _ shape calls port _ hpid hfree hshape hcalls hnew =>
    have hcapacity : shape.maxEntries = config.cacheSize := hshape.1
    obtain ⟨-, hline, -⟩ := XdpManager.new_eq_ok (hnew rfl)
    refine .inl ⟨hfree, ?_, _, _, setProcess_self .., rfl, rfl, hcapacity, rfl⟩
    rw [hline, ← hcapacity]
    exact logCacheProvenance_cold (hcalls rfl).shape _
  | @reused _ _ id _ m calls port _ hpid hpin hmap hcalls hnew =>
    obtain ⟨m', hm', hpath⟩ := h.pinned _ id hpin
    cases hmap.symm.trans hm'
    obtain ⟨hversion, hbase⟩ := pinPathAt_inj hpath
    obtain ⟨-, hline, -⟩ := XdpManager.new_eq_ok (hnew rfl)
    refine .inr ⟨⟨_, config, id, [], manager.link⟩, m, hpin, setProcess_self .., rfl, hmap,
      hversion.symm, hbase.symm, ?_⟩
    rw [hline]
    exact logCacheProvenance_warm (h.ours id m hmap hversion.symm) (hcalls rfl).shape _

section
variable {env : Text → Option Text} {route : Except Error Text} {shape : PinnedCacheShape}
  {interface : Text} {pinned : Bool}

end

end
/-! ## Frames -/

/-- The program reads the cache under the frame's key only. -/
theorem dnsXdp_cache_congr {env : XdpEnv UInt64} {cache : CacheKey → Option CacheValue}
    {f : Frame} (h : ∀ q, parseQuery fnv1a env.config f = .ok (some q) →
      cache q.key = env.cache q.key) (stats : Vector XdpStats 1) :
    dnsXdp { env with cache } stats f = dnsXdp env stats f := by
  have htry : tryDnsXdp fnv1a { env with cache } f = tryDnsXdp fnv1a env f := by
    unfold tryDnsXdp
    dsimp only
    cases hq : parseQuery fnv1a env.config f with
    | error fault => rfl
    | ok parsed =>
      cases parsed with
      | none => rfl
      | some q =>
        have hlookup : lookupEntry { env with cache } q = lookupEntry env q := by
          unfold lookupEntry
          dsimp only
          rw [h q hq]
        simp only [bind, Except.bind, hlookup]
  show dnsXdpWith fnv1a _ stats f = dnsXdpWith fnv1a env stats f
  unfold dnsXdpWith
  rw [htry]

section
variable {hk : Hickory} {en : Endian} {now : UInt64} {m : KernelMap} {env : XdpEnv UInt64}
  {stats stats' : Vector XdpStats 1} {f f' : Frame}

/-- A frame answered from a map of this build is justified by the process that made the entry. -/
theorem Ours.justified (h : Ours hk en now m) (ht : now ≤ env.now)
    (hcache : ∀ k v, env.cache k = some v ↔ Finds en m.entries k v)
    (hrun : dnsXdp env stats f = .ok (.tx, stats', f')) :
    ∃ q writer e bytes msg, parseQuery fnv1a env.config f = .ok (some q) ∧
      (writer, e) ∈ m.log ∧ writer.pinPath = m.creator.pinPath ∧
      Justified hk writer.negativeTtl (m.log.map Prod.snd) q env.now f f' e bytes msg := by
  obtain ⟨cache, hreads, hbacks⟩ := h.backs
  obtain ⟨q, entry, n, g, hit, -⟩ := tx_shape hrun
  obtain ⟨hentry, -⟩ := lookupEntry_eq_ok hit.live
  obtain ⟨⟨writer, e⟩, hnew, hvalue⟩ :=
    hbacks q.key entry ((hreads.finds_iff _ _).mp ((hcache _ _).mp hentry))
  obtain ⟨hmem, hkey⟩ := LogMap.newest_mem hnew
  obtain ⟨hgen, htime, hpath⟩ := h.genuine _ hmem
  -- the machine whose only entry is this one answers alike
  let single : XdpEnv UInt64 :=
    { env with cache := Function.update (fun _ => none) e.key (some e.value) }
  have hsingle : Coherent hk writer.negativeTtl ⟨now, single.cache, [], [e], stats⟩ := by
    refine ⟨fun e' he' => ?_, LogMap.Backs.empty.insert e⟩
    cases List.mem_singleton.mp he'
    exact ⟨hgen, htime⟩
  have hsame : dnsXdp single stats f = .ok (.tx, stats', f') := by
    rw [dnsXdp_cache_congr (fun q' hq' => ?_), hrun]
    cases hit.parsed.symm.trans hq'
    rw [hentry, ← hvalue, ← hkey, Function.update_self]
  have hcache' : single.cache = Machine.cache ⟨now, single.cache, [], [e], stats⟩ := rfl
  obtain ⟨q', e', bytes, msg, hparsed, hj⟩ := hsingle.justified hcache' ht hsame
  cases hit.parsed.symm.trans hparsed
  have heq : e' = e := List.mem_singleton.mp (LogMap.newest_mem hj.newest).1
  subst heq
  refine ⟨q, writer, e', bytes, msg, hit.parsed, hmem, hpath, { hj with newest := ?_ }⟩
  rw [LogMap.newest, List.find?_map]
  exact congrArg (Option.map Prod.snd) hnew

end

end Node

section
variable {hk : Hickory} {en : Endian} {K : Kernel} {now : UInt64} {s : Node}

open Node

end

open Node

/-- The rules the source relies on, and no others, on a host with one interface. -/
def Kernel.linux : Kernel where
  creates shape path :=
    0 < shape.maxEntries ∧ "/sys/fs/bpf/".toList.isPrefixOf path = true ∧ '.' ∉ path
  reuses shape capacity := capacity = shape.maxEntries
  interfaces interface := interface = "eth0".toList
  attaches taken interface := interface = "eth0".toList ∧ ¬ taken interface

end DoggyDns
