import DoggyDns.Core.Reuseport
import Mathlib.Data.List.Forall2

/-!
# The listeners of a server

`build_server`: the UDP sockets, the TCP listener and the configured TLS and
HTTPS listeners, opened in this order. The server owns what is registered with
it, so an error on the way closes all of it.
-/

namespace DoggyDns

open Sockets ReprC

/-- The port and the switch of `TlsConfig` and `HttpsConfig`. -/
structure SecureListener where
  enabled : Bool
  port : UInt16
  deriving DecidableEq, Repr

/-- What `build_server` reads of a `ServerConfig`. -/
structure Listeners where
  listenAddr : Text
  port : UInt16
  reuseportListenNum : UInt16
  tls : Option SecureListener
  https : Option SecureListener
  deriving DecidableEq, Repr

/-! ## Opening -/

/-- `Server` dropped: its sockets are closed. -/
def dropServer : List Nat → Io Unit
  | [] => pure ()
  | fd :: fds => do
    let _ ← Prog.call (.close fd)
    dropServer fds

/-- Register a socket, newest first. -/
def registered (held : List Nat) (socket : Io (Except Error Nat)) : Fallible (List Nat) :=
    ExceptT.mk do
  match ← socket with
  | .ok fd => return .ok (fd :: held)
  | .error err =>
    dropServer held
    return .error err

def udpSockets (e : Endian) (addr : SocketAddr) : Nat → List Nat → Fallible (List Nat)
  | 0, held => pure held
  | n + 1, held => do
    let held ← registered held (bindUdp e addr)
    udpSockets e addr n held

/-- Read and parse the files, then build the TLS configuration; each step has its error. -/
def loadMaterials : List (String × Error) → Io (Except Error Unit)
  | [] => return .ok ()
  | (step, err) :: steps => do
    let ret ← Prog.call (.ask (.material step))
    if ret < 0 then return .error err
    loadMaterials steps

/-- `register_tls` and `register_https`, up to their texts. -/
def registerSecure (label : String) (steps : List (String × Error)) (e : Endian)
    (config : Listeners) (secure : SecureListener) : Io (Except Error Nat) := do
  match context s!"invalid {label} listen address" (socketAddr config.listenAddr secure.port) with
  | .error err => return .error err
  | .ok addr =>
    match ← loadMaterials steps with
    | .error err => return .error err
    | .ok () =>
      match ← bindTcp e addr with
      | .error err => return .error err
      | .ok fd => adopt (.registerListener fd) fd []

/-- The steps both listeners share. -/
def materialSteps (label : String) : List (String × Error) :=
  [("fs::read certificate", [s!"failed to read {label} certificate"]),
    ("fs::read private key", [s!"failed to read {label} private key"]),
    ("certs", [s!"failed to parse {label} certificate"]),
    ("private_key", [s!"failed to parse {label} private key"]),
    ("private_key found", ["no private key found"])]

def registerTls : Endian → Listeners → SecureListener → Io (Except Error Nat) :=
  registerSecure "TLS" (materialSteps "TLS" ++
    [("with_single_cert", ["failed to build TLS server config"])])

def registerHttps : Endian → Listeners → SecureListener → Io (Except Error Nat) :=
  registerSecure "HTTPS" (materialSteps "HTTPS" ++ [("with_single_cert", [])])

/-- A listener that is there only when it is configured and enabled. -/
def optional (held : List Nat) (register : SecureListener → Io (Except Error Nat)) :
    Option SecureListener → Fallible (List Nat)
  | some secure => if secure.enabled then registered held (register secure) else pure held
  | none => pure held

/-- The server's sockets, newest first. -/
def buildServer (e : Endian) (config : Listeners) : Fallible (List Nat) := do
  let addr ← ExceptT.mk (pure
    (context "invalid server listen address" (socketAddr config.listenAddr config.port)))
  let held ← udpSockets e addr config.reuseportListenNum.toNat []
  let held ← registered held (bindTcp e addr)
  let held ← optional held (registerTls e config) config.tls
  optional held (registerHttps e config) config.https

/-! ## What a server holds -/

/-- The sockets a configuration asks for. -/
abbrev Wanted := List (SocketAddr × Kind)

def wantedSecure (config : Listeners) : Option SecureListener → Except Error Wanted
  | some secure =>
    if secure.enabled then
      (socketAddr config.listenAddr secure.port).map fun addr => [(addr, .stream)]
    else .ok []
  | none => .ok []

/-- Newest first, as they are opened. -/
def Listeners.wanted (config : Listeners) : Except Error Wanted := do
  let addr ← socketAddr config.listenAddr config.port
  let tls ← wantedSecure config config.tls
  let https ← wantedSecure config config.https
  return https ++ (tls ++ (addr, .stream) ::
    List.replicate config.reuseportListenNum.toNat (addr, .dgram))

/-- `row` is `ρ` with one socket for each wanted one, at the descriptors `fds`. -/
inductive Holding (ρ : Row SocketAddr) : Wanted → List Nat → Row SocketAddr → Prop where
  | nil : Holding ρ [] [] ρ
  | cons {wanted : Wanted} {fds : List Nat} {row : Row SocketAddr} {fd : Nat} {addr : SocketAddr}
    {kind : Kind} {s : Socket SocketAddr} : Holding ρ wanted fds row → row fd = none →
    Ready addr kind s →
    Holding ρ ((addr, kind) :: wanted) (fd :: fds) (Function.update row fd (some s))

/-- All or nothing: an error leaves the descriptors as they were. -/
def AllOrNone (ρ : Row SocketAddr) (P : List Nat → Row SocketAddr → Prop) :
    Except Error (List Nat) → Row SocketAddr → Prop
  | .error _, row => row = ρ
  | .ok fds, row => P fds row

section
variable {S : Site} {ρ row : Row SocketAddr} {wanted : Wanted} {fds : List Nat}
  {addr : SocketAddr} {kind : Kind}

theorem dropServer_wp (h : Holding ρ wanted fds row) :
    (dropServer fds).wp S.net Armed (fun _ row => row = ρ) row := by
  induction h with
  | nil => exact rfl
  | cons _ hnew _ ih =>
    refine Prog.wp_close trivial fun _ => ?_
    rwa [update_closed hnew]

theorem registered_wp {socket : Io (Except Error Nat)} {P : Socket SocketAddr → Prop}
    (h : Holding ρ wanted fds row) (hsocket : socket.wp S.net Armed (Opened row P) row) :
    (registered fds socket).run.wp S.net Armed
      (AllOrNone ρ fun fds' row' => ∃ fd s, row fd = none ∧ P s ∧ fds' = fd :: fds ∧
        row' = Function.update row fd (some s)) row := by
  refine Prog.wp_bind.mpr (Prog.wp_mono (fun _ _ h => h) ?_ hsocket)
  intro r row' hr
  cases r with
  | error e =>
    obtain rfl := hr
    refine Prog.wp_bind.mpr (Prog.wp_mono (fun _ _ h => h) ?_ (dropServer_wp h))
    intro _ row h
    exact h
  | ok fd =>
    obtain ⟨hnew, s, rfl, hready⟩ := hr
    exact ⟨fd, s, hnew, hready, rfl, rfl⟩

/-- A socket more, or none at all. -/
theorem registered_ready_wp {socket : Io (Except Error Nat)} (h : Holding ρ wanted fds row)
    (hsocket : socket.wp S.net Armed (Opened row (Ready addr kind)) row) :
    (registered fds socket).run.wp S.net Armed
      (AllOrNone ρ (Holding ρ ((addr, kind) :: wanted))) row := by
  refine Prog.wp_mono (fun _ _ h => h) ?_ (registered_wp h hsocket)
  intro r row' hr
  cases r with
  | error e => exact hr
  | ok fds =>
    obtain ⟨fd, s, hnew, hready, rfl, rfl⟩ := hr
    exact .cons h hnew hready

theorem udpSockets_wp (n : Nat) (h : Holding ρ wanted fds row) :
    (udpSockets S.endian addr n fds).run.wp S.net Armed
      (AllOrNone ρ (Holding ρ (List.replicate n (addr, .dgram) ++ wanted))) row := by
  induction n generalizing wanted fds row with
  | zero => exact h
  | succ n ih =>
    refine wp_seq.mpr (Prog.wp_mono (fun _ _ h => h) ?_ (registered_ready_wp h bindUdp_wp))
    intro r row hr
    cases r with
    | error e => exact hr
    | ok fds =>
      rw [List.replicate_succ', List.append_assoc, List.singleton_append]
      exact ih hr

theorem loadMaterials_wp (steps : List (String × Error)) :
    (loadMaterials steps).wp S.net Armed (fun _ row' => row' = row) row := by
  induction steps with
  | nil => exact rfl
  | cons step steps ih =>
    refine Prog.wp_ask trivial fun r => ?_
    split
    · exact rfl
    · exact ih

theorem registerSecure_wp {label : String} {steps : List (String × Error)} {config : Listeners}
    {secure : SecureListener} :
    (registerSecure label steps S.endian config secure).wp S.net Armed
      (Opened ρ fun s => ∃ addr, socketAddr config.listenAddr secure.port = .ok addr ∧
        Ready addr .stream s) ρ := by
  unfold registerSecure
  cases haddr : socketAddr config.listenAddr secure.port with
  | error e => exact rfl
  | ok addr =>
    refine Prog.wp_bind.mpr (Prog.wp_mono (fun _ _ h => h) ?_ (loadMaterials_wp steps))
    rintro r row rfl
    cases r with
    | error e => exact rfl
    | ok _ =>
      refine Prog.wp_bind.mpr (Prog.wp_mono (fun _ _ h => h) ?_ bindTcp_wp)
      intro r row hr
      cases r with
      | error e => exact hr
      | ok fd =>
        obtain ⟨hnew, s, hrow, hready⟩ := hr
        exact adopt_wp ⟨hnew, s, hrow, addr, rfl, hready⟩

/-- One listener more where one is wanted. -/
theorem optional_wp {register : SecureListener → Io (Except Error Nat)} {config : Listeners}
    (hregister : ∀ secure row, (register secure).wp S.net Armed
      (Opened row fun s => ∃ addr, socketAddr config.listenAddr secure.port = .ok addr ∧
        Ready addr .stream s) row)
    (secure : Option SecureListener) (h : Holding ρ wanted fds row) :
    (optional fds register secure).run.wp S.net Armed
      (AllOrNone ρ fun fds row => ∃ more, wantedSecure config secure = .ok more ∧
        Holding ρ (more ++ wanted) fds row) row := by
  cases secure with
  | none => exact ⟨[], rfl, h⟩
  | some secure =>
    by_cases hon : secure.enabled = true
    · simp only [optional, wantedSecure, if_pos hon]
      refine Prog.wp_mono (fun _ _ h => h) ?_ (registered_wp h (hregister secure row))
      intro r row' hr
      cases r with
      | error e => exact hr
      | ok fds =>
        obtain ⟨fd, s, hnew, ⟨addr, haddr, hready⟩, rfl, rfl⟩ := hr
        exact ⟨[(addr, .stream)], by rw [haddr]; rfl, .cons h hnew hready⟩
    · simp only [optional, wantedSecure, if_neg hon]
      exact ⟨[], rfl, h⟩

/-- A server is built with every socket its configuration asks for, or leaves none. -/
theorem buildServer_wp {config : Listeners} :
    (buildServer S.endian config).run.wp S.net Armed
      (AllOrNone ρ fun fds row => ∃ wanted, config.wanted = .ok wanted ∧
        Holding ρ wanted fds row) ρ := by
  unfold buildServer
  refine wp_seq.mpr ?_
  cases haddr : socketAddr config.listenAddr config.port with
  | error e => exact rfl
  | ok addr =>
    refine wp_seq.mpr (Prog.wp_mono (fun _ _ h => h) ?_ (udpSockets_wp _ .nil))
    intro r row hr
    rcases r with e | fds
    · exact hr
    refine wp_seq.mpr (Prog.wp_mono (fun _ _ h => h) ?_ (registered_ready_wp hr bindTcp_wp))
    intro r row hr
    rcases r with e | fds
    · exact hr
    refine wp_seq.mpr (Prog.wp_mono (fun _ _ h => h) ?_
      (optional_wp (fun _ _ => registerSecure_wp) config.tls hr))
    intro r row hr
    rcases r with e | fds
    · exact hr
    obtain ⟨tls, htls, hr⟩ := hr
    refine Prog.wp_mono (fun _ _ h => h) ?_
      (optional_wp (fun _ _ => registerSecure_wp) config.https hr)
    intro r row hr
    rcases r with e | fds
    · exact hr
    obtain ⟨https, hhttps, hr⟩ := hr
    refine ⟨_, ?_, hr⟩
    unfold Listeners.wanted
    rw [haddr, htls, hhttps, List.append_nil]
    rfl

/-! ## Reading the descriptors off -/

theorem Holding.fresh (h : Holding ρ wanted fds row) {fd : Nat} (hfd : row fd = none) :
    fd ∉ fds ∧ ρ fd = none := by
  induction h with
  | nil => exact ⟨List.not_mem_nil, hfd⟩
  | @cons wanted fds row fd' _ _ s _ _ _ ih =>
    by_cases heq : fd = fd'
    · subst heq
      rw [Function.update_self] at hfd
      cases hfd
    · rw [Function.update_of_ne heq] at hfd
      obtain ⟨hmem, hρ⟩ := ih hfd
      exact ⟨List.not_mem_cons_of_ne_of_not_mem heq hmem, hρ⟩

theorem Holding.nodup (h : Holding ρ wanted fds row) : fds.Nodup := by
  induction h with
  | nil => exact List.nodup_nil
  | cons h hnew _ ih => exact List.nodup_cons.mpr ⟨(h.fresh hnew).1, ih⟩

/-- A descriptor is one of the server's, with a socket that was wanted, or as it was before. -/
theorem Holding.entry (h : Holding ρ wanted fds row) {fd : Nat} {s : Socket SocketAddr}
    (hs : row fd = some s) :
    (fd ∈ fds ∧ ∃ addr kind, (addr, kind) ∈ wanted ∧ Ready addr kind s) ∨
      (fd ∉ fds ∧ ρ fd = some s) := by
  induction h with
  | nil => exact .inr ⟨List.not_mem_nil, hs⟩
  | @cons wanted fds row fd' addr kind s' _ _ hready ih =>
    by_cases heq : fd = fd'
    · subst heq
      rw [Function.update_self] at hs
      cases hs
      exact .inl ⟨List.mem_cons_self, addr, kind, List.mem_cons_self, hready⟩
    · rw [Function.update_of_ne heq] at hs
      rcases ih hs with ⟨hmem, addr, kind, hw, hready⟩ | ⟨hmem, hρ⟩
      · exact .inl ⟨List.mem_cons_of_mem _ hmem, addr, kind, List.mem_cons_of_mem _ hw, hready⟩
      · exact .inr ⟨List.not_mem_cons_of_ne_of_not_mem heq hmem, hρ⟩

theorem Holding.forall₂ (h : Holding ρ wanted fds row) :
    List.Forall₂ (fun w fd => ∃ s, row fd = some s ∧ Ready w.1 w.2 s) wanted fds := by
  induction h with
  | nil => exact .nil
  | @cons wanted fds row fd' addr kind s' h hnew hready ih =>
    refine .cons ⟨s', Function.update_self .., hready⟩ (List.Forall₂.imp ?_ ih)
    rintro w fd ⟨s, hs, hw⟩
    refine ⟨s, ?_, hw⟩
    have hne : fd ≠ fd' := by
      rintro rfl
      cases hnew.symm.trans hs
    rwa [Function.update_of_ne hne]

/-! ## A server that comes up -/

/-- There is always a descriptor left. -/
def Room (ρ : Row SocketAddr) : Prop := ∀ n, ∃ fd, n ≤ fd ∧ ρ fd = none

theorem room_empty : Room fun _ => none := fun n => ⟨n, Nat.le_refl n, rfl⟩

theorem Holding.room (h : Holding ρ wanted fds row) (hroom : Room ρ) : Room row := by
  induction h with
  | nil => exact hroom
  | @cons wanted fds row fd' _ _ s _ _ _ ih =>
    intro n
    obtain ⟨fd, hle, hnone⟩ := ih (max n (fd' + 1))
    refine ⟨fd, (Nat.le_max_left _ _).trans hle, ?_⟩
    have hlt : fd' < fd := (Nat.le_max_right n (fd' + 1)).trans hle
    rwa [Function.update_of_ne (Nat.ne_of_gt hlt)]

section
variable {p : Nat} {k : Kernel SocketAddr} {a : SocketAddr}

/-- The server's own sockets keep nobody of its user out. -/
theorem Holding.welcome (h : Holding ρ wanted fds row)
    (hwelcome : Welcome S.net p (Function.update k p ρ) kind a) :
    Welcome S.net p (Function.update k p row) kind a := by
  induction h with
  | nil => exact hwelcome
  | cons _ _ hready ih => exact welcome_update ih (.inr hready.reusePort)

theorem registered_can {socket : Io (Except Error Nat)} {fd : Nat} {row' : Row SocketAddr}
    (h : Can S.net p k socket row (.ok fd) row') :
    Can S.net p k (registered fds socket).run row (.ok (fd :: fds)) row' :=
  Can.bind h .ret

theorem udpSockets_can (n : Nat) (h : Holding ρ wanted fds row) (hroom : Room ρ)
    (hwelcome : Welcome S.net p (Function.update k p ρ) .dgram { addr with scopeId := 0 }) :
    ∃ fds' row', Can S.net p k (udpSockets S.endian addr n fds).run row (.ok fds') row' ∧
      Holding ρ (List.replicate n (addr, .dgram) ++ wanted) fds' row' := by
  induction n generalizing wanted fds row with
  | zero => exact ⟨fds, row, .ret, h⟩
  | succ n ih =>
    obtain ⟨fd, -, hfd⟩ := h.room hroom 0
    have hopened : Holding ρ ((addr, .dgram) :: wanted) (fd :: fds) _ :=
      .cons h hfd readySocket_ready
    obtain ⟨fds', row', hcan, hheld⟩ := ih hopened
    rw [List.replicate_succ', List.append_assoc, List.singleton_append]
    exact ⟨fds', row', can_seq (registered_can (bindUdp_can hfd (h.welcome hwelcome))) hcan, hheld⟩

theorem loadMaterials_can (steps : List (String × Error)) :
    Can S.net p k (loadMaterials steps) row (.ok ()) row := by
  induction steps with
  | nil => exact .ret
  | cons step steps ih =>
    have hrow : RowExec S.net row (.ask (Ask.material step.1)) 0 row := .ask
    exact Can.quiet trivial hrow ih

theorem registerSecure_can {label : String} {steps : List (String × Error)} {config : Listeners}
    {secure : SecureListener} {fd : Nat}
    (haddr : socketAddr config.listenAddr secure.port = .ok addr) (hfd : row fd = none)
    (hwelcome : Welcome S.net p (Function.update k p row) .stream { addr with scopeId := 0 }) :
    Can S.net p k (registerSecure label steps S.endian config secure) row (.ok fd)
      (Function.update row fd (some (readySocket addr .stream))) := by
  unfold registerSecure
  rw [haddr]
  exact Can.bind (loadMaterials_can steps) (Can.bind (bindTcp_can hfd hwelcome) adopt_can)

theorem optional_can (register : SecureListener → Io (Except Error Nat)) {config : Listeners}
    {more : Wanted} (secure : Option SecureListener) (h : Holding ρ wanted fds row)
    (hroom : Room ρ) (hmore : wantedSecure config secure = .ok more)
    (hwelcome : ∀ w ∈ more,
      Welcome S.net p (Function.update k p ρ) w.2 { w.1 with scopeId := 0 })
    (hregister : ∀ secure addr fd row, socketAddr config.listenAddr secure.port = .ok addr →
      row fd = none →
      Welcome S.net p (Function.update k p row) .stream { addr with scopeId := 0 } →
      Can S.net p k (register secure) row (.ok fd)
        (Function.update row fd (some (readySocket addr .stream)))) :
    ∃ fds' row', Can S.net p k (optional fds register secure).run row (.ok fds') row' ∧
      Holding ρ (more ++ wanted) fds' row' := by
  cases secure with
  | none =>
    cases hmore
    exact ⟨fds, row, .ret, h⟩
  | some secure =>
    by_cases hon : secure.enabled = true
    · simp only [optional, if_pos hon]
      simp only [wantedSecure, if_pos hon] at hmore
      cases haddr : socketAddr config.listenAddr secure.port with
      | error e =>
        rw [haddr] at hmore
        cases hmore
      | ok addr =>
        rw [haddr] at hmore
        cases hmore
        obtain ⟨fd, -, hfd⟩ := h.room hroom 0
        have hstream := h.welcome (hwelcome (addr, .stream) List.mem_cons_self)
        exact ⟨_, _, registered_can (hregister secure addr fd row haddr hfd hstream),
          .cons h hfd readySocket_ready⟩
    · simp only [optional, if_neg hon]
      simp only [wantedSecure, if_neg hon] at hmore
      cases hmore
      exact ⟨fds, row, .ret, h⟩

/-- Where everybody who has a part of the wanted addresses shares them, a server can come up. -/
theorem buildServer_can {config : Listeners} (hwanted : config.wanted = .ok wanted)
    (hroom : Room ρ)
    (hwelcome : ∀ w ∈ wanted,
      Welcome S.net p (Function.update k p ρ) w.2 { w.1 with scopeId := 0 }) :
    ∃ fds row, Can S.net p k (buildServer S.endian config).run ρ (.ok fds) row ∧
      Holding ρ wanted fds row := by
  unfold Listeners.wanted at hwanted
  cases haddr : socketAddr config.listenAddr config.port with
  | error e => rw [haddr] at hwanted; cases hwanted
  | ok addr =>
  cases htls : wantedSecure config config.tls with
  | error e => rw [haddr, htls] at hwanted; cases hwanted
  | ok tls =>
  cases hhttps : wantedSecure config config.https with
  | error e => rw [haddr, htls, hhttps] at hwanted; cases hwanted
  | ok https =>
  rw [haddr, htls, hhttps] at hwanted
  cases hwanted
  obtain ⟨hwhttps, hwelcome⟩ := List.forall_mem_append.mp hwelcome
  obtain ⟨hwtls, hwelcome⟩ := List.forall_mem_append.mp hwelcome
  obtain ⟨hwtcp, hwudp⟩ := List.forall_mem_cons.mp hwelcome
  -- without UDP sockets nobody has to welcome them
  obtain ⟨fds₁, row₁, hcan₁, hheld₁⟩ : ∃ fds' row',
      Can S.net p k (udpSockets S.endian addr config.reuseportListenNum.toNat []).run ρ (.ok fds')
        row' ∧ Holding ρ (List.replicate config.reuseportListenNum.toNat (addr, .dgram)) fds'
        row' := by
    cases hn : config.reuseportListenNum.toNat with
    | zero => exact ⟨[], ρ, .ret, .nil⟩
    | succ n =>
      have hudp := hwudp (addr, .dgram) (by rw [hn]; exact List.mem_cons_self)
      have hcan := udpSockets_can (S := S) (k := k) (n + 1) .nil hroom hudp
      rwa [List.append_nil] at hcan
  obtain ⟨fd, -, hfd⟩ := hheld₁.room hroom 0
  have hready : Ready addr .stream (readySocket addr .stream) := readySocket_ready
  have hheld₂ := hheld₁.cons hfd hready
  obtain ⟨fds₃, row₃, hcan₃, hheld₃⟩ := optional_can (registerTls S.endian config) config.tls
    hheld₂ hroom htls hwtls fun _ _ _ _ => registerSecure_can
  obtain ⟨fds₄, row₄, hcan₄, hheld₄⟩ := optional_can (registerHttps S.endian config)
    config.https hheld₃ hroom hhttps hwhttps fun _ _ _ _ => registerSecure_can
  refine ⟨fds₄, row₄, ?_, hheld₄⟩
  unfold buildServer
  rw [haddr]
  exact can_seq .ret (can_seq hcan₁ (can_seq (registered_can (bindTcp_can hfd
    (hheld₁.welcome hwtcp))) (can_seq hcan₃ hcan₄)))

end

end

end DoggyDns
