import DoggyDns.Basic.Validate
import DoggyDns.Core.Server

/-!
# Restarts that overlap

Any number of servers on one host, with other processes around them: each
opens its DNS sockets, then its control plane waits for the control port. The
DNS sockets of servers of one user never stand in each other's way, so a
successor comes up while its predecessor still serves. The control port has
one holder at a time, and a successor gets it once it is free.
-/

namespace DoggyDns

open Sockets ReprC Lts

/-! ## The control port -/

/-- A socket on its way to the control port, or there: outside of the group. -/
structure Exclusive (addr : SocketAddr) (s : Socket SocketAddr) : Prop where
  kind : s.kind = .stream
  reusePort : s.reusePort = false
  bound : ∀ a, s.addr = some a → Resolves addr a

/-- The listener of the control plane. -/
structure ControlSocket (addr : SocketAddr) (s : Socket SocketAddr) : Prop extends
    Exclusive addr s where
  isBound : s.addr ≠ none
  listens : s.backlog ≠ none

/-- The server's DNS sockets, and at most one more. -/
def Beside (addr : SocketAddr) (dns row : Row SocketAddr) : Prop :=
  row = dns ∨ ∃ fd s, dns fd = none ∧ row = Function.update dns fd (some s) ∧ Exclusive addr s

/-- The calls of `TcpListener::bind`, which is tokio's and not part of the repository. -/
abbrev TcpBind := SocketAddr → Io (Except Error Nat)

/-- What `reuseport.rs` records of mio: it never asks for `SO_REUSEPORT`. All along there is at
most one descriptor more, an error leaves none, and what comes through is a listener. -/
def TcpBind.Exclusive (S : Site) (bind : TcpBind) : Prop :=
  ∀ addr dns, (bind addr).wp S.net (fun row _ => Beside addr dns row)
    (Opened dns (ControlSocket addr)) dns

/-- It can come through where a descriptor is left and nobody has a part of the address. -/
def TcpBind.Available (S : Site) (bind : TcpBind) : Prop :=
  ∀ addr dns p (k : Kernel SocketAddr), (∃ fd, dns fd = none) →
    (∀ q fd t b, Function.update k p dns q fd = some t → t.kind = .stream → t.addr = some b →
      ¬ S.overlap { addr with scopeId := 0 } b) →
    ∃ fd row, Can S.net p k (bind addr) dns (.ok fd) row

section
variable {addr : SocketAddr} {dns : Row SocketAddr}

theorem Beside.entry {row : Row SocketAddr} {fd : Nat} {sock : Socket SocketAddr}
    (h : Beside addr dns row) (hsock : row fd = some sock) :
    dns fd = some sock ∨ Exclusive addr sock := by
  rcases h with rfl | ⟨fd', sock', -, rfl, hexclusive⟩
  · exact .inl hsock
  · rcases eq_or_of_update hsock with ⟨-, hnew⟩ | hold
    · cases hnew
      exact .inr hexclusive
    · exact .inl hold

end

/-! ## The machine -/

namespace Overlap

structure Deployed where
  listeners : Listeners
  control : ControlConfig

/-- Where a server is: `build_server`, then the task of `start_retrying`. -/
inductive Phase where
  | starting (prog : Io (Except Error (List Nat)))
  | failed (err : Error)
  | attempting (prog : Io (Except Error Nat))
  /-- The control port is held; the bind is retried. -/
  | waiting
  | serving (fd : Nat)
  /-- Without a control plane. -/
  | dark

structure Server where
  config : Deployed
  phase : Phase
  /-- The control plane's token. -/
  cancelled : Bool := false

structure State where
  kernel : Kernel SocketAddr
  servers : Nat → Option Server

def boot : State := ⟨fun _ _ => none, fun _ => none⟩

def Deployed.controlAddr (config : Deployed) : Except Error SocketAddr :=
  socketAddr config.control.listenAddr config.control.port

/-- An attempt at the control port, as far as it is. -/
def attempt : Io (Except Error Nat) → Phase
  | .ret (.ok fd) => .serving fd
  | .ret (.error _) => .waiting
  | .sys c next => .attempting (.sys c next)

/-- `start_control_plane`: an unusable address leaves the server with DNS only. -/
def Deployed.startControlPlane (bind : TcpBind) (config : Deployed) : Phase :=
  if config.control.enabled then
    match config.controlAddr with
    | .ok addr => attempt (bind addr)
    | .error _ => .dark
  else .dark

/-- What a program's result leads to. -/
def Deployed.settle (bind : TcpBind) (config : Deployed) : Phase → Phase
  | .starting (.ret (.ok _)) => config.startControlPlane bind
  | .starting (.ret (.error err)) => .failed err
  | .attempting prog => attempt prog
  | phase => phase

inductive Move where
  | start (pid : Nat) (config : Deployed)
  | call (pid : Nat) (c : Sys Ask) (r : Int)
  | retry (pid : Nat)
  | cancel (pid : Nat)
  | stop (pid : Nat)
  | exit (pid : Nat)
  /-- A call of a process that is no server. -/
  | foreign (pid : Nat) (c : Sys Ask) (r : Int)

def State.setPhase (s : State) (pid : Nat) (server : Server) (phase : Phase) : State :=
  { s with servers := Function.update s.servers pid (some { server with phase }) }

variable (S : Site) (bind : TcpBind)

inductive Step : State → Move → State → Prop where
  | start {s : State} {pid : Nat} {config : Deployed} : s.servers pid = none →
    s.kernel pid = (fun _ => none) →
    Step s (.start pid config) (s.setPhase pid ⟨config, .dark, false⟩
      (config.settle bind (.starting (buildServer S.endian config.listeners).run)))
  | startCall {s : State} {pid : Nat} {server : Server} {c : Sys Ask} {r : Int}
    {next : Int → Io (Except Error (List Nat))} {kernel : Kernel SocketAddr} :
    s.servers pid = some server → server.phase = .starting (.sys c next) →
    Exec S.net pid s.kernel c r kernel →
    Step s (.call pid c r) (State.setPhase { s with kernel } pid server
      (server.config.settle bind (.starting (next r))))
  | controlCall {s : State} {pid : Nat} {server : Server} {c : Sys Ask} {r : Int}
    {next : Int → Io (Except Error Nat)} {kernel : Kernel SocketAddr} :
    s.servers pid = some server → server.phase = .attempting (.sys c next) →
    Exec S.net pid s.kernel c r kernel →
    Step s (.call pid c r) (State.setPhase { s with kernel } pid server
      (attempt (next r)))
  | retry {s : State} {pid : Nat} {server : Server} {addr : SocketAddr} :
    s.servers pid = some server → server.phase = .waiting → server.config.controlAddr = .ok addr →
    Step s (.retry pid) (s.setPhase pid server (attempt (bind addr)))
  | cancel {s : State} {pid : Nat} {server : Server} : s.servers pid = some server →
    Step s (.cancel pid) (s.setPhase pid { server with cancelled := true } server.phase)
  | stopWaiting {s : State} {pid : Nat} {server : Server} : s.servers pid = some server →
    server.phase = .waiting → server.cancelled = true →
    Step s (.stop pid) (s.setPhase pid server .dark)
  -- graceful shutdown drops the listener
  | stopServing {s : State} {pid fd : Nat} {server : Server} {r : Int}
    {kernel : Kernel SocketAddr} : s.servers pid = some server → server.phase = .serving fd →
    server.cancelled = true → Exec S.net pid s.kernel (.close fd : Sys Ask) r kernel →
    Step s (.stop pid) (State.setPhase { s with kernel } pid server .dark)
  | exit {s : State} {pid : Nat} {server : Server} : s.servers pid = some server →
    Step s (.exit pid) ⟨Function.update s.kernel pid fun _ => none,
      Function.update s.servers pid none⟩
  | foreign {s : State} {pid : Nat} {c : Sys Ask} {r : Int} {kernel : Kernel SocketAddr} :
    s.servers pid = none → Exec S.net pid s.kernel c r kernel →
    Step s (.foreign pid c r) { s with kernel }

/-! ## What every server keeps -/

/-- The process holds the DNS sockets of its configuration and nothing else. -/
def Listening (config : Deployed) (row : Row SocketAddr) : Prop :=
  ∃ wanted fds, config.listeners.wanted = .ok wanted ∧ Holding (fun _ => none) wanted fds row

/-- How a server's descriptors go with its phase. -/
def Tracks (server : Server) (row : Row SocketAddr) : Prop :=
  match server.phase with
  | .starting prog => Grouped row ∧ prog.wp S.net Armed
      (AllOrNone (fun _ => none) fun fds row => ∃ wanted,
        server.config.listeners.wanted = .ok wanted ∧ Holding (fun _ => none) wanted fds row) row
  | .failed _ => row = fun _ => none
  | .attempting prog => ∃ addr dns, server.config.controlAddr = .ok addr ∧
      Listening server.config dns ∧ Beside addr dns row ∧
      prog.wp S.net (fun row _ => Beside addr dns row) (Opened dns (ControlSocket addr)) row
  | .waiting => Listening server.config row
  | .dark => Listening server.config row
  | .serving fd => ∃ addr dns sock, server.config.controlAddr = .ok addr ∧
      Listening server.config dns ∧ dns fd = none ∧ row = Function.update dns fd (some sock) ∧
      ControlSocket addr sock

structure Sound (s : State) : Prop where
  shared : Shared S.net s.kernel
  tracks : ∀ pid server, s.servers pid = some server → Tracks S server (s.kernel pid)

variable {S} {bind} {s s' : State} {config : Deployed} {row : Row SocketAddr} {cancelled : Bool}

theorem tracks_attempt {addr : SocketAddr} {prog : Io (Except Error Nat)} {dns : Row SocketAddr}
    (haddr : config.controlAddr = .ok addr) (hdns : Listening config dns)
    (hwp : prog.wp S.net (fun row _ => Beside addr dns row) (Opened dns (ControlSocket addr)) row) :
    Tracks S ⟨config, attempt prog, cancelled⟩ row := by
  cases prog with
  | ret r =>
    cases r with
    | error err =>
      obtain rfl := hwp
      exact hdns
    | ok fd =>
      obtain ⟨hnew, sock, hrow, hsock⟩ := hwp
      exact ⟨addr, dns, sock, haddr, hdns, hnew, hrow, hsock⟩
  | sys c next => exact ⟨addr, dns, haddr, hdns, hwp.1, hwp⟩

theorem tracks_startControlPlane (hbind : bind.Exclusive S) (hdns : Listening config row) :
    Tracks S ⟨config, config.startControlPlane bind, cancelled⟩ row := by
  unfold Deployed.startControlPlane
  split
  · cases haddr : config.controlAddr with
    | error err => exact hdns
    | ok addr => exact tracks_attempt haddr hdns (hbind addr row)
  · exact hdns

theorem tracks_starting (hbind : bind.Exclusive S) {prog : Io (Except Error (List Nat))}
    (hgrouped : Grouped row)
    (hwp : prog.wp S.net Armed (AllOrNone (fun _ => none) fun fds row => ∃ wanted,
      config.listeners.wanted = .ok wanted ∧ Holding (fun _ => none) wanted fds row) row) :
    Tracks S ⟨config, config.settle bind (.starting prog), cancelled⟩ row := by
  cases prog with
  | ret r =>
    cases r with
    | error err => exact hwp
    | ok fds =>
      obtain ⟨wanted, hwanted, hholding⟩ := hwp
      exact tracks_startControlPlane hbind ⟨wanted, fds, hwanted, hholding⟩
  | sys c next => exact ⟨hgrouped, hwp⟩

/-- One server moves, the descriptors of the others stay. -/
theorem Sound.setPhase {pid : Nat} {server : Server} {phase : Phase} {kernel : Kernel SocketAddr}
    (h : Sound S s) (hshared : Shared S.net kernel)
    (hothers : ∀ q, q ≠ pid → s.servers q ≠ none → kernel q = s.kernel q)
    (htracks : Tracks S { server with phase } (kernel pid)) :
    Sound S (State.setPhase { s with kernel } pid server phase) where
  shared := hshared
  tracks q other hq := by
    by_cases heq : q = pid
    · subst heq
      cases (Function.update_self ..).symm.trans hq
      exact htracks
    · replace hq : s.servers q = some other := (Function.update_of_ne heq _ _).symm.trans hq
      show Tracks S other (kernel q)
      rw [hothers q heq (hq ▸ Option.some_ne_none other)]
      exact h.tracks q other hq

theorem Sound.step (hbind : bind.Exclusive S) {m : Move} (h : Sound S s)
    (hs : Step S bind s m s') : Sound S s' := by
  cases hs with
  | @start pid config hfree hempty =>
    refine h.setPhase h.shared (fun _ _ _ => rfl) (tracks_starting hbind ?_ ?_)
    · intro fd sock hsock
      rw [hempty] at hsock
      cases hsock
    · rw [hempty]
      exact buildServer_wp
  | @startCall pid server c r next kernel hserver hphase hexec =>
    have htracks := h.tracks pid server hserver
    rw [Tracks, hphase] at htracks
    obtain ⟨hgrouped, hwp⟩ := htracks
    exact h.setPhase (hexec.shared h.shared) (fun q hq _ => hexec.others q hq)
      (tracks_starting hbind (hgrouped.exec hwp.1 hexec.row) (hexec.wp hwp))
  | @controlCall pid server c r next kernel hserver hphase hexec =>
    have htracks := h.tracks pid server hserver
    rw [Tracks, hphase] at htracks
    obtain ⟨addr, dns, haddr, hdns, -, hwp⟩ := htracks
    exact h.setPhase (hexec.shared h.shared) (fun q hq _ => hexec.others q hq)
      (tracks_attempt haddr hdns (hexec.wp hwp))
  | @retry pid server addr hserver hphase haddr =>
    have htracks := h.tracks pid server hserver
    rw [Tracks, hphase] at htracks
    exact h.setPhase h.shared (fun _ _ _ => rfl) (tracks_attempt haddr htracks (hbind addr _))
  | @cancel pid server hserver =>
    exact h.setPhase h.shared (fun _ _ _ => rfl) (h.tracks pid server hserver)
  | @stopWaiting pid server hserver hphase =>
    have htracks := h.tracks pid server hserver
    rw [Tracks, hphase] at htracks
    exact h.setPhase h.shared (fun _ _ _ => rfl) htracks
  | @stopServing pid fd server r kernel hserver hphase _ hexec =>
    have htracks := h.tracks pid server hserver
    rw [Tracks, hphase] at htracks
    obtain ⟨addr, dns, sock, -, hdns, hnew, hrow, -⟩ := htracks
    refine h.setPhase (hexec.shared h.shared) (fun q hq _ => hexec.others q hq) ?_
    -- closing the listener leaves the DNS sockets
    have hclosed : kernel pid = dns := by
      rw [hexec.row.of_close, hrow, update_closed hnew]
    rw [hclosed]
    exact hdns
  | @exit pid server hserver =>
    refine ⟨h.shared.exit pid, fun q other hq => ?_⟩
    by_cases heq : q = pid
    · subst heq
      cases (Function.update_self ..).symm.trans hq
    · replace hq : s.servers q = some other := (Function.update_of_ne heq _ _).symm.trans hq
      show Tracks S other (Function.update s.kernel pid (fun _ => none) q)
      rw [Function.update_of_ne heq]
      exact h.tracks q other hq
  | @foreign pid c r kernel hfree hexec =>
    refine ⟨hexec.shared h.shared, fun q other hq => ?_⟩
    have hne : q ≠ pid := by
      rintro rfl
      cases hfree.symm.trans hq
    show Tracks S other (kernel q)
    rw [hexec.others q hne]
    exact h.tracks q other hq

theorem run_sound (hbind : bind.Exclusive S) {moves : List Move}
    (h : Run (Step S bind) boot moves s) : Sound S s := by
  refine h.invariant ⟨⟨?_, ?_⟩, ?_⟩ fun h hs => h.step hbind hs
  · intro p fd sock hsock
    cases hsock
  · intro p fd sock a q fd' t b _ hsock
    cases hsock
  · intro pid server hserver
    cases hserver

/-! ## Whose socket it is -/

/-- The socket is at the server's control port, or on its way there. -/
def OnControl (server : Server) (sock : Socket SocketAddr) : Prop :=
  ∃ addr, server.config.controlAddr = .ok addr ∧ Exclusive addr sock

theorem Listening.grouped {fd : Nat} {sock : Socket SocketAddr} (h : Listening config row)
    (hsock : row fd = some sock) : sock.reuseAddr ∧ sock.reusePort := by
  obtain ⟨wanted, fds, -, hholding⟩ := h
  rcases hholding.entry hsock with ⟨-, addr, kind, -, hready⟩ | ⟨-, hnone⟩
  · exact ⟨hready.reuseAddr, hready.reusePort⟩
  · cases hnone

/-- A server's sockets are in the group, but for the one of its control plane. -/
theorem Tracks.entry {server : Server} (h : Tracks S server row) {fd : Nat}
    {sock : Socket SocketAddr} (hsock : row fd = some sock) (hbound : sock.addr ≠ none) :
    (sock.reuseAddr ∧ sock.reusePort) ∨ OnControl server sock := by
  unfold Tracks at h
  cases hphase : server.phase with
  | starting prog =>
    rw [hphase] at h
    exact .inl (h.1 fd sock hsock hbound)
  | failed err =>
    rw [hphase] at h
    rw [h] at hsock
    cases hsock
  | attempting prog =>
    rw [hphase] at h
    obtain ⟨addr, dns, haddr, hdns, hbeside, -⟩ := h
    rcases hbeside.entry hsock with hold | hexclusive
    · exact .inl (hdns.grouped hold)
    · exact .inr ⟨addr, haddr, hexclusive⟩
  | waiting | dark =>
    rw [hphase] at h
    exact .inl (Listening.grouped h hsock)
  | serving fd' =>
    rw [hphase] at h
    obtain ⟨addr, dns, sock', haddr, hdns, -, rfl, hcontrol⟩ := h
    rcases eq_or_of_update hsock with ⟨-, hnew⟩ | hold
    · cases hnew
      exact .inr ⟨addr, haddr, hcontrol.toExclusive⟩
    · exact .inl (hdns.grouped hold)

/-- `build_server` went through. -/
def Phase.IsUp : Phase → Prop
  | .starting _ => False
  | .failed _ => False
  | _ => True

/-- The process holds the DNS sockets of its configuration, and beside them at most those of its
control plane. -/
def Holds (s : State) (pid : Nat) (server : Server) : Prop :=
  ∃ wanted fds, server.config.listeners.wanted = .ok wanted ∧ fds.Nodup ∧
    List.Forall₂ (fun w fd => ∃ sock, s.kernel pid fd = some sock ∧ Ready w.1 w.2 sock) wanted fds ∧
    ∀ fd sock, s.kernel pid fd = some sock → fd ∈ fds ∨ OnControl server sock

theorem Tracks.holds {pid : Nat} {server : Server} (h : Tracks S server (s.kernel pid))
    (hup : server.phase.IsUp) : Holds s pid server := by
  -- the DNS sockets stay where they are when one socket is put beside them
  have hbeside : ∀ {addr dns}, server.config.controlAddr = .ok addr →
      Listening server.config dns → Beside addr dns (s.kernel pid) → Holds s pid server := by
    rintro addr dns haddr ⟨wanted, fds, hwanted, hholding⟩ hrow
    refine ⟨wanted, fds, hwanted, hholding.nodup, List.Forall₂.imp ?_ hholding.forall₂, ?_⟩
    · rintro w fd ⟨sock, hsock, hready⟩
      refine ⟨sock, ?_, hready⟩
      rcases hrow with hrow | ⟨fd', sock', hnew, hrow, -⟩
      · rwa [hrow]
      · have hne : fd ≠ fd' := by
          rintro rfl
          cases hnew.symm.trans hsock
        rwa [hrow, Function.update_of_ne hne]
    · intro fd sock hsock
      rcases hrow.entry hsock with hold | hexclusive
      · rcases hholding.entry hold with ⟨hmem, -⟩ | ⟨-, hnone⟩
        · exact .inl hmem
        · cases hnone
      · exact .inr ⟨addr, haddr, hexclusive⟩
  have halone : Listening server.config (s.kernel pid) → Holds s pid server := by
    rintro ⟨wanted, fds, hwanted, hholding⟩
    refine ⟨wanted, fds, hwanted, hholding.nodup, hholding.forall₂, fun fd sock hsock => ?_⟩
    rcases hholding.entry hsock with ⟨hmem, -⟩ | ⟨-, hnone⟩
    · exact .inl hmem
    · cases hnone
  unfold Tracks at h
  cases hphase : server.phase with
  | starting prog | failed err =>
    rw [hphase] at hup
    cases hup
  | waiting | dark =>
    rw [hphase] at h
    exact halone h
  | attempting prog =>
    rw [hphase] at h
    obtain ⟨addr, dns, haddr, hdns, hrow, -⟩ := h
    exact hbeside haddr hdns hrow
  | serving fd =>
    rw [hphase] at h
    obtain ⟨addr, dns, sock, haddr, hdns, hnew, hrow, hcontrol⟩ := h
    exact hbeside haddr hdns (.inr ⟨fd, sock, hnew, hrow, hcontrol.toExclusive⟩)

variable (S) in
/-- A socket of this kind has a part of the address, whose owner is of another user, no server, or
the control plane of one. -/
def HeldOutside (s : State) (pid : Nat) (kind : Kind) (asked : SocketAddr) : Prop :=
  ∃ q fd t b, s.kernel q fd = some t ∧ t.kind = kind ∧ t.addr = some b ∧ S.overlap asked b ∧
    (S.uid q ≠ S.uid pid ∨ s.servers q = none ∨
      ∃ other, s.servers q = some other ∧ OnControl other t)

variable (S) in
/-- Who has a part of the address is a server of the same user, with a DNS socket. -/
def HeldInside (s : State) (pid : Nat) (kind : Kind) (asked : SocketAddr) : Prop :=
  ∀ q fd t b, s.kernel q fd = some t → t.kind = kind → t.addr = some b → S.overlap asked b →
    S.uid q = S.uid pid ∧ ∃ other, s.servers q = some other ∧ ¬ OnControl other t

/-- Who kept a server from binding a DNS socket: nobody's DNS socket of the same user. -/
theorem Sound.refused {pid fd : Nat} {server : Server} {prog : Io (Except Error (List Nat))}
    {bytes : List UInt8} (h : Sound S s) (hserver : s.servers pid = some server)
    (hphase : server.phase = .starting prog)
    (hs : Step S bind s (.call pid (.bind fd bytes) EADDRINUSE) s') :
    ∃ sock asked, s.kernel pid fd = some sock ∧
      readSockaddr S.endian sock.domain bytes = some asked ∧
      (asked.port = 0 ∨ HeldOutside S s pid sock.kind asked) := by
  have htracks := h.tracks pid server hserver
  rw [Tracks, hphase] at htracks
  obtain ⟨-, hwp⟩ := htracks
  cases hs with
  | @startCall _ server' _ _ next kernel hserver' hphase' hexec =>
    cases hserver.symm.trans hserver'
    cases hphase.symm.trans hphase'
    obtain ⟨sock, hsock, -, hport⟩ := hwp.1
    obtain ⟨sock', asked, hsock', hasked, hwhy⟩ := hexec.refused fd bytes rfl rfl
    cases hsock.symm.trans hsock'
    refine ⟨sock, asked, hsock, hasked, hwhy.imp id ?_⟩
    rintro ⟨q, fd', t, -, ht, hblocks⟩
    obtain ⟨b, hb, hoverlap⟩ := hblocks.overlap
    refine ⟨q, fd', t, b, ht, hblocks.kind, hb, hoverlap, ?_⟩
    by_cases huid : S.uid q = S.uid pid
    · cases hother : s.servers q with
      | none => exact .inr (.inl rfl)
      | some other =>
        have hbound : t.addr ≠ none := hb ▸ Option.some_ne_none b
        rcases (h.tracks q other hother).entry ht hbound with ⟨-, htport⟩ | hcontrol
        · exact absurd ⟨hport, htport, huid.symm⟩ hblocks.port
        · exact .inr (.inr ⟨other, rfl, hcontrol⟩)
    · exact .inl huid
  | controlCall hserver' hphase' =>
    cases hserver.symm.trans hserver'
    cases hphase.symm.trans hphase'

/-! ## Servers that come up -/

theorem setPhase_setPhase {pid : Nat} {server : Server} {phase phase' : Phase}
    {kernel : Kernel SocketAddr} :
    State.setPhase { s.setPhase pid server phase with kernel } pid { server with phase } phase' =
      State.setPhase { s with kernel } pid server phase' := by
  unfold State.setPhase
  rw [Function.update_idem]

/-- A program that can come through does so in a run of the machine. -/
theorem run_of_can {α : Type} (mk : Io α → Phase) (s : State) {pid : Nat} (server : Server)
    {prog : Io α} {k : Kernel SocketAddr} {ρ ρ' : Row SocketAddr} {a : α}
    (hsettle : ∀ c next, server.config.settle bind (mk (.sys c next)) = mk (.sys c next))
    (hstep : ∀ {s server c r next kernel}, s.servers pid = some server →
      server.phase = mk (.sys c next) → Exec S.net pid s.kernel c r kernel →
      Step S bind s (.call pid c r) (State.setPhase { s with kernel } pid server
        (server.config.settle bind (mk (next r)))))
    (h : Can S.net pid k prog ρ a ρ') :
    ∃ moves, Run (Step S bind)
      (State.setPhase { s with kernel := Function.update k pid ρ } pid server
        (server.config.settle bind (mk prog))) moves
      (State.setPhase { s with kernel := Function.update k pid ρ' } pid server
        (server.config.settle bind (mk (.ret a)))) := by
  induction h with
  | ret => exact ⟨[], .nil⟩
  | @sys c next r a ρ ρ₁ ρ' hexec _ ih =>
    obtain ⟨moves, hrun⟩ := ih
    rw [hsettle]
    have hcall := hstep (s := State.setPhase { s with kernel := Function.update k pid ρ } pid
      server (mk (.sys c next))) (Function.update_self ..) rfl hexec
    rw [setPhase_setPhase] at hcall
    exact ⟨_, (Run.snoc .nil hcall).trans hrun⟩

/-- A server starts beside others of its user that hold the addresses it wants. -/
theorem Sound.comes_up {pid : Nat} {wanted : Wanted} (h : Sound S s)
    (hnew : s.servers pid = none) (hempty : s.kernel pid = fun _ => none)
    (hwanted : config.listeners.wanted = .ok wanted)
    (hheld : ∀ w ∈ wanted, HeldInside S s pid w.2 { w.1 with scopeId := 0 }) :
    ∃ moves s', Run (Step S bind) s (.start pid config :: moves) s' ∧
      s'.servers pid = some ⟨config, config.startControlPlane bind, false⟩ ∧
      Listening config (s'.kernel pid) ∧
      ∀ q, q ≠ pid → s'.servers q = s.servers q ∧ s'.kernel q = s.kernel q := by
  have hkernel : Function.update s.kernel pid (fun _ => none) = s.kernel := by
    rw [← hempty, Function.update_eq_self]
  have hwelcome : ∀ w ∈ wanted, Welcome S.net pid
      (Function.update s.kernel pid fun _ => none) w.2 { w.1 with scopeId := 0 } := by
    intro w hw q fd t b ht hkind hb hoverlap
    rw [hkernel] at ht
    obtain ⟨huid, other, hother, hcontrol⟩ := hheld w hw q fd t b ht hkind hb hoverlap
    have hbound : t.addr ≠ none := hb ▸ Option.some_ne_none b
    rcases (h.tracks q other hother).entry ht hbound with ⟨-, hport⟩ | honcontrol
    · exact ⟨hport, huid.symm⟩
    · exact absurd honcontrol hcontrol
  obtain ⟨fds, row, hcan, hholding⟩ := buildServer_can hwanted room_empty hwelcome
  obtain ⟨moves, hrun⟩ := run_of_can .starting s ⟨config, .dark, false⟩ (fun _ _ => rfl)
    (fun hs hp he => .startCall hs hp he) hcan
  rw [hkernel] at hrun
  have hstart : Run (Step S bind) s [.start pid config] _ := .snoc .nil (.start hnew hempty)
  refine ⟨moves, _, hstart.trans hrun, Function.update_self .., ?_, fun q hq => ⟨?_, ?_⟩⟩
  · show Listening config (Function.update s.kernel pid row pid)
    rw [Function.update_self]
    exact ⟨wanted, fds, hwanted, hholding⟩
  · exact Function.update_of_ne hq ..
  · exact Function.update_of_ne hq ..

/-- An attempt at a free control port can succeed. -/
theorem attempt_can (hbind : bind.Available S) {pid : Nat} (server : Server) {addr : SocketAddr}
    (hserver : s.servers pid = some { server with phase := attempt (bind addr) })
    (hfd : ∃ fd, s.kernel pid fd = none)
    (hfree : ∀ q fd t b, s.kernel q fd = some t → t.kind = .stream → t.addr = some b →
      ¬ S.overlap { addr with scopeId := 0 } b) :
    ∃ moves s' fd, Run (Step S bind) s moves s' ∧
      s'.servers pid = some { server with phase := .serving fd } ∧
      ∀ q, q ≠ pid → s'.servers q = s.servers q ∧ s'.kernel q = s.kernel q := by
  have hkernel : Function.update s.kernel pid (s.kernel pid) = s.kernel :=
    Function.update_eq_self ..
  rw [← hkernel] at hfree
  obtain ⟨fd, row, hcan⟩ := hbind addr _ pid s.kernel hfd hfree
  obtain ⟨moves, hrun⟩ := run_of_can .attempting s server (fun _ _ => rfl)
    (fun hs hp he => .controlCall hs hp he) hcan
  have hstate : State.setPhase { s with kernel := s.kernel } pid server (attempt (bind addr)) =
      s := by
    unfold State.setPhase
    rw [← hserver, Function.update_eq_self]
  rw [hkernel] at hrun
  refine ⟨moves, _, fd, hstate ▸ hrun, Function.update_self .., fun q hq => ⟨?_, ?_⟩⟩
  · exact Function.update_of_ne hq ..
  · exact Function.update_of_ne hq ..

/-- A waiting control plane takes its port once nobody has a part of it. -/
theorem Sound.takes_over (h : Sound S s) (hbind : bind.Available S) {pid : Nat} {server : Server}
    {addr : SocketAddr} (hserver : s.servers pid = some server) (hphase : server.phase = .waiting)
    (haddr : server.config.controlAddr = .ok addr)
    (hfree : ∀ q fd t b, s.kernel q fd = some t → t.kind = .stream → t.addr = some b →
      ¬ S.overlap { addr with scopeId := 0 } b) :
    ∃ moves s' fd, Run (Step S bind) s (.retry pid :: moves) s' ∧
      s'.servers pid = some { server with phase := .serving fd } ∧
      ∀ q, q ≠ pid → s'.servers q = s.servers q ∧ s'.kernel q = s.kernel q := by
  have htracks := h.tracks pid server hserver
  rw [Tracks, hphase] at htracks
  obtain ⟨wanted, fds, -, hholding⟩ := htracks
  obtain ⟨fd, -, hfd⟩ := hholding.room room_empty 0
  have hretry : Run (Step S bind) s [.retry pid] _ := .snoc .nil (.retry hserver hphase haddr)
  obtain ⟨moves, s', fd, hrun, hserving, hothers⟩ := attempt_can (S := S)
    (s := s.setPhase pid server (attempt (bind addr))) hbind server (Function.update_self ..)
    ⟨fd, hfd⟩ hfree
  refine ⟨moves, s', fd, hretry.trans hrun, hserving, fun q hq => ?_⟩
  obtain ⟨hservers, hkernel⟩ := hothers q hq
  exact ⟨hservers.trans (Function.update_of_ne hq ..), hkernel⟩

/-- It takes the port from a predecessor that exits and was alone there. -/
theorem Sound.succeeds (h : Sound S s) (hexclusive : bind.Exclusive S)
    (havailable : bind.Available S) {pid q : Nat} {server predecessor : Server} {addr : SocketAddr}
    (hserver : s.servers pid = some server) (hphase : server.phase = .waiting)
    (haddr : server.config.controlAddr = .ok addr) (hq : s.servers q = some predecessor)
    (hne : q ≠ pid)
    (hholder : ∀ q' fd t b, s.kernel q' fd = some t → t.kind = .stream → t.addr = some b →
      S.overlap { addr with scopeId := 0 } b → q' = q) :
    ∃ moves s' fd, Run (Step S bind) s (.exit q :: .retry pid :: moves) s' ∧
      s'.servers pid = some { server with phase := .serving fd } ∧
      ∀ r, r ≠ pid → r ≠ q → s'.servers r = s.servers r ∧ s'.kernel r = s.kernel r := by
  have hexit : Step S bind s (.exit q) ⟨Function.update s.kernel q fun _ => none,
      Function.update s.servers q none⟩ := .exit hq
  have hfree : ∀ q' fd t b, Function.update s.kernel q (fun _ => none) q' fd = some t →
      t.kind = .stream → t.addr = some b → ¬ S.overlap { addr with scopeId := 0 } b := by
    intro q' fd t b ht hkind hb hoverlap
    by_cases heq : q' = q
    · subst heq
      rw [Function.update_self] at ht
      cases ht
    · rw [Function.update_of_ne heq] at ht
      exact heq (hholder q' fd t b ht hkind hb hoverlap)
  obtain ⟨moves, s', fd, hrun, hserving, hothers⟩ := (h.step hexclusive hexit).takes_over
    havailable ((Function.update_of_ne hne.symm ..).trans hserver) hphase haddr hfree
  refine ⟨moves, s', fd, (Run.snoc .nil hexit).trans hrun, hserving, fun r hr hrq => ?_⟩
  obtain ⟨hservers, hkernel⟩ := hothers r hr
  exact ⟨hservers.trans (Function.update_of_ne hrq ..),
    hkernel.trans (Function.update_of_ne hrq ..)⟩

/-- **Restarts overlap.** On a host with any servers and other processes, a server that could not
start holds no socket, and one that is up holds exactly the DNS sockets of its configuration, armed,
next to those of its control plane. A DNS socket is refused its address only because of another
user, a process that is no server, or a control port; and while servers of its user hold the
addresses it wants, a server can come up without any of them letting go. -/
theorem restarts_overlap (hbind : bind.Exclusive S) {moves : List Move}
    (h : Run (Step S bind) boot moves s) :
    (∀ pid server, s.servers pid = some server →
      (∀ err, server.phase = .failed err → s.kernel pid = fun _ => none) ∧
      (server.phase.IsUp → Holds s pid server)) ∧
    (∀ pid fd server prog bytes s', s.servers pid = some server →
      server.phase = .starting prog → Step S bind s (.call pid (.bind fd bytes) EADDRINUSE) s' →
      ∃ sock asked, s.kernel pid fd = some sock ∧
        readSockaddr S.endian sock.domain bytes = some asked ∧
        (asked.port = 0 ∨ HeldOutside S s pid sock.kind asked)) ∧
    ∀ pid config wanted, s.servers pid = none → s.kernel pid = (fun _ => none) →
      config.listeners.wanted = .ok wanted →
      (∀ w ∈ wanted, HeldInside S s pid w.2 { w.1 with scopeId := 0 }) →
      ∃ moves' s', Run (Step S bind) s (.start pid config :: moves') s' ∧
        s'.servers pid = some ⟨config, config.startControlPlane bind, false⟩ ∧
        Listening config (s'.kernel pid) ∧
        ∀ q, q ≠ pid → s'.servers q = s.servers q ∧ s'.kernel q = s.kernel q := by
  have hsound := run_sound hbind h
  refine ⟨fun pid server hserver =>
      ⟨fun err hphase => ?_, (hsound.tracks pid server hserver).holds⟩,
    fun pid fd server prog bytes s' hserver hphase hs => hsound.refused hserver hphase hs,
    fun pid config wanted hnew hempty hwanted hheld => hsound.comes_up hnew hempty hwanted hheld⟩
  have htracks := hsound.tracks pid server hserver
  rw [Tracks, hphase] at htracks
  exact htracks

/-! ## A listener that keeps to this -/

def listenOn (e : Endian) (fd : Nat) (addr : SocketAddr) : Fallible Unit := do
  setReuseAddr fd
  bindRaw e fd addr
  listenRaw fd LISTEN_BACKLOG

/-- The calls `reuseport.rs` says mio makes, and no others. -/
def tcpListenerBind (e : Endian) (addr : SocketAddr) : Io (Except Error Nat) := do
  let fd ← Prog.call (.socket addr.domain .stream)
  if fd < 0 then return .error []
  match ← (listenOn e fd.toNat addr).run with
  | .error err =>
    let _ ← Prog.call (.close fd.toNat)
    return .error err
  | .ok () => return .ok fd.toNat

section
variable {S : Site} {addr : SocketAddr} {dns : Row SocketAddr}

theorem listenOn_wp {fd : Nat} (hnew : dns fd = none) :
    (listenOn S.endian fd addr).run.wp S.net (fun row _ => Beside addr dns row)
      (fun r row => ∃ s, row = Function.update dns fd (some s) ∧ Exclusive addr s ∧
        (r = .ok () → ControlSocket addr s))
      (Function.update dns fd (some { domain := addr.domain, kind := .stream })) := by
  have hself : ∀ s : Socket SocketAddr, Function.update dns fd (some s) fd = some s := fun s =>
    Function.update_self ..
  have hbeside : ∀ s, Exclusive addr s → Beside addr dns (Function.update dns fd (some s)) :=
    fun s hs => .inr ⟨fd, s, hnew, rfl, hs⟩
  have herror : ∀ (err : Error) s, Exclusive addr s →
      ∃ s', Function.update dns fd (some s) = Function.update dns fd (some s') ∧
        Exclusive addr s' ∧ ((.error err : Except Error Unit) = .ok () → ControlSocket addr s') :=
    fun err s hs => ⟨s, rfl, hs, fun h => (nomatch h)⟩
  have hfresh : Exclusive addr { domain := addr.domain, kind := .stream } :=
    ⟨rfl, rfl, fun _ h => (nomatch h)⟩
  have hset : Exclusive addr { domain := addr.domain, kind := .stream, reuseAddr := true } :=
    ⟨rfl, rfl, fun _ h => (nomatch h)⟩
  unfold listenOn
  refine wp_seq.mpr (wp_setSockoptInt (hself _) rfl (hbeside _ hfresh)
    (fun err => herror err _ hfresh) ?_)
  simp only [Function.update_idem]
  refine wp_seq.mpr (wp_bindRaw (hself _) rfl (hbeside _ hset) (fun err => herror err _ hset)
    fun a ha => ?_)
  simp only [Function.update_idem]
  have hbound : Exclusive addr
      { domain := addr.domain, kind := .stream, reuseAddr := true, addr := some a } :=
    ⟨rfl, rfl, fun _ h => Option.some.inj h ▸ ha⟩
  refine wp_listenRaw (hself _) rfl (hbeside _ hbound) (fun err => herror err _ hbound) ?_
  simp only [Function.update_idem]
  have hlistens : Exclusive addr
      { domain := addr.domain, kind := .stream, reuseAddr := true, addr := some a
        backlog := some LISTEN_BACKLOG } :=
    ⟨rfl, rfl, fun _ h => Option.some.inj h ▸ ha⟩
  refine ⟨_, rfl, hlistens, fun _ => ⟨hlistens, ?_, ?_⟩⟩
  · exact Option.some_ne_none _
  · exact Option.some_ne_none _

theorem tcpListenerBind_wp :
    (tcpListenerBind S.endian addr).wp S.net (fun row _ => Beside addr dns row)
      (Opened dns (ControlSocket addr)) dns := by
  refine Prog.wp_socket (.inl rfl) (fun r hr => ?_) fun fd hnew => ?_
  · rw [if_pos hr]
    exact rfl
  · rw [if_neg (Int.not_lt.mpr (Int.natCast_nonneg _))]
    refine Prog.wp_bind.mpr (Prog.wp_mono (fun _ _ h => h) ?_ (listenOn_wp hnew))
    rintro r row ⟨s, rfl, hs, hlistens⟩
    rcases r with err | ⟨⟩
    · refine Prog.wp_close (.inr ⟨fd, s, hnew, rfl, hs⟩) fun _ => ?_
      exact update_closed hnew
    · exact ⟨hnew, s, rfl, hlistens rfl⟩

def controlSocket (addr : SocketAddr) : Socket SocketAddr where
  domain := addr.domain
  kind := .stream
  reuseAddr := true
  addr := some { addr with scopeId := 0 }
  backlog := some LISTEN_BACKLOG

section
variable {p fd : Nat} {k : Kernel SocketAddr}

theorem listenOn_can
    (hfree : ∀ q fd' t b, Function.update k p dns q fd' = some t → t.kind = .stream →
      t.addr = some b → ¬ S.overlap { addr with scopeId := 0 } b) :
    Can S.net p k (listenOn S.endian fd addr).run
      (Function.update dns fd (some { domain := addr.domain, kind := .stream })) (.ok ())
      (Function.update dns fd (some (controlSocket addr))) := by
  have hself : ∀ s : Socket SocketAddr, Function.update dns fd (some s) fd = some s := fun s =>
    Function.update_self ..
  have hothers : ∀ {s q fd' t}, Function.update k p (Function.update dns fd (some s)) q fd' =
      some t → (q, fd') ≠ (p, fd) → Function.update k p dns q fd' = some t := by
    intro s q fd' t ht hne
    by_cases hq : q = p
    · subst hq
      rw [Function.update_self] at ht ⊢
      rcases eq_or_of_update ht with ⟨rfl, -⟩ | hold
      · exact absurd rfl hne
      · exact hold
    · rwa [Function.update_of_ne hq] at ht ⊢
  unfold listenOn
  refine can_seq (can_setSockoptInt (hself _) rfl) ?_
  rw [Function.update_idem]
  refine can_seq (can_bindRaw (hself _) rfl rfl fun q fd' t ht hblocks => ?_) ?_
  · obtain ⟨b, hb, hoverlap⟩ := hblocks.overlap
    -- the socket itself has no address yet
    have hne : (q, fd') ≠ (p, fd) := by
      intro heq
      cases heq
      rw [Function.update_self, Function.update_self] at ht
      cases ht
      cases hb
    exact hfree q fd' t b (hothers ht hne) hblocks.kind hb hoverlap
  · rw [Function.update_idem]
    have hlisten : Can S.net p k (listenRaw fd LISTEN_BACKLOG).run _ (.ok ()) _ :=
      can_listenRaw (hself { controlSocket addr with backlog := none }) rfl rfl
        fun q fd' t d hne ht hkind hd hoverlap =>
          absurd hoverlap (hfree q fd' t d (hothers ht hne) hkind hd)
    rw [Function.update_idem] at hlisten
    exact hlisten

/-- Where nobody has a part of the control address, the control plane can take it. -/
theorem tcpListenerBind_can (hfd : dns fd = none)
    (hfree : ∀ q fd' t b, Function.update k p dns q fd' = some t → t.kind = .stream →
      t.addr = some b → ¬ S.overlap { addr with scopeId := 0 } b) :
    Can S.net p k (tcpListenerBind S.endian addr) dns (.ok fd)
      (Function.update dns fd (some (controlSocket addr))) := by
  refine Can.quiet trivial (.socket hfd) ?_
  rw [if_neg (Int.not_lt.mpr (Int.natCast_nonneg _))]
  exact Can.bind (listenOn_can hfree) .ret

end

end

/-- A host whose processes are all of one user. -/
def sampleSite : Site where
  endian := .little
  overlap a b := a.port = b.port
  overlap_symm := Eq.symm
  uid _ := 0

def sampleBind : TcpBind := tcpListenerBind .little

theorem sampleBind_exclusive : sampleBind.Exclusive sampleSite := fun _ _ =>
  tcpListenerBind_wp (S := sampleSite)

theorem sampleBind_available : sampleBind.Available sampleSite :=
  fun _ _ _ _ ⟨fd, hfd⟩ hfree => ⟨fd, _, tcpListenerBind_can (S := sampleSite) hfd hfree⟩

def sampleConfig : Deployed where
  listeners := ⟨"0.0.0.0".toList, 53, 1, none, none⟩
  control := { enabled := true }

def sampleWanted : Wanted :=
  [(⟨.v4 0, 53, 0⟩, .stream), (⟨.v4 0, 53, 0⟩, .dgram)]

theorem sampleConfig_wanted : sampleConfig.listeners.wanted = .ok sampleWanted := by
  decide +kernel

/-- A successor comes up while its predecessor holds the same addresses. -/
theorem restarts_overlap_sample :
    ∃ moves s, Run (Step sampleSite sampleBind) boot moves s ∧ Listening sampleConfig (s.kernel 1) ∧
      Listening sampleConfig (s.kernel 2) := by
  have hboot : Run (Step sampleSite sampleBind) boot [] boot := .nil
  obtain ⟨-, -, hup⟩ := restarts_overlap sampleBind_exclusive hboot
  obtain ⟨moves₁, s₁, hrun₁, hserver, hlistening, hothers₁⟩ := hup 1 sampleConfig sampleWanted rfl
    rfl sampleConfig_wanted fun _ _ _ _ _ _ ht => (nomatch ht)
  have hrun := hboot.trans hrun₁
  obtain ⟨-, -, hup⟩ := restarts_overlap sampleBind_exclusive hrun
  obtain ⟨hnew, hempty⟩ := hothers₁ 2 (by decide)
  obtain ⟨moves₂, s₂, hrun₂, -, hlistening₂, hothers₂⟩ := hup 2 sampleConfig sampleWanted hnew
    hempty sampleConfig_wanted fun w hw q fd t b ht _ _ _ => by
      by_cases hq : q = 1
      · subst hq
        refine ⟨rfl, _, hserver, fun ⟨_, _, hexclusive⟩ => ?_⟩
        cases hexclusive.reusePort.symm.trans (hlistening.grouped ht).2
      · rw [(hothers₁ q hq).2] at ht
        cases ht
  refine ⟨_, s₂, hrun.trans hrun₂, ?_, hlistening₂⟩
  rw [(hothers₂ 1 (by decide)).2]
  exact hlistening

/-- **One control plane at a time.** Nobody on the host listens where a control plane listens; one
that waits takes its port once nobody has a part of it, and from a predecessor that was alone there
as soon as that exits. -/
theorem control_port_exclusive (hexclusive : bind.Exclusive S) (havailable : bind.Available S)
    {moves : List Move} (h : Run (Step S bind) boot moves s) :
    (∀ pid fd server, s.servers pid = some server → server.phase = .serving fd →
      ∃ addr sock a, server.config.controlAddr = .ok addr ∧ s.kernel pid fd = some sock ∧
        sock.addr = some a ∧ Resolves addr a ∧
        ∀ q fd' t b, (q, fd') ≠ (pid, fd) → s.kernel q fd' = some t → t.kind = .stream →
          t.backlog ≠ none → t.addr = some b → ¬ S.overlap a b) ∧
    ∀ pid server addr, s.servers pid = some server → server.phase = .waiting →
      server.config.controlAddr = .ok addr →
      ((∀ q fd t b, s.kernel q fd = some t → t.kind = .stream → t.addr = some b →
          ¬ S.overlap { addr with scopeId := 0 } b) →
        ∃ moves' s' fd, Run (Step S bind) s (.retry pid :: moves') s' ∧
          s'.servers pid = some { server with phase := .serving fd } ∧
          ∀ q, q ≠ pid → s'.servers q = s.servers q ∧ s'.kernel q = s.kernel q) ∧
      ∀ q predecessor, s.servers q = some predecessor → q ≠ pid →
        (∀ q' fd t b, s.kernel q' fd = some t → t.kind = .stream → t.addr = some b →
          S.overlap { addr with scopeId := 0 } b → q' = q) →
        ∃ moves' s' fd, Run (Step S bind) s (.exit q :: .retry pid :: moves') s' ∧
          s'.servers pid = some { server with phase := .serving fd } ∧
          ∀ r, r ≠ pid → r ≠ q → s'.servers r = s.servers r ∧ s'.kernel r = s.kernel r := by
  have hsound := run_sound hexclusive h
  refine ⟨fun pid fd server hserver hphase => ?_,
    fun pid server addr hserver hphase haddr =>
      ⟨fun hfree => hsound.takes_over havailable hserver hphase haddr hfree,
        fun q predecessor hq hne hholder =>
          hsound.succeeds hexclusive havailable hserver hphase haddr hq hne hholder⟩⟩
  have htracks := hsound.tracks pid server hserver
  rw [Tracks, hphase] at htracks
  obtain ⟨addr, dns, sock, haddr, -, -, hrow, hcontrol⟩ := htracks
  have hsock : s.kernel pid fd = some sock := by rw [hrow, Function.update_self]
  obtain ⟨a, ha⟩ := Option.ne_none_iff_exists'.mp hcontrol.isBound
  refine ⟨addr, sock, a, haddr, hsock, ha, hcontrol.bound a ha, ?_⟩
  intro q fd' t b hne ht hkind hlistens hb hoverlap
  obtain ⟨hport, -⟩ := hsound.shared.listening pid fd sock a q fd' t b hne.symm hsock ht
    (hcontrol.kind.trans hkind.symm) hcontrol.listens hlistens ha hb hoverlap
  rw [hcontrol.reusePort] at hport
  cases hport

theorem sampleConfig_controlAddr :
    sampleConfig.controlAddr = .ok ⟨.v4 0x7f000001, 19090, 0⟩ := by
  decide +kernel

/-- A server on a quiet host serves its control plane, and nobody else listens there. -/
theorem control_port_exclusive_sample :
    ∃ moves s fd server, Run (Step sampleSite sampleBind) boot moves s ∧ s.servers 1 = some server ∧
      server.phase = .serving fd ∧
      ∃ addr sock a, server.config.controlAddr = .ok addr ∧ s.kernel 1 fd = some sock ∧
        sock.addr = some a ∧ Resolves addr a ∧
        ∀ q fd' t b, (q, fd') ≠ (1, fd) → s.kernel q fd' = some t → t.kind = .stream →
          t.backlog ≠ none → t.addr = some b → a.port ≠ b.port := by
  have hboot : Run (Step sampleSite sampleBind) boot [] boot := .nil
  obtain ⟨moves₁, s₁, hrun₁, hserver, hlistening, hothers⟩ :=
    (run_sound sampleBind_exclusive hboot).comes_up (show boot.servers 1 = none from rfl) rfl
      sampleConfig_wanted fun _ _ _ _ _ _ ht => (nomatch ht)
  obtain ⟨wanted, fds, hwanted, hholding⟩ := hlistening
  cases sampleConfig_wanted.symm.trans hwanted
  obtain ⟨fd, -, hfd⟩ := hholding.room room_empty 0
  have hphase : sampleConfig.startControlPlane sampleBind =
      attempt (sampleBind ⟨.v4 0x7f000001, 19090, 0⟩) := by
    rw [Deployed.startControlPlane, sampleConfig_controlAddr]
    rfl
  rw [hphase] at hserver
  obtain ⟨moves₂, s₂, fd, hrun₂, hserving, -⟩ := attempt_can (S := sampleSite)
    sampleBind_available ⟨sampleConfig, .dark, false⟩ hserver ⟨fd, hfd⟩
    fun q fd' t b ht _ hb => by
      by_cases hq : q = 1
      · subst hq
        -- the DNS sockets are on port 53
        rcases hholding.entry ht with ⟨-, addr, kind, hmem, hready⟩ | ⟨-, hnone⟩
        · obtain ⟨b', hb', hresolves⟩ := hready.bound
          cases hb.symm.trans hb'
          rcases List.mem_pair.mp hmem with hw | hw
          all_goals
            cases hw
            rcases hresolves with rfl | hport
            · exact (by decide : ¬ (19090 : UInt16) = 53)
            · exact absurd hport (by decide)
        · cases hnone
      · rw [(hothers q hq).2] at ht
        cases ht
  have hrun := (hboot.trans hrun₁).trans hrun₂
  obtain ⟨hserves, -⟩ := control_port_exclusive sampleBind_exclusive sampleBind_available hrun
  exact ⟨_, s₂, fd, _, hrun, hserving, rfl, hserves 1 fd _ hserving rfl⟩

end Overlap

end DoggyDns
