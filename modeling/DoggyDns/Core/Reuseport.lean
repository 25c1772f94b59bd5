import DoggyDns.Basic.Net
import DoggyDns.Lib.ReprC
import DoggyDns.Lib.Sockets

/-!
# Sockets that a restart can share

`reuseport.rs`: create, arm and bind a socket. Every socket asks for
`SO_REUSEPORT` before its `bind`, and one function closes the descriptor on
every failure between `socket` and the transfer of ownership. The address goes
to the kernel as the bytes of a `sockaddr`, on a machine of either byte order.
-/

namespace DoggyDns

open Sockets ReprC Bytes

/-! ## Addresses as bytes -/

def AF_INET : Nat := 2

def AF_INET6 : Nat := 10

def SocketAddr.domain (addr : SocketAddr) : Domain :=
  match addr.ip with
  | .v4 _ => .inet
  | .v6 _ => .inet6

/-- The `sockaddr_in` or `sockaddr_in6` that `bind_raw` fills in. -/
def SocketAddr.sockaddr (e : Endian) (addr : SocketAddr) : List UInt8 :=
  match addr.ip with
  | .v4 ip =>
    native e 2 AF_INET ++ (native e 2 (toBe e 2 addr.port.toNat) ++
      (native e 4 (ofNative e (native .big 4 ip.toNat)) ++ List.replicate 8 0))
  | .v6 ip =>
    native e 2 AF_INET6 ++ (native e 2 (toBe e 2 addr.port.toNat) ++ (native e 4 0 ++
      (native .big 16 ip.toNat ++ (native e 4 0))))

/-- How the kernel reads a `sockaddr`: port and address in network order. -/
def readSockaddr (e : Endian) (domain : Domain) (bytes : List UInt8) : Option SocketAddr :=
  let family := ofNative e (slice bytes 0 2)
  let port := UInt16.ofNat (ofNative .big (slice bytes 2 2))
  match domain with
  | .inet =>
    if 16 ≤ bytes.length ∧ family = AF_INET then
      some ⟨.v4 (BitVec.ofNat 32 (ofNative .big (slice bytes 4 4))), port, 0⟩
    else none
  | .inet6 =>
    if 28 ≤ bytes.length ∧ family = AF_INET6 then
      some ⟨.v6 (BitVec.ofNat 128 (ofNative .big (slice bytes 8 16))), port,
        UInt32.ofNat (ofNative e (slice bytes 24 4))⟩
    else none

theorem slice_append_left {u v : List UInt8} {n : Nat} (h : u.length = n) :
    slice (u ++ v) 0 n = u := by
  rw [slice, List.drop_zero, ← h]
  exact List.take_left

theorem slice_append_right {u v : List UInt8} {i j n : Nat} (h : u.length = i) :
    slice (u ++ v) (i + j) n = slice v j n := by
  rw [slice, ← List.drop_drop, ← h, List.drop_left, slice]

/-- The kernel reads the configured address out of the bytes it is handed, without a scope. -/
theorem readSockaddr_sockaddr (e : Endian) (addr : SocketAddr) :
    readSockaddr e addr.domain (addr.sockaddr e) = some { addr with scopeId := 0 } := by
  obtain ⟨ip, port, scopeId⟩ := addr
  have hport : UInt16.ofNat (port.toNat % 256 ^ 2) = port := by
    rw [Nat.mod_eq_of_lt (show port.toNat < 256 ^ 2 from port.toNat_lt), UInt16.ofNat_toNat]
  cases ip with
  | v4 ip =>
    have hip : BitVec.ofNat 32 (ip.toNat % 256 ^ 4) = ip := by
      rw [Nat.mod_eq_of_lt (show ip.toNat < 256 ^ 4 from ip.isLt), BitVec.ofNat_toNat,
        BitVec.setWidth_eq]
    simp only [SocketAddr.domain, SocketAddr.sockaddr, readSockaddr, native_toBe]
    rw [native_ofNative e (length_native .big 4 _), if_pos]
    · rw [slice_append_right (j := 0) (length_native e 2 _), slice_append_left (length_native ..),
        slice_append_right (j := 2) (length_native e 2 _),
        slice_append_right (j := 0) (length_native .big 2 _), slice_append_left (length_native ..),
        ofNative_native, ofNative_native, hport, hip]
    · refine ⟨by simp, ?_⟩
      rw [slice_append_left (length_native ..), ofNative_native]
      rfl
  | v6 ip =>
    have hip : BitVec.ofNat 128 (ip.toNat % 256 ^ 16) = ip := by
      rw [Nat.mod_eq_of_lt (show ip.toNat < 256 ^ 16 from ip.isLt), BitVec.ofNat_toNat,
        BitVec.setWidth_eq]
    simp only [SocketAddr.domain, SocketAddr.sockaddr, readSockaddr, native_toBe]
    rw [if_pos]
    · rw [slice_append_right (j := 0) (length_native e 2 _), slice_append_left (length_native ..),
        slice_append_right (j := 6) (length_native e 2 _),
        slice_append_right (j := 4) (length_native .big 2 _),
        slice_append_right (j := 0) (length_native e 4 _), slice_append_left (length_native ..),
        slice_append_right (j := 22) (length_native e 2 _),
        slice_append_right (j := 20) (length_native .big 2 _),
        slice_append_right (j := 16) (length_native e 4 _),
        slice_append_right (j := 0) (length_native .big 16 _), slice,
        List.drop_zero, List.take_of_length_le (by rw [length_native]),
        ofNative_native, ofNative_native, ofNative_native, hport, hip]
      rfl
    · refine ⟨by simp, ?_⟩
      rw [slice_append_left (length_native ..), ofNative_native]
      rfl

/-! ## The calls -/

/-- What the server asks the runtime and the file system while it opens its sockets. -/
inductive Ask where
  /-- `from_std`: register the descriptor with the runtime. -/
  | fromStd (fd : Nat)
  /-- A step on the way from the configured files to a TLS configuration. -/
  | material (step : String)
  /-- `register_tls_listener_with_tls_config` and its HTTPS sibling. -/
  | registerListener (fd : Nat)

abbrev Io := Prog Ask

abbrev Fallible := ExceptT Error Io

def LISTEN_BACKLOG : Nat := 128

def SOL_SOCKET : Nat := 1

def O_NONBLOCK : Nat := 2048

def soName : SockOpt → Nat
  | .reuseAddr => 2
  | .reusePort => 15

/-- `io::Error::last_os_error`, by its number: a failed call gives the negated `errno`. -/
def lastOsError (ret : Int) : String := s!"os error {-ret}"

/-- A call whose negative result is an error. -/
def check (c : Sys Ask) (message : String) : Fallible Int := ExceptT.mk do
  let ret ← Prog.call c
  if ret < 0 then return .error [message, lastOsError ret] else return .ok ret

def setSockoptInt (fd : Nat) (name : SockOpt) : Fallible Unit := do
  let number := soName name
  let _ ← check (.setsockopt fd name) s!"setsockopt(level={SOL_SOCKET}, name={number}) failed"

def setReuseAddr (fd : Nat) : Fallible Unit := setSockoptInt fd .reuseAddr

def setReusePort (fd : Nat) : Fallible Unit := setSockoptInt fd .reusePort

def setNonblocking (fd : Nat) : Fallible Unit := do
  let flags ← check (.getfl fd) "fcntl(F_GETFL) failed"
  let _ ← check (.setfl fd (flags.toNat ||| O_NONBLOCK)) "fcntl(F_SETFL, O_NONBLOCK) failed"

def bindRaw (e : Endian) (fd : Nat) (addr : SocketAddr) : Fallible Unit := do
  let _ ← check (.bind fd (addr.sockaddr e)) "libc::bind() failed"

def listenRaw (fd backlog : Nat) : Fallible Unit := do
  let _ ← check (.listen fd backlog) s!"libc::listen(backlog={backlog}) failed"

def arm (e : Endian) (fd : Nat) (addr : SocketAddr) (sockType : Kind) : Fallible Unit := do
  setReuseAddr fd
  setReusePort fd
  setNonblocking fd
  bindRaw e fd addr
  if sockType = .stream then listenRaw fd LISTEN_BACKLOG

/-- Create, arm and bind a socket. -/
def bindRawSocket (e : Endian) (addr : SocketAddr) (sockType : Kind) : Io (Except Error Nat) := do
  let fd ← Prog.call (.socket addr.domain sockType)
  if fd < 0 then return .error ["libc::socket() failed", lastOsError fd]
  match ← (arm e fd.toNat addr sockType).run with
  | .error err =>
    let _ ← Prog.call (.close fd.toNat)
    return .error err
  | .ok () => return .ok fd.toNat

/-- Hand the descriptor to an owner that may refuse it; a refused one is dropped. -/
def adopt (ask : Ask) (fd : Nat) (err : Error) : Io (Except Error Nat) := do
  let ret ← Prog.call (.ask ask)
  if ret < 0 then
    let _ ← Prog.call (.close fd)
    return .error (err ++ [lastOsError ret])
  return .ok fd

def bindUdp (e : Endian) (addr : SocketAddr) : Io (Except Error Nat) := do
  match ← bindRawSocket e addr .dgram with
  | .error err =>
    let shown := addr.display
    return .error (s!"failed to bind UDP socket with SO_REUSEPORT on {shown}" :: err)
  | .ok fd => adopt (.fromStd fd) fd ["failed to register the UDP socket with the runtime"]

def bindTcp (e : Endian) (addr : SocketAddr) : Io (Except Error Nat) := do
  match ← bindRawSocket e addr .stream with
  | .error err =>
    let shown := addr.display
    return .error (s!"failed to bind TCP listener with SO_REUSEPORT on {shown}" :: err)
  | .ok fd => adopt (.fromStd fd) fd ["failed to register the TCP listener with the runtime"]

/-! ## What they leave behind -/

/-- The host: its byte order, which addresses clash, and who runs what. -/
structure Site where
  endian : Endian
  overlap : SocketAddr → SocketAddr → Prop
  overlap_symm : ∀ {a b}, overlap a b → overlap b a
  uid : Nat → Nat

def Site.net (S : Site) : Net SocketAddr where
  decode := readSockaddr S.endian
  anyPort a := a.port = 0
  overlap := S.overlap
  overlap_symm := S.overlap_symm
  uid := S.uid

/-- `a` is the address asked for, or one with a port of the kernel's choice. -/
def Resolves (addr a : SocketAddr) : Prop := a = { addr with scopeId := 0 } ∨ addr.port = 0

/-- A socket that a restart can share. -/
structure Ready (addr : SocketAddr) (sockType : Kind) (s : Socket SocketAddr) : Prop where
  kind : s.kind = sockType
  reuseAddr : s.reuseAddr = true
  reusePort : s.reusePort = true
  nonblocking : s.flags &&& O_NONBLOCK = O_NONBLOCK
  bound : ∃ a, s.addr = some a ∧ Resolves addr a
  backlog : s.backlog = if sockType = .stream then some LISTEN_BACKLOG else none

/-- A socket asks to share its address before it gets one. -/
def Armed (row : Row SocketAddr) : Sys Ask → Prop
  | .bind fd _ => ∃ s, row fd = some s ∧ s.reuseAddr ∧ s.reusePort
  | .listen fd _ => ∃ s, row fd = some s ∧ s.reuseAddr ∧ s.reusePort
  | _ => True

/-- Every socket with an address asked to share it. -/
def Grouped (row : Row SocketAddr) : Prop :=
  ∀ fd s, row fd = some s → s.addr ≠ none → s.reuseAddr ∧ s.reusePort

/-- An error leaves the descriptors as they were, a result adds one. -/
def Opened (ρ : Row SocketAddr) (P : Socket SocketAddr → Prop) :
    Except Error Nat → Row SocketAddr → Prop
  | .error _, row => row = ρ
  | .ok fd, row => ρ fd = none ∧ ∃ s, row = Function.update ρ fd (some s) ∧ P s

section
variable {S : Site} {ρ row : Row SocketAddr} {ok : Row SocketAddr → Sys Ask → Prop}
  {addr : SocketAddr} {kind : Kind} {fd : Nat} {s : Socket SocketAddr}

theorem wp_seq {α β : Type} {x : Fallible α} {f : α → Fallible β}
    {post : Except Error β → Row SocketAddr → Prop} :
    (x >>= f).run.wp S.net ok post row ↔
      x.run.wp S.net ok (fun r row => match r with
        | .ok a => (f a).run.wp S.net ok post row
        | .error e => post (.error e) row) row := by
  show (x.run >>= ExceptT.bindCont f : Io _).wp S.net ok post row ↔ _
  rw [Prog.wp_bind]
  refine Iff.of_eq (congrArg (fun p => x.run.wp S.net ok p row) ?_)
  funext r row
  cases r <;> rfl

/-- Calls that are made as they should be leave no bound socket outside of the group. -/
theorem Grouped.exec {c : Sys Ask} {r : Int} {row' : Row SocketAddr} (h : Grouped row)
    (harmed : Armed row c) (hexec : RowExec S.net row c r row') : Grouped row' := by
  intro fd s' hs' hbound
  cases hexec with
  | fail | setBound | getfl | ask => exact h fd s' hs' hbound
  | socket =>
    rcases eq_or_of_update hs' with ⟨rfl, hnew⟩ | hs'
    · cases hnew
      exact absurd rfl hbound
    · exact h fd s' hs' hbound
  | @setsockopt _ s name hs haddr =>
    rcases eq_or_of_update hs' with ⟨rfl, hnew⟩ | hs'
    · cases hnew
      refine absurd ?_ hbound
      cases name <;> exact haddr
    · exact h fd s' hs' hbound
  | setfl hs =>
    rcases eq_or_of_update hs' with ⟨rfl, hnew⟩ | hs'
    · cases hnew
      have hold := h fd _ hs
      exact hold hbound
    · exact h fd s' hs' hbound
  | bind hs | listen hs =>
    rcases eq_or_of_update hs' with ⟨rfl, hnew⟩ | hs'
    · cases hnew
      obtain ⟨t, ht, hreuse⟩ := harmed
      cases hs.symm.trans ht
      exact hreuse
    · exact h fd s' hs' hbound
  | close =>
    rcases eq_or_of_update hs' with ⟨rfl, hnew⟩ | hs'
    · cases hnew
    · exact h fd s' hs' hbound

theorem update_closed {x : Option (Socket SocketAddr)} (h : ρ fd = none) :
    Function.update (Function.update ρ fd x) fd none = ρ := by
  rw [Function.update_idem, ← h, Function.update_eq_self]

section
variable {post : Except Error Unit → Row SocketAddr → Prop}

theorem wp_setSockoptInt {name : SockOpt} (hs : row fd = some s) (haddr : s.addr = none)
    (hok : ok row (.setsockopt fd name)) (hfail : ∀ e, post (.error e) row)
    (hset : post (.ok ()) (Function.update row fd (some (s.set name)))) :
    (setSockoptInt fd name).run.wp S.net ok post row := by
  refine wp_seq.mpr (Prog.wp_setsockopt hs haddr hok (fun r hr => ?_) hset)
  rw [if_pos hr]
  exact hfail _

theorem wp_setNonblocking (hs : row fd = some s) (hfail : ∀ e, post (.error e) row)
    (hset : post (.ok ())
      (Function.update row fd (some { s with flags := s.flags ||| O_NONBLOCK }))) :
    (setNonblocking fd).run.wp S.net Armed post row := by
  refine wp_seq.mpr (Prog.wp_getfl hs trivial (fun r hr => ?_) ?_)
  · rw [if_pos hr]
    exact hfail _
  · rw [if_neg (Int.not_lt.mpr (Int.natCast_nonneg _))]
    refine wp_seq.mpr (Prog.wp_setfl hs trivial (fun r hr => ?_) hset)
    rw [if_pos hr]
    exact hfail _

theorem wp_bindRaw (hs : row fd = some s) (hdomain : s.domain = addr.domain)
    (hok : ok row (.bind fd (addr.sockaddr S.endian))) (hfail : ∀ e, post (.error e) row)
    (hbind : ∀ a, Resolves addr a →
      post (.ok ()) (Function.update row fd (some { s with addr := some a }))) :
    (bindRaw S.endian fd addr).run.wp S.net ok post row := by
  have hdecode : S.net.decode s.domain (addr.sockaddr S.endian) =
      some { addr with scopeId := 0 } := by
    rw [hdomain]
    exact readSockaddr_sockaddr S.endian addr
  refine wp_seq.mpr (Prog.wp_bindTo hs hdecode hok (fun r hr => ?_) hbind)
  rw [if_pos hr]
  exact hfail _

theorem wp_listenRaw {backlog : Nat} {a : SocketAddr} (hs : row fd = some s)
    (haddr : s.addr = some a) (hok : ok row (.listen fd backlog))
    (hfail : ∀ e, post (.error e) row)
    (hlisten : post (.ok ()) (Function.update row fd (some { s with backlog := some backlog }))) :
    (listenRaw fd backlog).run.wp S.net ok post row := by
  refine wp_seq.mpr (Prog.wp_listen hs haddr hok (fun r hr => ?_) hlisten)
  rw [if_pos hr]
  exact hfail _

end

/-- Whatever fails, only the socket's own entry has changed. -/
theorem arm_wp :
    (arm S.endian fd addr kind).run.wp S.net Armed
      (fun r row => (∃ s, row = Function.update ρ fd (some s)) ∧
        (r = .ok () → ∃ s, row = Function.update ρ fd (some s) ∧ Ready addr kind s))
      (Function.update ρ fd (some { domain := addr.domain, kind })) := by
  have herror : ∀ (e : Error) s,
      (∃ s', Function.update ρ fd (some s) = Function.update ρ fd (some s')) ∧
      ((.error e : Except Error Unit) = .ok () →
        ∃ s', Function.update ρ fd (some s) = Function.update ρ fd (some s') ∧
          Ready addr kind s') :=
    fun e s => ⟨⟨s, rfl⟩, fun h => (nomatch h)⟩
  have hself : ∀ s : Socket SocketAddr, Function.update ρ fd (some s) fd = some s := fun s =>
    Function.update_self ..
  unfold arm
  refine wp_seq.mpr (wp_setSockoptInt (hself _) rfl trivial (fun e => herror e _) ?_)
  simp only [Function.update_idem]
  refine wp_seq.mpr (wp_setSockoptInt (hself _) rfl trivial (fun e => herror e _) ?_)
  simp only [Function.update_idem]
  refine wp_seq.mpr (wp_setNonblocking (hself _) (fun e => herror e _) ?_)
  simp only [Function.update_idem]
  refine wp_seq.mpr (wp_bindRaw (hself _) rfl ⟨_, hself _, rfl, rfl⟩ (fun e => herror e _)
    fun a ha => ?_)
  simp only [Function.update_idem]
  have hflags : (2 ||| O_NONBLOCK) &&& O_NONBLOCK = O_NONBLOCK := by decide
  cases kind with
  | stream =>
    refine wp_listenRaw (hself _) rfl ⟨_, hself _, rfl, rfl⟩ (fun e => herror e _) ?_
    simp only [Function.update_idem]
    exact ⟨⟨_, rfl⟩, fun _ => ⟨_, rfl, ⟨rfl, rfl, rfl, hflags, ⟨a, rfl, ha⟩, rfl⟩⟩⟩
  | dgram => exact ⟨⟨_, rfl⟩, fun _ => ⟨_, rfl, ⟨rfl, rfl, rfl, hflags, ⟨a, rfl, ha⟩, rfl⟩⟩⟩

/-- One function owns the `close` on every failure behind `socket`. -/
theorem bindRawSocket_wp :
    (bindRawSocket S.endian addr kind).wp S.net Armed (Opened ρ (Ready addr kind)) ρ := by
  refine Prog.wp_socket trivial (fun r hr => ?_) fun fd hnew => ?_
  · rw [if_pos hr]
    exact rfl
  · rw [if_neg (Int.not_lt.mpr (Int.natCast_nonneg _))]
    refine Prog.wp_bind.mpr (Prog.wp_mono (fun _ _ h => h) ?_ arm_wp)
    rintro r row ⟨⟨s, rfl⟩, hready⟩
    rcases r with e | ⟨⟩
    · refine Prog.wp_close trivial fun _ => ?_
      exact update_closed hnew
    · obtain ⟨s', hs', hready⟩ := hready rfl
      exact ⟨hnew, s', hs', hready⟩

theorem adopt_wp {P : Socket SocketAddr → Prop} {ask : Ask} {err : Error}
    (h : Opened ρ P (.ok fd) row) :
    (adopt ask fd err).wp S.net Armed (Opened ρ P) row := by
  obtain ⟨hnew, s, rfl, hs⟩ := h
  refine Prog.wp_ask trivial fun r => ?_
  split
  · refine Prog.wp_close trivial fun _ => ?_
    exact update_closed hnew
  · exact ⟨hnew, s, rfl, hs⟩

theorem bindUdp_wp :
    (bindUdp S.endian addr).wp S.net Armed (Opened ρ (Ready addr .dgram)) ρ := by
  refine Prog.wp_bind.mpr (Prog.wp_mono (fun _ _ h => h) ?_ bindRawSocket_wp)
  intro r row h
  cases r with
  | error e => exact h
  | ok fd => exact adopt_wp h

theorem bindTcp_wp :
    (bindTcp S.endian addr).wp S.net Armed (Opened ρ (Ready addr .stream)) ρ := by
  refine Prog.wp_bind.mpr (Prog.wp_mono (fun _ _ h => h) ?_ bindRawSocket_wp)
  intro r row h
  cases r with
  | error e => exact h
  | ok fd => exact adopt_wp h

/-! ## Coming through -/

section
variable {p : Nat} {k : Kernel SocketAddr} {ρ₁ ρ' : Row SocketAddr}

theorem can_seq {α β : Type} {x : Fallible α} {f : α → Fallible β} {a : α} {r : Except Error β}
    (hx : Can S.net p k x.run ρ (.ok a) ρ₁) (hf : Can S.net p k (f a).run ρ₁ r ρ') :
    Can S.net p k (x >>= f).run ρ r ρ' :=
  Can.bind hx hf

/-- A socket of `p` itself is welcome next to those of the group. -/
theorem welcome_update {a : SocketAddr} (h : Welcome S.net p (Function.update k p ρ) kind a)
    (hs : s.addr = none ∨ s.reusePort = true) :
    Welcome S.net p (Function.update k p (Function.update ρ fd (some s))) kind a := by
  intro q fd' t b ht hkind hb hoverlap
  by_cases hq : q = p
  · subst hq
    rw [Function.update_self] at ht
    rcases eq_or_of_update ht with ⟨rfl, hnew⟩ | ht
    · cases hnew
      rcases hs with hs | hs
      · cases hs.symm.trans hb
      · exact ⟨hs, rfl⟩
    · exact h q fd' t b (by rwa [Function.update_self]) hkind hb hoverlap
  · rw [Function.update_of_ne hq] at ht
    exact h q fd' t b (by rwa [Function.update_of_ne hq]) hkind hb hoverlap

theorem can_check {c : Sys Ask} {message : String} {r : Int} {ρ₁ : Row SocketAddr}
    (hquiet : c.Quiet) (hrow : RowExec S.net ρ c r ρ₁) (hr : ¬r < 0) :
    Can S.net p k (check c message).run ρ (.ok r) ρ₁ := by
  refine Can.quiet hquiet hrow ?_
  rw [if_neg hr]
  exact .ret

theorem can_setSockoptInt {name : SockOpt} (hs : ρ fd = some s) (haddr : s.addr = none) :
    Can S.net p k (setSockoptInt fd name).run ρ (.ok ())
      (Function.update ρ fd (some (s.set name))) :=
  can_seq (can_check trivial (.setsockopt hs haddr) (by decide)) .ret

theorem can_setNonblocking (hs : ρ fd = some s) :
    Can S.net p k (setNonblocking fd).run ρ (.ok ())
      (Function.update ρ fd (some { s with flags := s.flags ||| O_NONBLOCK })) :=
  can_seq (can_check trivial (.getfl hs) (Int.not_lt.mpr (Int.natCast_nonneg _)))
    (can_seq (can_check trivial (.setfl hs) (by decide)) .ret)

theorem can_bindRaw (hs : ρ fd = some s) (haddr : s.addr = none) (hdomain : s.domain = addr.domain)
    (hclear : ∀ q fd' t, Function.update k p ρ q fd' = some t →
      ¬ Blocks S.net p s { addr with scopeId := 0 } q t) :
    Can S.net p k (bindRaw S.endian fd addr).run ρ (.ok ())
      (Function.update ρ fd (some { s with addr := some { addr with scopeId := 0 } })) := by
  have hdecode : S.net.decode s.domain (addr.sockaddr S.endian) =
      some { addr with scopeId := 0 } := by
    rw [hdomain]
    exact readSockaddr_sockaddr S.endian addr
  exact can_seq (Can.bindTo hs haddr hdecode hclear .ret) .ret

theorem can_listenRaw {backlog : Nat} {b : SocketAddr} (hs : ρ fd = some s)
    (hkind : s.kind = .stream) (haddr : s.addr = some b)
    (hshare : ∀ q fd' t d, (q, fd') ≠ (p, fd) → Function.update k p ρ q fd' = some t →
      t.kind = s.kind → t.addr = some d → S.overlap b d →
      s.reusePort ∧ t.reusePort ∧ S.uid p = S.uid q) :
    Can S.net p k (listenRaw fd backlog).run ρ (.ok ())
      (Function.update ρ fd (some { s with backlog := some backlog })) :=
  can_seq (Can.listen hs hkind haddr hshare .ret) .ret

/-- What a successful `bind_raw_socket` has made. -/
def readySocket (addr : SocketAddr) (kind : Kind) : Socket SocketAddr where
  domain := addr.domain
  kind := kind
  reuseAddr := true
  reusePort := true
  flags := 2 ||| O_NONBLOCK
  addr := some { addr with scopeId := 0 }
  backlog := if kind = .stream then some LISTEN_BACKLOG else none

theorem readySocket_ready : Ready addr kind (readySocket addr kind) where
  kind := rfl
  reuseAddr := rfl
  reusePort := rfl
  nonblocking := show (2 ||| O_NONBLOCK) &&& O_NONBLOCK = O_NONBLOCK by decide
  bound := ⟨_, rfl, .inl rfl⟩
  backlog := rfl

theorem arm_can
    (hwelcome : Welcome S.net p (Function.update k p ρ) kind { addr with scopeId := 0 }) :
    Can S.net p k (arm S.endian fd addr kind).run
      (Function.update ρ fd (some { domain := addr.domain, kind })) (.ok ())
      (Function.update ρ fd (some (readySocket addr kind))) := by
  have hself : ∀ s : Socket SocketAddr, Function.update ρ fd (some s) fd = some s := fun s =>
    Function.update_self ..
  unfold arm
  refine can_seq (can_setSockoptInt (hself _) rfl) ?_
  rw [Function.update_idem]
  refine can_seq (can_setSockoptInt (hself _) rfl) ?_
  rw [Function.update_idem]
  refine can_seq (can_setNonblocking (hself _)) ?_
  rw [Function.update_idem]
  refine can_seq (can_bindRaw (hself _) rfl rfl (Welcome.not_blocks ?_ rfl)) ?_
  · exact welcome_update hwelcome (.inl rfl)
  rw [Function.update_idem]
  cases kind with
  | stream =>
    have hlisten : Can S.net p k (listenRaw fd LISTEN_BACKLOG).run _ (.ok ()) _ :=
      can_listenRaw (hself { readySocket addr .stream with backlog := none }) rfl rfl
        fun q fd' t d _ ht hkind hd hoverlap =>
          ⟨rfl, welcome_update hwelcome (.inr rfl) q fd' t d ht hkind hd hoverlap⟩
    rw [Function.update_idem] at hlisten
    exact hlisten
  | dgram => exact .ret

theorem bindRawSocket_can (hfd : ρ fd = none)
    (hwelcome : Welcome S.net p (Function.update k p ρ) kind { addr with scopeId := 0 }) :
    Can S.net p k (bindRawSocket S.endian addr kind) ρ (.ok fd)
      (Function.update ρ fd (some (readySocket addr kind))) := by
  refine Can.quiet trivial (.socket hfd) ?_
  rw [if_neg (Int.not_lt.mpr (Int.natCast_nonneg _))]
  exact Can.bind (arm_can hwelcome) .ret

theorem adopt_can {ask : Ask} {err : Error} :
    Can S.net p k (adopt ask fd err) ρ (.ok fd) ρ := by
  have hrow : RowExec S.net ρ (.ask ask) 0 ρ := .ask
  exact Can.quiet trivial hrow .ret

theorem bindUdp_can (hfd : ρ fd = none)
    (hwelcome : Welcome S.net p (Function.update k p ρ) .dgram { addr with scopeId := 0 }) :
    Can S.net p k (bindUdp S.endian addr) ρ (.ok fd)
      (Function.update ρ fd (some (readySocket addr .dgram))) :=
  Can.bind (bindRawSocket_can hfd hwelcome) adopt_can

theorem bindTcp_can (hfd : ρ fd = none)
    (hwelcome : Welcome S.net p (Function.update k p ρ) .stream { addr with scopeId := 0 }) :
    Can S.net p k (bindTcp S.endian addr) ρ (.ok fd)
      (Function.update ρ fd (some (readySocket addr .stream))) :=
  Can.bind (bindRawSocket_can hfd hwelcome) adopt_can

end

end

end DoggyDns
