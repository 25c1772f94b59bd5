import DoggyDns.Lib.Run
import Mathlib.Logic.Function.Basic

/-!
# Sockets of one host

The socket calls of any number of processes, as `socket(7)`, `bind(2)` and
`listen(2)` document them: options count from before the bind, and an address
is shared only by sockets that all asked for it, of one user. A call may fail
for any reason of the kernel's own; `EADDRINUSE` has a socket behind it.

`Prog` is a program over these calls, and `Prog.wp` its precondition against
what the process can see, its own descriptors (`RowExec`). Other processes
enter only in whether a call succeeds, so what `wp` promises of a program holds
of a process that runs it among others (`Exec.wp`).
-/

namespace Sockets

inductive Domain where
  | inet
  | inet6
  deriving DecidableEq, Repr

inductive Kind where
  | stream
  | dgram
  deriving DecidableEq, Repr

inductive SockOpt where
  | reuseAddr
  | reusePort
  deriving DecidableEq, Repr

/-- A call; `ask` is one that concerns no socket. -/
inductive Sys (Q : Type) where
  | socket (domain : Domain) (kind : Kind)
  | setsockopt (fd : Nat) (name : SockOpt)
  | getfl (fd : Nat)
  | setfl (fd flags : Nat)
  | bind (fd : Nat) (sockaddr : List UInt8)
  | listen (fd backlog : Nat)
  | close (fd : Nat)
  | ask (q : Q)

structure Socket (Addr : Type) where
  domain : Domain
  kind : Kind
  reuseAddr : Bool := false
  reusePort : Bool := false
  flags : Nat := 2
  /-- Where it is bound. -/
  addr : Option Addr := none
  /-- Of a listening socket. -/
  backlog : Option Nat := none

section
variable {Addr Q α β : Type}

def Socket.set (s : Socket Addr) : SockOpt → Socket Addr
  | .reuseAddr => { s with reuseAddr := true }
  | .reusePort => { s with reusePort := true }

/-- The descriptors of one process. -/
abbrev Row (Addr : Type) := Nat → Option (Socket Addr)

/-- The descriptors of all processes. -/
abbrev Kernel (Addr : Type) := Nat → Row Addr

/-- What a host is like. -/
structure Net (Addr : Type) where
  /-- How the kernel reads a `sockaddr`. -/
  decode : Domain → List UInt8 → Option Addr
  /-- The port is left to the kernel. -/
  anyPort : Addr → Prop
  overlap : Addr → Addr → Prop
  overlap_symm : ∀ {a b}, overlap a b → overlap b a
  /-- The effective user of a process. -/
  uid : Nat → Nat

variable (N : Net Addr)

/-! ## The kernel -/

/-- What a call does to the descriptors of its process; a failure is the negated `errno`. -/
inductive RowExec : Row Addr → Sys Q → Int → Row Addr → Prop where
  | fail {row : Row Addr} {c : Sys Q} {r : Int} : r < 0 → (∀ fd, c ≠ .close fd) →
    RowExec row c r row
  | socket {row : Row Addr} {fd : Nat} {domain : Domain} {kind : Kind} : row fd = none →
    RowExec row (.socket domain kind) fd
      (Function.update row fd (some { domain, kind }))
  | setsockopt {row : Row Addr} {fd : Nat} {s : Socket Addr} {name : SockOpt} : row fd = some s →
    s.addr = none →
    RowExec row (.setsockopt fd name) 0 (Function.update row fd (some (s.set name)))
  -- too late to have a say in who shares the address
  | setBound {row : Row Addr} {fd : Nat} {s : Socket Addr} {name : SockOpt} : row fd = some s →
    s.addr ≠ none → RowExec row (.setsockopt fd name) 0 row
  | getfl {row : Row Addr} {fd : Nat} {s : Socket Addr} : row fd = some s →
    RowExec row (.getfl fd) s.flags row
  | setfl {row : Row Addr} {fd flags : Nat} {s : Socket Addr} : row fd = some s →
    RowExec row (.setfl fd flags) 0 (Function.update row fd (some { s with flags }))
  | bind {row : Row Addr} {fd : Nat} {s : Socket Addr} {bytes : List UInt8} {asked a : Addr} :
    row fd = some s → s.addr = none → N.decode s.domain bytes = some asked →
    a = asked ∨ N.anyPort asked →
    RowExec row (.bind fd bytes) 0 (Function.update row fd (some { s with addr := some a }))
  | listen {row : Row Addr} {fd backlog : Nat} {s : Socket Addr} {a : Addr} : row fd = some s →
    s.kind = .stream → s.addr = some a ∨ s.addr = none →
    RowExec row (.listen fd backlog) 0
      (Function.update row fd (some { s with addr := some a, backlog := some backlog }))
  | close {row : Row Addr} {fd : Nat} {r : Int} :
    RowExec row (.close fd) r (Function.update row fd none)
  | ask {row : Row Addr} {q : Q} {r : Int} : RowExec row (.ask q) r row

/-- The socket `t` of process `q` keeps `s` of process `p` from binding to `a`. -/
structure Blocks (p : Nat) (s : Socket Addr) (a : Addr) (q : Nat) (t : Socket Addr) : Prop where
  kind : t.kind = s.kind
  overlap : ∃ b, t.addr = some b ∧ N.overlap a b
  port : ¬(s.reusePort ∧ t.reusePort ∧ N.uid p = N.uid q)
  addr : ¬(s.reuseAddr ∧ t.reuseAddr ∧ t.backlog = none)

def EADDRINUSE : Int := -98

/-- A call of process `p`. -/
structure Exec (p : Nat) (k : Kernel Addr) (c : Sys Q) (r : Int) (k' : Kernel Addr) : Prop where
  row : RowExec N (k p) c r (k' p)
  others : ∀ q, q ≠ p → k' q = k q
  /-- Nobody is in the way of a bind that goes through. -/
  admitted : ∀ fd bytes s s' a, c = .bind fd bytes → 0 ≤ r → k p fd = some s →
    k' p fd = some s' → s'.addr = some a →
    ∀ q fd' t, (q, fd') ≠ (p, fd) → k q fd' = some t → ¬ Blocks N p s a q t
  /-- Those who listen on one port all asked to share it. -/
  listening : ∀ fd backlog s' a, c = .listen fd backlog → 0 ≤ r → k' p fd = some s' →
    s'.addr = some a → ∀ q fd' t b, (q, fd') ≠ (p, fd) → k q fd' = some t → t.kind = s'.kind →
    t.backlog ≠ none → t.addr = some b → N.overlap a b →
    s'.reusePort ∧ t.reusePort ∧ N.uid p = N.uid q
  refused : ∀ fd bytes, c = .bind fd bytes → r = EADDRINUSE →
    ∃ s asked, k p fd = some s ∧ N.decode s.domain bytes = some asked ∧
      (N.anyPort asked ∨
        ∃ q fd' t, (q, fd') ≠ (p, fd) ∧ k q fd' = some t ∧ Blocks N p s asked q t)

/-! ## Programs -/

inductive Prog (Q α : Type) where
  | ret (a : α)
  | sys (c : Sys Q) (k : Int → Prog Q α)

namespace Prog

def bind : Prog Q α → (α → Prog Q β) → Prog Q β
  | ret a, f => f a
  | sys c k, f => sys c fun r => (k r).bind f

instance : Monad (Prog Q) where
  pure := ret
  bind := bind

def call (c : Sys Q) : Prog Q Int := sys c ret

/-- `post` holds wherever the program ends, and `ok` of every call when it is made. -/
def wp (ok : Row Addr → Sys Q → Prop) (post : α → Row Addr → Prop) : Prog Q α → Row Addr → Prop
  | ret a, row => post a row
  | sys c k, row => ok row c ∧ ∀ r row', RowExec N row c r row' → (k r).wp ok post row'

variable {N} {ok : Row Addr → Sys Q → Prop} {post : α → Row Addr → Prop} {row : Row Addr}

@[simp] theorem wp_ret {a : α} : (ret a).wp N ok post row ↔ post a row := Iff.rfl

@[simp] theorem wp_pure {a : α} : (pure a : Prog Q α).wp N ok post row ↔ post a row := Iff.rfl

theorem wp_call_bind {c : Sys Q} {f : Int → Prog Q α} :
    (call c >>= f).wp N ok post row ↔
      ok row c ∧ ∀ r row', RowExec N row c r row' → (f r).wp N ok post row' :=
  Iff.rfl

theorem wp_bind {p : Prog Q β} {f : β → Prog Q α} :
    (p >>= f).wp N ok post row ↔ p.wp N ok (fun b row => (f b).wp N ok post row) row := by
  show (p.bind f).wp N ok post row ↔ _
  induction p generalizing row with
  | ret b => exact Iff.rfl
  | sys c k ih =>
    exact and_congr_right fun _ => forall_congr' fun r => forall_congr' fun row' =>
      imp_congr_right fun _ => ih r

theorem wp_mono {p : Prog Q α} {ok' : Row Addr → Sys Q → Prop} {post' : α → Row Addr → Prop}
    (hok : ∀ row c, ok row c → ok' row c) (hpost : ∀ a row, post a row → post' a row)
    (h : p.wp N ok post row) : p.wp N ok' post' row := by
  induction p generalizing row with
  | ret a => exact hpost a row h
  | sys c k ih => exact ⟨hok row c h.1, fun r row' hr => ih r (h.2 r row' hr)⟩

/-! A rule for each call, for the program `f` that goes on with its result. -/

section
variable {f : Int → Prog Q α} {fd : Nat} {s : Socket Addr}

theorem wp_socket {domain : Domain} {kind : Kind} (hok : ok row (.socket domain kind))
    (hfail : ∀ r < 0, (f r).wp N ok post row)
    (hopen : ∀ fd : Nat, row fd = none →
      (f fd).wp N ok post (Function.update row fd (some { domain, kind }))) :
    (call (.socket domain kind) >>= f).wp N ok post row := by
  refine wp_call_bind.mpr ⟨hok, fun r row' h => ?_⟩
  cases h with
  | fail hr => exact hfail r hr
  | socket hnew => exact hopen _ hnew

theorem wp_setsockopt {name : SockOpt} (hs : row fd = some s) (haddr : s.addr = none)
    (hok : ok row (.setsockopt fd name)) (hfail : ∀ r < 0, (f r).wp N ok post row)
    (hset : (f 0).wp N ok post (Function.update row fd (some (s.set name)))) :
    (call (.setsockopt fd name) >>= f).wp N ok post row := by
  refine wp_call_bind.mpr ⟨hok, fun r row' h => ?_⟩
  cases h with
  | fail hr => exact hfail r hr
  | setsockopt h =>
    cases hs.symm.trans h
    exact hset
  | setBound h hbound =>
    cases hs.symm.trans h
    exact absurd haddr hbound

theorem wp_getfl (hs : row fd = some s) (hok : ok row (.getfl fd))
    (hfail : ∀ r < 0, (f r).wp N ok post row) (hget : (f s.flags).wp N ok post row) :
    (call (.getfl fd) >>= f).wp N ok post row := by
  refine wp_call_bind.mpr ⟨hok, fun r row' h => ?_⟩
  cases h with
  | fail hr => exact hfail r hr
  | getfl h =>
    cases hs.symm.trans h
    exact hget

theorem wp_setfl {flags : Nat} (hs : row fd = some s) (hok : ok row (.setfl fd flags))
    (hfail : ∀ r < 0, (f r).wp N ok post row)
    (hset : (f 0).wp N ok post (Function.update row fd (some { s with flags }))) :
    (call (.setfl fd flags) >>= f).wp N ok post row := by
  refine wp_call_bind.mpr ⟨hok, fun r row' h => ?_⟩
  cases h with
  | fail hr => exact hfail r hr
  | setfl h =>
    cases hs.symm.trans h
    exact hset

theorem wp_bindTo {bytes : List UInt8} {asked : Addr} (hs : row fd = some s)
    (hdecode : N.decode s.domain bytes = some asked) (hok : ok row (.bind fd bytes))
    (hfail : ∀ r < 0, (f r).wp N ok post row)
    (hbind : ∀ a, a = asked ∨ N.anyPort asked →
      (f 0).wp N ok post (Function.update row fd (some { s with addr := some a }))) :
    (call (.bind fd bytes) >>= f).wp N ok post row := by
  refine wp_call_bind.mpr ⟨hok, fun r row' h => ?_⟩
  cases h with
  | fail hr => exact hfail r hr
  | bind h _ hasked ha =>
    cases hs.symm.trans h
    cases hdecode.symm.trans hasked
    exact hbind _ ha

theorem wp_listen {backlog : Nat} {a : Addr} (hs : row fd = some s) (haddr : s.addr = some a)
    (hok : ok row (.listen fd backlog)) (hfail : ∀ r < 0, (f r).wp N ok post row)
    (hlisten : (f 0).wp N ok post
      (Function.update row fd (some { s with backlog := some backlog }))) :
    (call (.listen fd backlog) >>= f).wp N ok post row := by
  refine wp_call_bind.mpr ⟨hok, fun r row' h => ?_⟩
  cases h with
  | fail hr => exact hfail r hr
  | listen h _ ha =>
    cases hs.symm.trans h
    rcases ha with ha | ha
    · rw [← ha]
      exact hlisten
    · cases haddr.symm.trans ha

theorem wp_close (hok : ok row (.close fd))
    (hclose : ∀ r, (f r).wp N ok post (Function.update row fd none)) :
    (call (.close fd) >>= f).wp N ok post row := by
  refine wp_call_bind.mpr ⟨hok, fun r row' h => ?_⟩
  cases h with
  | fail _ hne => exact absurd rfl (hne fd)
  | close => exact hclose r

theorem wp_ask {q : Q} (hok : ok row (.ask q)) (hask : ∀ r, (f r).wp N ok post row) :
    (call (.ask q) >>= f).wp N ok post row := by
  refine wp_call_bind.mpr ⟨hok, fun r row' h => ?_⟩
  cases h with
  | fail => exact hask r
  | ask => exact hask r

end

end Prog

/-! ## What the kernel keeps -/

/-- Listening sockets are bound, and those that share a port all asked to, under one user. -/
structure Shared (k : Kernel Addr) : Prop where
  bound : ∀ p fd s, k p fd = some s → s.backlog ≠ none → s.addr ≠ none
  listening : ∀ p fd s a q fd' t b, (p, fd) ≠ (q, fd') → k p fd = some s → k q fd' = some t →
    s.kind = t.kind → s.backlog ≠ none → t.backlog ≠ none → s.addr = some a → t.addr = some b →
    N.overlap a b → s.reusePort ∧ t.reusePort ∧ N.uid p = N.uid q

variable {N}

/-- What a process may still do, after one of its calls. -/
theorem Exec.wp {p : Nat} {k k' : Kernel Addr} {c : Sys Q} {r : Int} (h : Exec N p k c r k')
    {ok : Row Addr → Sys Q → Prop} {post : α → Row Addr → Prop} {next : Int → Prog Q α}
    (hwp : (Prog.sys c next).wp N ok post (k p)) : (next r).wp N ok post (k' p) :=
  hwp.2 r _ h.row

theorem RowExec.of_close {row row' : Row Addr} {fd : Nat} {r : Int}
    (h : RowExec N row (.close fd : Sys Q) r row') : row' = Function.update row fd none := by
  cases h with
  | fail _ hne => exact absurd rfl (hne fd)
  | close => rfl

theorem eq_or_of_update {row : Row Addr} {fd fd' : Nat} {x : Option (Socket Addr)}
    {s : Socket Addr} (h : Function.update row fd x fd' = some s) :
    (fd' = fd ∧ x = some s) ∨ row fd' = some s := by
  by_cases hfd : fd' = fd
  · subst hfd
    exact .inl ⟨rfl, by rwa [Function.update_self] at h⟩
  · exact .inr (by rwa [Function.update_of_ne hfd] at h)

/-- A descriptor after a call was like that before, up to its flags, or does not listen, or was
just made to. -/
theorem RowExec.entry {row row' : Row Addr} {c : Sys Q} {r : Int} (h : RowExec N row c r row')
    (hbound : ∀ fd s, row fd = some s → s.backlog ≠ none → s.addr ≠ none) {fd : Nat}
    {s' : Socket Addr} (hs : row' fd = some s') :
    (∃ s flags, row fd = some s ∧ s' = { s with flags }) ∨ s'.backlog = none ∨
      (s'.addr ≠ none ∧ 0 ≤ r ∧ ∃ backlog, c = .listen fd backlog) := by
  have hsame : row fd = some s' → ∃ s flags, row fd = some s ∧ s' = { s with flags } :=
    fun h => ⟨s', s'.flags, h, rfl⟩
  -- an unbound socket does not listen
  have hidle : ∀ fd s, row fd = some s → s.addr = none → s.backlog = none := fun fd s hrow haddr =>
    of_not_not fun hne => hbound fd s hrow hne haddr
  cases h with
  | fail | setBound | getfl | ask => exact .inl (hsame hs)
  | socket =>
    rcases eq_or_of_update hs with ⟨rfl, h⟩ | h
    · cases h
      exact .inr (.inl rfl)
    · exact .inl (hsame h)
  | @setsockopt _ s name hrow haddr =>
    rcases eq_or_of_update hs with ⟨rfl, h⟩ | h
    · cases h
      have hnone := hidle _ s hrow haddr
      refine .inr (.inl ?_)
      cases name <;> exact hnone
    · exact .inl (hsame h)
  | setfl hrow =>
    rcases eq_or_of_update hs with ⟨rfl, h⟩ | h
    · cases h
      exact .inl ⟨_, _, hrow, rfl⟩
    · exact .inl (hsame h)
  | bind hrow haddr =>
    rcases eq_or_of_update hs with ⟨rfl, h⟩ | h
    · cases h
      have hnone := hidle _ _ hrow haddr
      exact .inr (.inl hnone)
    · exact .inl (hsame h)
  | listen =>
    rcases eq_or_of_update hs with ⟨rfl, h⟩ | h
    · cases h
      refine .inr (.inr ⟨?_, Int.le_refl 0, _, rfl⟩)
      exact Option.some_ne_none _
    · exact .inl (hsame h)
  | close =>
    rcases eq_or_of_update hs with ⟨rfl, h⟩ | h
    · cases h
    · exact .inl (hsame h)

/-- A socket that listens before and after a call shows the others the same. -/
structure Same (s s' : Socket Addr) : Prop where
  kind : s.kind = s'.kind
  port : s.reusePort = s'.reusePort
  addr : s.addr = s'.addr
  backlog : s.backlog = s'.backlog

theorem Exec.entry {p : Nat} {k k' : Kernel Addr} {c : Sys Q} {r : Int} (h : Exec N p k c r k')
    (hk : Shared N k) {q fd : Nat} {s' : Socket Addr} (hs : k' q fd = some s')
    (hlistens : s'.backlog ≠ none) :
    (∃ s, k q fd = some s ∧ Same s s') ∨
      (q = p ∧ s'.addr ≠ none ∧ 0 ≤ r ∧ ∃ backlog, c = .listen fd backlog) := by
  by_cases hq : q = p
  · subst hq
    rcases h.row.entry (hk.bound q) hs with ⟨s, flags, hold, rfl⟩ | hidle | hnew
    · exact .inl ⟨s, hold, ⟨rfl, rfl, rfl, rfl⟩⟩
    · exact absurd hidle hlistens
    · exact .inr ⟨rfl, hnew⟩
  · rw [h.others q hq] at hs
    exact .inl ⟨s', hs, ⟨rfl, rfl, rfl, rfl⟩⟩

theorem Exec.shared {p : Nat} {k k' : Kernel Addr} {c : Sys Q} {r : Int} (h : Exec N p k c r k')
    (hk : Shared N k) : Shared N k' where
  bound q fd s' hs hlistens := by
    rcases h.entry hk hs hlistens with ⟨s, hold, hsame⟩ | ⟨-, haddr, -⟩
    · rw [← hsame.addr]
      exact hk.bound q fd s hold (hsame.backlog ▸ hlistens)
    · exact haddr
  listening q fd s' a q' fd' t' b hne hs ht hkind hslistens htlistens ha hb hoverlap := by
    rcases h.entry hk hs hslistens with ⟨s, hsold, hs⟩ | ⟨rfl, -, hr, backlog, rfl⟩
    · rcases h.entry hk ht htlistens with ⟨t, htold, ht⟩ | ⟨rfl, -, hr, backlog, rfl⟩
      · rw [← hs.port, ← ht.port]
        exact hk.listening q fd s a q' fd' t b hne hsold htold
          (hs.kind.trans (hkind.trans ht.kind.symm)) (hs.backlog ▸ hslistens)
          (ht.backlog ▸ htlistens) (hs.addr.trans ha) (ht.addr.trans hb) hoverlap
      · obtain ⟨hport, hport', huid⟩ := h.listening fd' backlog t' b rfl hr ht hb q fd s a hne hsold
          (hs.kind.trans hkind) (hs.backlog ▸ hslistens) (hs.addr.trans ha)
          (N.overlap_symm hoverlap)
        exact ⟨hs.port ▸ hport', hport, huid.symm⟩
    · rcases h.entry hk ht htlistens with ⟨t, htold, ht⟩ | ⟨rfl, -, -, backlog', heq⟩
      · rw [← ht.port]
        exact h.listening fd backlog s' a rfl hr hs ha q' fd' t b hne.symm htold
          (ht.kind.trans hkind.symm) (ht.backlog ▸ htlistens) (ht.addr.trans hb) hoverlap
      · cases heq
        exact absurd rfl hne

/-- Closing all descriptors of a process. -/
theorem Shared.exit {k : Kernel Addr} (hk : Shared N k) (p : Nat) :
    Shared N (Function.update k p fun _ => none) := by
  have hold : ∀ {q fd s}, Function.update k p (fun _ => none) q fd = some s → k q fd = some s := by
    intro q fd s h
    by_cases hq : q = p
    · subst hq
      rw [Function.update_self] at h
      cases h
    · rwa [Function.update_of_ne hq] at h
  exact ⟨fun q fd s hs => hk.bound q fd s (hold hs),
    fun q fd s a q' fd' t b hne hs ht => hk.listening q fd s a q' fd' t b hne (hold hs) (hold ht)⟩

/-! ## Programs that can come through -/

/-- A call in which no other process has a say. -/
def Sys.Quiet : Sys Q → Prop
  | .bind _ _ => False
  | .listen _ _ => False
  | _ => True

variable (N) in
/-- Among the other processes of `k`, process `p` with the descriptors `ρ` can run the program to
the result `a`, and has the descriptors `ρ'` then. -/
inductive Can (p : Nat) (k : Kernel Addr) : Prog Q α → Row Addr → α → Row Addr → Prop where
  | ret {a : α} {ρ : Row Addr} : Can p k (.ret a) ρ a ρ
  | sys {c : Sys Q} {next : Int → Prog Q α} {r : Int} {a : α} {ρ ρ₁ ρ' : Row Addr} :
    Exec N p (Function.update k p ρ) c r (Function.update k p ρ₁) → Can p k (next r) ρ₁ a ρ' →
    Can p k (.sys c next) ρ a ρ'

variable (N) in
/-- Whoever has a part of the address agreed to share it with process `p`. -/
def Welcome (p : Nat) (k : Kernel Addr) (kind : Kind) (a : Addr) : Prop :=
  ∀ q fd t b, k q fd = some t → t.kind = kind → t.addr = some b → N.overlap a b →
    t.reusePort = true ∧ N.uid p = N.uid q

namespace Can

variable {p : Nat} {k : Kernel Addr} {ρ ρ₁ ρ' : Row Addr} {f : Int → Prog Q α} {a : α} {fd : Nat}
  {s : Socket Addr}

theorem bind {x : Prog Q β} {g : β → Prog Q α} {b : β} (hx : Can N p k x ρ b ρ₁)
    (hg : Can N p k (g b) ρ₁ a ρ') : Can N p k (x >>= g) ρ a ρ' := by
  show Can N p k (x.bind g) ρ a ρ'
  induction hx with
  | ret => exact hg
  | sys hexec _ ih => exact .sys hexec (ih hg)

theorem quiet {c : Sys Q} {r : Int} (hc : c.Quiet) (hrow : RowExec N ρ c r ρ₁)
    (h : Can N p k (f r) ρ₁ a ρ') : Can N p k (Prog.call c >>= f) ρ a ρ' := by
  refine .sys ⟨?_, fun q hq => ?_, ?_, ?_, ?_⟩ h
  · rwa [Function.update_self, Function.update_self]
  · rw [Function.update_of_ne hq, Function.update_of_ne hq]
  · rintro fd bytes s s' a rfl
    cases hc
  · rintro fd backlog s' a rfl
    cases hc
  · rintro fd bytes rfl
    cases hc

theorem bindTo {bytes : List UInt8} {asked : Addr} (hs : ρ fd = some s) (haddr : s.addr = none)
    (hdecode : N.decode s.domain bytes = some asked)
    (hclear : ∀ q fd' t, Function.update k p ρ q fd' = some t → ¬ Blocks N p s asked q t)
    (h : Can N p k (f 0) (Function.update ρ fd (some { s with addr := some asked })) a ρ') :
    Can N p k (Prog.call (.bind fd bytes) >>= f) ρ a ρ' := by
  have hold : Function.update k p ρ p fd = some s := by rwa [Function.update_self]
  refine .sys ⟨?_, fun q hq => ?_, ?_, ?_, ?_⟩ h
  · rw [Function.update_self, Function.update_self]
    exact .bind hs haddr hdecode (.inl rfl)
  · rw [Function.update_of_ne hq, Function.update_of_ne hq]
  · intro fd' bytes' s₀ s₁ b hc _ hs₀ hs₁ hb q fd'' t _ ht
    cases hc
    cases hold.symm.trans hs₀
    rw [Function.update_self, Function.update_self] at hs₁
    cases hs₁
    cases hb
    exact hclear q fd'' t ht
  · intro fd' backlog s' b hc
    cases hc
  · intro fd' bytes' _ hr
    cases hr

theorem listen {backlog : Nat} {b : Addr} (hs : ρ fd = some s) (hkind : s.kind = .stream)
    (haddr : s.addr = some b)
    (hshare : ∀ q fd' t d, (q, fd') ≠ (p, fd) → Function.update k p ρ q fd' = some t →
      t.kind = s.kind → t.addr = some d → N.overlap b d →
      s.reusePort ∧ t.reusePort ∧ N.uid p = N.uid q)
    (h : Can N p k (f 0) (Function.update ρ fd (some { s with backlog := some backlog })) a ρ') :
    Can N p k (Prog.call (.listen fd backlog) >>= f) ρ a ρ' := by
  refine .sys ⟨?_, fun q hq => ?_, ?_, ?_, ?_⟩ h
  · rw [Function.update_self, Function.update_self]
    have hexec : RowExec N ρ (.listen fd backlog : Sys Q) 0 _ := .listen hs hkind (.inl haddr)
    rwa [← haddr] at hexec
  · rw [Function.update_of_ne hq, Function.update_of_ne hq]
  · intro fd' bytes' s₀ s₁ c hc
    cases hc
  · intro fd' backlog' s' c hc _ hs' hc' q fd'' t d hne ht htkind _ htaddr hoverlap
    cases hc
    rw [Function.update_self, Function.update_self] at hs'
    cases hs'
    cases haddr.symm.trans hc'
    exact hshare q fd'' t d hne ht htkind htaddr hoverlap
  · intro fd' bytes' hc
    cases hc

end Can

theorem Welcome.not_blocks {p : Nat} {k : Kernel Addr} {s : Socket Addr} {a : Addr}
    (h : Welcome N p k s.kind a) (hport : s.reusePort = true) (q fd : Nat) (t : Socket Addr)
    (ht : k q fd = some t) : ¬ Blocks N p s a q t := by
  intro hblocks
  obtain ⟨b, hb, hoverlap⟩ := hblocks.overlap
  obtain ⟨htport, huid⟩ := h q fd t b ht hblocks.kind hb hoverlap
  exact hblocks.port ⟨hport, htport, huid⟩

end

end Sockets
