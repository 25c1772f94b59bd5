import DoggyDns.Basic.Env

/-!
# Addresses

The standard library's readers of `IpAddr` and `SocketAddr`, over the bytes of
the text, their `Display`, and `socket_addr`, which pairs a configured literal
with a port.
-/

namespace DoggyDns

inductive IpAddr where
  | v4 (ip : BitVec 32)
  | v6 (ip : BitVec 128)
  deriving DecidableEq, Repr

structure SocketAddr where
  ip : IpAddr
  port : UInt16
  /-- Of an IPv6 address only. -/
  scopeId : UInt32
  deriving DecidableEq, Repr

/-- A failed reader leaves the text as it was. -/
abbrev AddrReader := StateT (List UInt8) Option

namespace AddrReader

def toDigit (radix : Nat) (c : UInt8) : Option Nat :=
  let value :=
    if 0x30 ≤ c ∧ c ≤ 0x39 then some (c.toNat - 0x30)
    else if 0x61 ≤ c ∧ c ≤ 0x7A then some (c.toNat - 0x61 + 10)
    else if 0x41 ≤ c ∧ c ≤ 0x5A then some (c.toNat - 0x41 + 10)
    else none
  value.filter (· < radix)

/-- All the digits that follow: at most `maxDigits` of them, and a value below `limit`. -/
def readNumber (radix maxDigits limit : Nat) (allowZeroPrefix : Bool) : AddrReader Nat :=
    fun text =>
  let digits := text.takeWhile fun c => (toDigit radix c).isSome
  let value := (digits.filterMap (toDigit radix)).foldl (fun n d => n * radix + d) 0
  if digits.isEmpty ∨ maxDigits < digits.length ∨ limit ≤ value then none
  else if !allowZeroPrefix && text.head? = some 0x30 && 1 < digits.length then none
  else some (value, text.drop digits.length)

def readGivenChar (c : UInt8) : AddrReader Unit
  | d :: text => if c = d then some ((), text) else none
  | [] => none

/-- The separator stands before every element but the first. -/
def readSeparator {α : Type} (sep : UInt8) (index : Nat) (inner : AddrReader α) : AddrReader α := do
  if 0 < index then readGivenChar sep
  inner

def readIpv4Addr : AddrReader (BitVec 32) := do
  let octets ← [0, 1, 2, 3].mapM fun i => readSeparator 0x2E i (readNumber 10 3 256 false)
  return BitVec.ofNat 32 (octets.foldl (fun n o => n * 256 + o) 0)

/-- Groups number `index` and on, `limit` in all, with perhaps an IPv4 address
in the place of the last two read; whether that was so. -/
def readGroups (limit : Nat) : Nat → Nat → List UInt8 → (List Nat × Bool) × List UInt8
  | 0, _, text => (([], false), text)
  | left + 1, index, text =>
    match if index + 1 < limit then readSeparator 0x3A index readIpv4Addr text else none with
    | some (ip, text) => (([ip.toNat / 65536, ip.toNat % 65536], true), text)
    | none =>
      match readSeparator 0x3A index (readNumber 16 4 65536 true) text with
      | some (group, text) =>
        let ((groups, ipv4), text) := readGroups limit left (index + 1) text
        ((group :: groups, ipv4), text)
      | none => (([], false), text)

def ofGroups (groups : List Nat) : BitVec 128 :=
  BitVec.ofNat 128 (groups.foldl (fun n g => n * 65536 + g) 0)

def readIpv6Addr : AddrReader (BitVec 128) := do
  let (head, headIpv4) ← fun text => some (readGroups 8 8 0 text)
  if head.length = 8 then return ofGroups head
  -- an IPv4 part is not allowed before `::`
  if headIpv4 then failure
  readGivenChar 0x3A
  readGivenChar 0x3A
  let limit := 8 - (head.length + 1)
  let (tail, _) ← fun text => some (readGroups limit limit 0 text)
  return ofGroups (head ++ List.replicate (8 - head.length - tail.length) 0 ++ tail)

def readIpAddr : AddrReader IpAddr := (.v4 <$> readIpv4Addr) <|> (.v6 <$> readIpv6Addr)

/-- A decimal number of any length. -/
def readDecimal (limit : Nat) : AddrReader Nat := fun text =>
  readNumber 10 text.length limit true text

def readPort : AddrReader UInt16 := do
  readGivenChar 0x3A
  return UInt16.ofNat (← readDecimal 65536)

def readScopeId : AddrReader UInt32 := do
  readGivenChar 0x25
  return UInt32.ofNat (← readDecimal 4294967296)

def readSocketAddrV4 : AddrReader SocketAddr := do
  let ip ← readIpv4Addr
  let port ← readPort
  return ⟨.v4 ip, port, 0⟩

def readSocketAddrV6 : AddrReader SocketAddr := do
  readGivenChar 0x5B
  let ip ← readIpv6Addr
  let scopeId ← readScopeId <|> pure 0
  readGivenChar 0x5D
  let port ← readPort
  return ⟨.v6 ip, port, scopeId⟩

def readSocketAddr : AddrReader SocketAddr := readSocketAddrV4 <|> readSocketAddrV6

end AddrReader

/-- `IpAddr::from_str`: the whole text is the address. -/
def IpAddr.fromStr (text : List UInt8) : Option IpAddr :=
  match AddrReader.readIpAddr text with
  | some (ip, []) => some ip
  | _ => none

/-- `SocketAddr::from_str`. -/
def SocketAddr.fromStr (text : List UInt8) : Option SocketAddr :=
  match AddrReader.readSocketAddr text with
  | some (addr, []) => some addr
  | _ => none

/-! ## Display -/

def showIpv4 (ip : BitVec 32) : String :=
  ".".intercalate ([24, 16, 8, 0].map fun shift => toString ((ip.toNat >>> shift) % 256))

/-- The longest run of zero groups, the first of its length: where it starts and how long it is.
`index` is that of the next group, `current` the run that ends before it. -/
def longestZeros (index : Nat) (longest current : Nat × Nat) : List Nat → Nat × Nat
  | [] => longest
  | group :: groups =>
    if group = 0 then
      let current := (if current.2 = 0 then index else current.1, current.2 + 1)
      longestZeros (index + 1) (if longest.2 < current.2 then current else longest) current groups
    else longestZeros (index + 1) longest (0, 0) groups

def showGroups (groups : List Nat) : String :=
  ":".intercalate (groups.map fun group => String.ofList (Nat.toDigits 16 group))

def showIpv6 (ip : BitVec 128) : String :=
  let groups := [112, 96, 80, 64, 48, 32, 16, 0].map fun shift => (ip.toNat >>> shift) % 65536
  if ip.toNat >>> 32 = 0xFFFF then "::ffff:" ++ showIpv4 (ip.setWidth 32)
  else
    let zeros := longestZeros 0 (0, 0) (0, 0) groups
    if 1 < zeros.2 then
      showGroups (groups.take zeros.1) ++ "::" ++ showGroups (groups.drop (zeros.1 + zeros.2))
    else showGroups groups

def SocketAddr.display (addr : SocketAddr) : String :=
  match addr.ip with
  | .v4 ip => showIpv4 ip ++ ":" ++ toString addr.port
  | .v6 ip =>
    let scope := if addr.scopeId = 0 then "" else "%" ++ toString addr.scopeId
    "[" ++ showIpv6 ip ++ scope ++ "]:" ++ toString addr.port

example : (⟨.v6 (1 <<< 112 + 7), 53, 0⟩ : SocketAddr).display = "[1::7]:53" := by decide +kernel

/-- Pair an IPv4/IPv6 literal with `port`; brackets around it are accepted. -/
def socketAddr (host : Text) (port : UInt16) : Except Error SocketAddr :=
  let host := trim host
  let literal := ((stripPrefix '[' host).bind (stripSuffix ']')).getD host
  let shown := String.ofList host
  match IpAddr.fromStr (utf8 literal) with
  | some ip => .ok ⟨ip, port, 0⟩
  | none => .error [s!"'{shown}' is not an IPv4 or IPv6 address"]

end DoggyDns
