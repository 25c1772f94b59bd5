import DoggyDns.Dns.Message

/-!
# The authority chain

`AuthorityChain::resolve`: handlers are asked in order and the first one that
does not skip answers. A negative answer of a zone-owning handler carries the
handler's apex SOA, fetched once and memoised in the handler's entry.

A handler's backend is a state `W` that every lookup reads and moves, so a
result for all `W` is a result for every behaviour of every backend.
-/

namespace DoggyDns

/-- A resolver failure, by what the code distinguishes in it. -/
inductive NetError where
  /-- `DnsError::NoRecordsFound` with the upstream's response code. -/
  | noRecordsFound (code : ResponseCode)
  /-- `DnsError::ResponseCode`. -/
  | responseCode (code : ResponseCode)
  /-- Timeouts, transport and protocol failures. -/
  | other
  deriving DecidableEq, Repr

def NetError.isNxDomain : NetError → Bool
  | .noRecordsFound code => code = .nxDomain
  | _ => false

def NetError.isNoRecordsFound : NetError → Bool
  | .noRecordsFound _ => true
  | _ => false

inductive LookupError where
  | nameExists
  | responseCode (code : ResponseCode)
  | netError (e : NetError)
  | other
  deriving DecidableEq, Repr

/-- The answer of a zone lookup. -/
inductive AuthLookup where
  | empty
  /-- `Records` with an owned `LookupRecords::Section`. -/
  | section (answers : List Record)
  /-- A resolver's `Lookup`, shared behind an `Arc`. -/
  | resolved (answers : List Record)
  deriving DecidableEq

def AuthLookup.iter : AuthLookup → List Record
  | .empty => []
  | .section answers => answers
  | .resolved answers => answers

inductive LookupControlFlow where
  | continue (r : Except LookupError AuthLookup)
  | break (r : Except LookupError AuthLookup)
  | skip
  deriving DecidableEq

/-- The result of a lookup that did not skip. -/
def LookupControlFlow.result? : LookupControlFlow → Option (Except LookupError AuthLookup)
  | .continue r => some r
  | .break r => some r
  | .skip => none

inductive ZoneType where
  | primary
  | secondary
  | external
  deriving DecidableEq, Repr

/-- A `ZoneHandler` over backends in state `W`. -/
structure ZoneHandler (W : Type) where
  zoneType : ZoneType
  origin : Name
  lookup : Name → RecordType → W → LookupControlFlow × W

structure NamedHandler (W : Type) where
  name : String
  handler : ZoneHandler W
  /-- Apex SOA for negative answers; only a hit is ever set. -/
  apexSoa : Option Record

structure ResolveResult where
  outcome : LookupControlFlow
  handlerName : Option String
  authoritative : Bool
  soa : Option Record
  deriving DecidableEq

section
variable {W : Type}

def ZoneHandler.authoritative (h : ZoneHandler W) : Bool :=
  h.zoneType = .primary ∨ h.zoneType = .secondary

/-- Fetch the apex SOA of an authoritative handler for negative responses. -/
def apexSoa (h : ZoneHandler W) (w : W) : Option Record × W :=
  match h.lookup h.origin RecordType.SOA w with
  | (.continue (.ok lookup), w) => (lookup.iter.head?, w)
  | (.break (.ok lookup), w) => (lookup.iter.head?, w)
  | (_, w) => (none, w)

def LookupControlFlow.isErr : LookupControlFlow → Bool
  | .continue (.error _) => true
  | .break (.error _) => true
  | _ => false

/-- The SOA a handler's answer carries, with the entry and backends after it. -/
def attachSoa (entry : NamedHandler W) (result : LookupControlFlow) (w : W) :
    Option Record × NamedHandler W × W :=
  if entry.handler.authoritative && result.isErr then
    match entry.apexSoa with
    | some cached => (some cached, entry, w)
    | none =>
      let (fetched, w) := apexSoa entry.handler w
      (fetched, if fetched.isSome then { entry with apexSoa := fetched } else entry, w)
  else (none, entry, w)

/-- `AuthorityChain::resolve`: the first handler that does not skip. -/
def resolve (name : Name) (recordType : RecordType) :
    List (NamedHandler W) → W → ResolveResult × List (NamedHandler W) × W
  | [], w => (⟨.skip, none, false, none⟩, [], w)
  | entry :: handlers, w =>
    match entry.handler.lookup name recordType w with
    | (.skip, w) =>
      let (r, handlers, w) := resolve name recordType handlers w
      (r, entry :: handlers, w)
    | (result, w) =>
      let (soa, entry, w) := attachSoa entry result w
      (⟨result, some entry.name, entry.handler.authoritative, soa⟩, entry :: handlers, w)

end

end DoggyDns
