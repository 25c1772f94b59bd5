import DoggyDns.Dns.Name

/-!
# Messages

The hickory types the server reads and builds: response codes, message
metadata, records, the parsed request and the message handed to the socket.
What hickory itself computes is the parameter `Hickory`: how response metadata
starts from the request's, and the encoder. `Hickory.Lawful` is what the
results that look inside an encoding assume of it.
-/

namespace DoggyDns

open Bytes

inductive ResponseCode where
  | noError
  | formErr
  | servFail
  | nxDomain
  | notImp
  | refused
  | yxDomain
  | yxrrSet
  | nxrrSet
  | notAuth
  | notZone
  | unknown (code : UInt16)
  deriving DecidableEq, Repr

/-- The four header bits of a response code. -/
def ResponseCode.low : ResponseCode → UInt8
  | .noError => 0
  | .formErr => 1
  | .servFail => 2
  | .nxDomain => 3
  | .notImp => 4
  | .refused => 5
  | .yxDomain => 6
  | .yxrrSet => 7
  | .nxrrSet => 8
  | .notAuth => 9
  | .notZone => 10
  | .unknown code => (code &&& 0x0F).toUInt8

inductive MessageType where
  | query
  | response
  deriving DecidableEq, Repr

inductive OpCode where
  | query
  | status
  | notify
  | update
  | unknown (code : UInt8)
  deriving DecidableEq, Repr

def OpCode.toUInt8 : OpCode → UInt8
  | .query => 0
  | .status => 2
  | .notify => 4
  | .update => 5
  | .unknown code => code &&& 0x0F

structure Metadata where
  id : UInt16
  messageType : MessageType
  opCode : OpCode
  authoritative : Bool
  truncation : Bool
  recursionDesired : Bool
  recursionAvailable : Bool
  authenticData : Bool
  checkingDisabled : Bool
  responseCode : ResponseCode
  deriving DecidableEq, Repr

/-- Record types, as their wire value. -/
abbrev RecordType := UInt16

def RecordType.A : RecordType := 1
def RecordType.SOA : RecordType := 6
def RecordType.AAAA : RecordType := 28

structure SOA where
  mname : Name
  rname : Name
  serial : UInt32
  refresh : UInt32
  retry : UInt32
  expire : UInt32
  minimum : UInt32
  deriving DecidableEq

inductive RData where
  | a (ip : BitVec 32)
  | aaaa (ip : BitVec 128)
  | soa (soa : SOA)
  | other (rtype : RecordType) (rdata : List UInt8)
  deriving DecidableEq

structure Record where
  name : Name
  ttl : UInt32
  data : RData
  deriving DecidableEq

/-- A query as the server parsed it. -/
structure Query where
  name : Name
  queryType : RecordType
  queryClass : UInt16
  deriving DecidableEq

structure Edns where
  maxPayload : UInt16
  deriving DecidableEq, Repr

inductive Protocol where
  | udp
  | tcp
  | tls
  | https
  | quic
  | h3
  deriving DecidableEq, Repr

structure Request where
  metadata : Metadata
  queries : List Query
  edns : Option Edns
  protocol : Protocol
  deriving DecidableEq

/-- A name lowercased, as `LowerName` holds it. -/
def Name.lower (n : Name) : Name where
  labels := n.labels.map Label.lower
  labels_ok := n.labels_ok.map_lower
  wire_le := by rw [length_wire_map_lower]; exact n.wire_le

/-- `Request::request_info`: the query, lowercased, when there is exactly one. -/
def Request.requestInfo (r : Request) : Option Query :=
  match r.queries with
  | [q] => some { q with name := q.name.lower }
  | _ => none

/-- A message built for `send_response`: the request's queries, and what the handler put in. -/
structure Message where
  metadata : Metadata
  queries : List Query
  answers : List Record
  nameServers : List Record
  soa : List Record
  additionals : List Record
  deriving DecidableEq

/-- `MessageResponseBuilder::from_message_request(request).build(..)`. -/
def Message.build (request : Request) (metadata : Metadata)
    (answers nameServers soa additionals : List Record) : Message :=
  ⟨metadata, request.queries, answers, nameServers, soa, additionals⟩

structure HeaderCounts where
  queries : UInt16
  answers : UInt16
  authorities : UInt16
  additionals : UInt16
  deriving DecidableEq, Repr

/-- `Header`, which `ResponseInfo` wraps. -/
structure ResponseInfo where
  metadata : Metadata
  counts : HeaderCounts
  deriving DecidableEq, Repr

/-! ## The library -/

def DNS_HEADER_LEN : Nat := 12

/-- What hickory computes. -/
structure Hickory where
  /-- `Metadata::response_from_request`. -/
  responseFromRequest : Metadata → Metadata
  /-- `MessageResponse::destructive_emit` into an encoder with this size limit. -/
  destructiveEmit : Message → UInt16 → Option (List UInt8)

/-- A header bit. -/
def flag (set : Bool) (mask : UInt8) : UInt8 := if set then mask else 0

/-- Header byte 2: QR, opcode, AA, TC, RD. -/
def Metadata.flagsHigh (m : Metadata) : UInt8 :=
  flag (m.messageType = .response) 0x80 ||| (m.opCode.toUInt8 <<< 3) |||
    flag m.authoritative 0x04 |||
  flag m.truncation 0x02 ||| flag m.recursionDesired 0x01

/-- Header byte 3: RA, AD, CD, RCODE. -/
def Metadata.flagsLow (m : Metadata) : UInt8 :=
  flag m.recursionAvailable 0x80 ||| flag m.authenticData 0x20 ||| flag m.checkingDisabled 0x10 |||
  m.responseCode.low

/-- What an encoding and a response's metadata keep of their source: the documented
behaviour of hickory that the results on header bits assume. -/
structure Hickory.Lawful (hk : Hickory) : Prop where
  recursionDesired : ∀ m, (hk.responseFromRequest m).recursionDesired = m.recursionDesired
  /-- An encoding that does not fit is cut and marked truncated. -/
  flagsHigh : ∀ {m limit bytes}, hk.destructiveEmit m limit = some bytes →
    ∃ tc, byteAt bytes 2 = { m.metadata with truncation := tc }.flagsHigh
  flagsLow : ∀ {m limit bytes}, hk.destructiveEmit m limit = some bytes →
    byteAt bytes 3 = m.metadata.flagsLow

/-! ## An encoder without name compression -/

def be32Bytes (v : UInt32) : List UInt8 := be16Bytes (v >>> 16).toUInt16 ++ be16Bytes v.toUInt16

def RData.rtype : RData → RecordType
  | .a _ => RecordType.A
  | .aaaa _ => RecordType.AAAA
  | .soa _ => RecordType.SOA
  | .other rtype _ => rtype

def RData.bytes : RData → List UInt8
  | .a ip => be32Bytes (UInt32.ofBitVec ip)
  | .aaaa ip => (List.range 16).map fun i => UInt8.ofBitVec ((ip >>> (8 * (15 - i))).setWidth 8)
  | .soa s => wire s.mname.labels ++ wire s.rname.labels ++ be32Bytes s.serial ++
      be32Bytes s.refresh ++ be32Bytes s.retry ++ be32Bytes s.expire ++ be32Bytes s.minimum
  | .other _ rdata => rdata

def Record.bytes (r : Record) : List UInt8 :=
  wire r.name.labels ++ be16Bytes r.data.rtype ++ be16Bytes 1 ++ be32Bytes r.ttl ++
    be16Bytes (UInt16.ofNat r.data.bytes.length) ++ r.data.bytes

def Query.bytes (q : Query) : List UInt8 :=
  wire q.name.labels ++ be16Bytes q.queryType ++ be16Bytes q.queryClass

def Message.header (m : Message) (tc : Bool) (answers authorities additionals : Nat) : List UInt8 :=
  (m.metadata.id >>> 8).toUInt8 :: (m.metadata.id &&& 0xFF).toUInt8 ::
  { m.metadata with truncation := tc }.flagsHigh :: m.metadata.flagsLow ::
  (be16Bytes (UInt16.ofNat m.queries.length) ++ be16Bytes (UInt16.ofNat answers) ++
    be16Bytes (UInt16.ofNat authorities) ++ be16Bytes (UInt16.ofNat additionals))

/-- The message in wire format with every name spelled out; past the limit, its header
and question only, marked truncated. -/
def Message.encode (m : Message) (limit : UInt16) : List UInt8 :=
  let question := m.queries.flatMap Query.bytes
  let records := (m.answers ++ m.nameServers ++ m.soa ++ m.additionals).flatMap Record.bytes
  if DNS_HEADER_LEN + question.length + records.length ≤ limit.toNat then
    m.header m.metadata.truncation m.answers.length (m.nameServers ++ m.soa).length
      m.additionals.length ++
      (question ++ records)
  else m.header true 0 0 0 ++ question

/-- A library whose messages hold no name worth compressing. -/
def Hickory.plain : Hickory where
  responseFromRequest m :=
    { id := m.id, messageType := .response, opCode := m.opCode, authoritative := false
      truncation := false, recursionDesired := m.recursionDesired, recursionAvailable := false
      authenticData := false, checkingDisabled := m.checkingDisabled, responseCode := .noError }
  destructiveEmit m limit := some (m.encode limit)

theorem Hickory.plain_lawful : Hickory.plain.Lawful where
  recursionDesired _ := rfl
  flagsHigh := by
    intro m limit bytes h
    cases h
    unfold Message.encode
    simp only
    split
    · exact ⟨m.metadata.truncation, rfl⟩
    · exact ⟨true, rfl⟩
  flagsLow := by
    intro m limit bytes h
    cases h
    unfold Message.encode
    simp only
    split <;> rfl

end DoggyDns
