import Mathlib.Data.List.Rotate
import DoggyDns.Plugin.Chain

/-!
# The request handler

`DoggyDnsHandler::handle_request`: middlewares before, the authority chain, the
reply, and middlewares after with the outcome. A run leaves a list of `Event`s,
in the order the source performs them. `respond` is the part after the chain,
one branch per kind of chain result; each branch builds the message for the
XDP cache and the message for the socket separately, as the source does.

`send` is the socket: the result of the `i`-th `send_response` call.
-/

namespace DoggyDns

/-! ## Outcomes -/

/-- Final outcome of a request, available to `after_request`. -/
structure RequestOutcome where
  responseCode : ResponseCode
  authority : Option String
  answers : Nat
  /-- Raw DNS response wire format, `none` when the XDP cache is disabled. -/
  responseBytes : Option (List UInt8)
  minAnswerTtl : Option UInt32
  deriving DecidableEq, Repr

namespace RequestOutcome

def error (responseCode : ResponseCode) : RequestOutcome := ⟨responseCode, none, 0, none, none⟩

def authorityError (responseCode : ResponseCode) (authority : String) : RequestOutcome :=
  ⟨responseCode, some authority, 0, none, none⟩

def success (authority : String) (answers : Nat) (responseBytes : Option (List UInt8))
    (minAnswerTtl : Option UInt32) : RequestOutcome :=
  ⟨.noError, some authority, answers, responseBytes, minAnswerTtl⟩

def nxdomain (responseBytes : Option (List UInt8)) : RequestOutcome :=
  ⟨.nxDomain, none, 0, responseBytes, none⟩

end RequestOutcome

/-! ## Pieces of a reply -/

/-- One cursor for the whole handler; `usize` wraps. -/
structure AnswerRotation where
  enabled : Bool
  cursor : UInt64
  deriving DecidableEq, Repr

/-- Advance the cursor and rotate `records`; fewer than two are left alone. -/
def AnswerRotation.apply (r : AnswerRotation)
    (records : List Record) : List Record × AnswerRotation :=
  if !r.enabled || records.length < 2 then (records, r)
  else
    let offset := r.cursor.toNat % records.length
    (records.rotate offset, { r with cursor := r.cursor + 1 })

/-- Move the answer records out of a zone lookup. -/
def takeAnswerRecords : AuthLookup → List Record
  | .section records => records
  | lookup => lookup.iter

def minTtlFromRecords (records : List Record) : Option UInt32 := (records.map Record.ttl).min?

/-- The encoder's size limit. -/
def maxMessageSize (protocol : Protocol) (edns : Option Edns) : UInt16 :=
  match protocol with
  | .udp => match edns with
    | some edns => edns.maxPayload
    | none => 512
  | _ => 0xFFFF

def XDP_CACHE_MAX_SIZE : Nat := 512

/-- Serialize a response for the XDP cache: admitted only when it fits and is whole. -/
def serializeForXdp (request : Request) (emit : UInt16 → Option (List UInt8)) :
    Option (List UInt8) :=
  match emit (maxMessageSize request.protocol request.edns) with
  | none => none
  | some bytes =>
    if bytes.length > XDP_CACHE_MAX_SIZE then none
    -- TC: a partial answer must never be served from cache
    else if bytes[2]?.any (fun flags => flags &&& 0x02 ≠ 0) then none
    else some bytes

/-- Map an authority lookup error to the response code it represents. -/
def responseCodeForLookupError : LookupError → ResponseCode
  | .nameExists => .noError
  | .responseCode code => code
  | .netError e =>
    if e.isNxDomain then .nxDomain else if e.isNoRecordsFound then .noError else .servFail
  | .other => .servFail

/-- Response metadata: AA for data the server owns, RA for a recursive backend. -/
def errorMetadata (hk : Hickory) (request : Request) (responseCode : ResponseCode)
    (authoritative : Bool) : Metadata :=
  { hk.responseFromRequest request.metadata with
    messageType := .response
    opCode := .query
    responseCode
    authoritative
    recursionAvailable := !authoritative }

/-- The socket: the result of the `i`-th `send_response` of a request. -/
abbrev Send := Nat → Message → Option ResponseInfo

/-- A message handed to `send_response`, and whether that succeeded. -/
abbrev Sent := Message × Bool

/-- Send a reply without answers; a failed send is reported as SERVFAIL. -/
def sendError (hk : Hickory) (send : Send) (i : Nat) (request : Request)
    (responseCode : ResponseCode)
    (authoritative : Bool) (soa : Option Record) : ResponseInfo × Sent :=
  let response := Message.build request (errorMetadata hk request responseCode authoritative) [] []
    soa.toList []
  match send i response with
  | some info => (info, response, true)
  | none =>
    let metadata := { errorMetadata hk request .servFail false with responseCode := .servFail }
    (⟨metadata, ⟨0, 0, 0, 0⟩⟩, response, false)

/-! ## The reply -/

/-- What the part of a request after the chain did. -/
structure Reply where
  info : ResponseInfo
  outcome : RequestOutcome
  sent : List Sent
  rotation : AnswerRotation

section
variable (hk : Hickory) (xdpEnabled : Bool) (rotation : AnswerRotation) (request : Request)
    (send : Send)

/-- The branch for `Ok(lookup)`. -/
def respondAnswers (result : ResolveResult) (lookup : AuthLookup) : Reply :=
  let handlerName := result.handlerName.getD "none"
  let (records, rotation) := rotation.apply (takeAnswerRecords lookup)
  let answerCount := records.length
  let metadata := { hk.responseFromRequest request.metadata with
    messageType := .response
    opCode := .query
    responseCode := .noError
    authoritative := result.authoritative
    recursionAvailable := !result.authoritative }
  let respBytes := if xdpEnabled then
      serializeForXdp request fun limit =>
        hk.destructiveEmit (Message.build request metadata records [] [] []) limit
    else none
  let minTtl := if xdpEnabled then minTtlFromRecords records else none
  let response := Message.build request metadata records [] [] []
  match send 0 response with
  | some info =>
    ⟨info, .success handlerName answerCount respBytes minTtl, [(response, true)], rotation⟩
  | none =>
    let (info, sent) := sendError hk send 1 request .servFail false none
    ⟨info, .authorityError .servFail handlerName, [(response, false), sent], rotation⟩

/-- The branch for `Err(e)`. -/
def respondError (result : ResolveResult) (e : LookupError) : Reply :=
  let handlerName := result.handlerName.getD "none"
  let responseCode := responseCodeForLookupError e
  let negativeCacheable := responseCode = .noError ∨ responseCode = .nxDomain
  let respBytes := if xdpEnabled ∧ negativeCacheable then
      serializeForXdp request fun limit =>
        hk.destructiveEmit (Message.build request
          (errorMetadata hk request responseCode result.authoritative) [] [] result.soa.toList [])
            limit
    else none
  let outcome :=
    { RequestOutcome.authorityError responseCode handlerName with responseBytes := respBytes }
  let (info, sent) := sendError hk send 0 request responseCode result.authoritative result.soa
  ⟨info, outcome, [sent], rotation⟩

/-- The branch for a chain in which every handler skipped. -/
def respondSkip : Reply :=
  let respBytes := if xdpEnabled then
      serializeForXdp request fun limit =>
        hk.destructiveEmit (Message.build request (errorMetadata hk request .nxDomain false) [] []
          [] []) limit
    else none
  let (info, sent) := sendError hk send 0 request .nxDomain false none
  ⟨info, .nxdomain respBytes, [sent], rotation⟩

/-- The reply to a request from its chain result. -/
def respond (result : ResolveResult) : Reply :=
  match result.outcome with
  | .continue (.ok lookup) => respondAnswers hk xdpEnabled rotation request send result lookup
  | .break (.ok lookup) => respondAnswers hk xdpEnabled rotation request send result lookup
  | .continue (.error e) => respondError hk xdpEnabled rotation request send result e
  | .break (.error e) => respondError hk xdpEnabled rotation request send result e
  | .skip => respondSkip hk xdpEnabled rotation request send

end

/-! ## A whole request -/

inductive MiddlewareAction where
  | continue
  | shortCircuit
  deriving DecidableEq, Repr

structure Middleware where
  beforeRequest : Request → MiddlewareAction

structure DoggyDnsHandler (W : Type) where
  middlewares : List Middleware
  authorityChain : List (NamedHandler W)
  xdpEnabled : Bool
  rotation : AnswerRotation

/-- What a request did, in order: hooks of the `i`-th middleware and sends. -/
inductive Event where
  | before (i : Nat)
  | sent (m : Message) (ok : Bool)
  | after (i : Nat) (outcome : RequestOutcome)
  deriving DecidableEq

def sentEvents (sent : List Sent) : List Event := sent.map fun (m, ok) => .sent m ok

/-- `before_request` from the `i`-th middleware on; `true` when one short-circuits. -/
def runBefore (request : Request) : List Middleware → Nat → List Event × Bool
  | [], _ => ([], false)
  | m :: ms, i =>
    match m.beforeRequest request with
    | .shortCircuit => ([.before i], true)
    | .continue =>
      let (events, short) := runBefore request ms (i + 1)
      (.before i :: events, short)

/-- `finish`: every middleware sees the outcome. -/
def finish (middlewares : List Middleware) (outcome : RequestOutcome) : List Event :=
  (List.range middlewares.length).map fun i => .after i outcome

structure Handled (W : Type) where
  info : ResponseInfo
  events : List Event
  handler : DoggyDnsHandler W
  world : W

def handleRequest {W : Type} (hk : Hickory) (h : DoggyDnsHandler W) (w : W) (request : Request)
    (send : Send) : Handled W :=
  let (before, short) := runBefore request h.middlewares 0
  if short then
    let outcome := RequestOutcome.error .refused
    let (info, sent) := sendError hk send 0 request .refused false none
    ⟨info, before ++ finish h.middlewares outcome ++ sentEvents [sent], h, w⟩
  else
  match request.requestInfo with
  | none =>
    let outcome := RequestOutcome.error .formErr
    let (info, sent) := sendError hk send 0 request .formErr false none
    ⟨info, before ++ finish h.middlewares outcome ++ sentEvents [sent], h, w⟩
  | some query =>
    let (result, chain, w) := resolve query.name query.queryType h.authorityChain w
    let reply := respond hk h.xdpEnabled h.rotation request send result
    ⟨reply.info, before ++ sentEvents reply.sent ++ finish h.middlewares reply.outcome,
      { h with authorityChain := chain, rotation := reply.rotation }, w⟩

end DoggyDns
