import DoggyDns.Core.Cached

/-!
# The message a chain result becomes

Every branch of the reply hands the socket one message that is a function of
the request and the chain result. Only a failed send of answers is followed by
a second one, a bare SERVFAIL.
-/

namespace DoggyDns

/-- The code of the reply to a chain result. -/
def ResolveResult.code (r : ResolveResult) : ResponseCode :=
  match r.outcome.result? with
  | some (.ok _) => .noError
  | some (.error e) => responseCodeForLookupError e
  | none => .nxDomain

/-- Whether that reply is marked authoritative. -/
def ResolveResult.aa (r : ResolveResult) : Bool :=
  match r.outcome.result? with
  | some _ => r.authoritative
  | none => false

/-- The answer records of that reply. -/
def ResolveResult.answers (r : ResolveResult) (rotation : AnswerRotation) : List Record :=
  match r.outcome.result? with
  | some (.ok lookup) => (rotation.apply (takeAnswerRecords lookup)).1
  | _ => []

/-- Its authority section. -/
def ResolveResult.authority (r : ResolveResult) : List Record :=
  match r.outcome.result? with
  | some (.error _) => r.soa.toList
  | _ => []

/-- The messages of a request, in the order they went to the socket. -/
def sentMessages (events : List Event) : List Message :=
  events.filterMap fun
    | .sent m _ => some m
    | _ => none

section
variable {hk : Hickory} {xdpEnabled : Bool} {rotation : AnswerRotation} {request : Request}
  {send : Send}

variable (hk xdpEnabled rotation request send) in
/-- The reply to a chain result; anything sent after it is a bare SERVFAIL. -/
theorem respond_sent (result : ResolveResult) :
    ∃ ok rest, (respond hk xdpEnabled rotation request send result).sent =
        (Message.build request (errorMetadata hk request result.code result.aa)
          (result.answers rotation) [] result.authority [], ok) :: rest ∧
      ∀ p ∈ rest, p.1 =
        Message.build request (errorMetadata hk request .servFail false) [] [] [] [] := by
  have herr : ∀ code authoritative soa, ∃ ok rest,
      [(sendError hk send 0 request code authoritative soa).2] =
        (Message.build request (errorMetadata hk request code authoritative) [] [] soa.toList [],
          ok) :: rest ∧
      ∀ p ∈ rest, p.1 =
        Message.build request (errorMetadata hk request .servFail false) [] [] [] [] := by
    intro code authoritative soa
    refine ⟨(sendError hk send 0 request code authoritative soa).2.2, [], ?_, by simp⟩
    rw [← sendError_sent 0 code authoritative soa]
  have hans : ∀ lookup, ∃ ok rest,
      (respondAnswers hk xdpEnabled rotation request send result lookup).sent =
        (Message.build request (errorMetadata hk request .noError result.authoritative)
          (rotation.apply (takeAnswerRecords lookup)).1 [] [] [], ok) :: rest ∧
      ∀ p ∈ rest, p.1 =
        Message.build request (errorMetadata hk request .servFail false) [] [] [] [] := by
    intro lookup
    unfold respondAnswers
    simp only
    split
    · exact ⟨true, [], rfl, by simp⟩
    · refine ⟨false, [_], rfl, fun p hp => ?_⟩
      rw [List.mem_singleton.mp hp, sendError_sent]
      rfl
  unfold respond ResolveResult.code ResolveResult.aa ResolveResult.answers ResolveResult.authority
  cases result.outcome with
  | skip => exact herr .nxDomain false none
  | «continue» r | «break» r =>
    cases r with
    | ok lookup => exact hans lookup
    | error e => exact herr _ _ _

/-- The metadata of a reply, from the request and the chain result. -/
theorem respond_head (result : ResolveResult) {m : Message} {ok : Bool}
    (h : (respond hk xdpEnabled rotation request send result).sent.head? = some (m, ok)) :
    m.metadata = errorMetadata hk request result.code result.aa := by
  obtain ⟨ok', rest, hsent, -⟩ := respond_sent hk xdpEnabled rotation request send result
  rw [hsent] at h
  cases h
  rfl

end

section
variable {W : Type} {hk : Hickory} {h : DoggyDnsHandler W} {w : W} {request : Request} {send : Send}

theorem sentMessages_runBefore (ms : List Middleware) (i : Nat) :
    sentMessages (runBefore request ms i).1 = [] := by
  induction ms generalizing i with
  | nil => rfl
  | cons m ms ih =>
    unfold runBefore
    cases m.beforeRequest request with
    | shortCircuit => rfl
    | «continue» => exact ih (i + 1)

/-- The messages of a request that got as far as the chain. -/
theorem sentMessages_handleRequest {query : Query}
    (hbefore : (runBefore request h.middlewares 0).2 = false)
    (hquery : request.requestInfo = some query) :
    sentMessages (handleRequest hk h w request send).events =
      (chainReply hk h w request send query).sent.map Prod.fst := by
  have hfinish : ∀ outcome, sentMessages (finish h.middlewares outcome) = [] := by
    intro outcome
    unfold sentMessages finish
    rw [List.filterMap_map]
    exact List.filterMap_eq_nil_iff.mpr fun _ _ => rfl
  have hsent : ∀ sent : List Sent, sentMessages (sentEvents sent) = sent.map Prod.fst := by
    intro sent
    unfold sentMessages sentEvents
    rw [List.filterMap_map]
    exact congrFun List.filterMap_eq_map sent
  have he : (handleRequest hk h w request send).events =
      (runBefore request h.middlewares 0).1 ++
        sentEvents (chainReply hk h w request send query).sent ++
        finish h.middlewares (chainReply hk h w request send query).outcome := by
    simp [handleRequest, chainReply, hbefore, hquery]
  rw [he, sentMessages, List.filterMap_append, List.filterMap_append]
  show sentMessages _ ++ sentMessages _ ++ sentMessages _ = _
  rw [sentMessages_runBefore, hsent, hfinish, List.nil_append, List.append_nil]

end

end DoggyDns
