import DoggyDns.Basic.Toml
import DoggyDns.Core.Reply
import DoggyDns.Observability.InFlight

/-!
# What the query metrics count

`DnsMetricsMiddleware` adds to `dns.queries` and records `dns.query.duration`
under the attributes of a request and its outcome. The outcome is made in
another place than the messages, on some paths before the message goes out and
on one after a first message failed; still each request is counted once, under
the response code of its last message and with the time it took, whatever order
the requests on their way take.

The instruments are outside: `Call` is what the middleware asks of them.
-/

namespace DoggyDns

namespace Metrics

open Lts

/-! ## The middleware -/

/-- The `Debug` texts an attribute is made from. -/
structure DebugTexts where
  recordType : RecordType → Text
  protocol : Protocol → Text
  responseCode : ResponseCode → Text

abbrev Attributes := List (String × Text)

def outcomeAttributes (texts : DebugTexts) (request : Request) (outcome : RequestOutcome) :
    Attributes :=
  let (questionType, protocol) :=
    match request.requestInfo with
    | some query =>
      (texts.recordType query.queryType, (texts.protocol request.protocol).map Char.toLower)
    | none => ("unknown".toList, "unknown".toList)
  [("dns.question.type", questionType),
    ("network.protocol.name", protocol),
    ("dns.response.code", (texts.responseCode outcome.responseCode).map Char.toUpper),
    ("dns.authority", (outcome.authority.getD "none").toList)]

/-- A call to one of the three instruments of `DnsMetrics`. -/
inductive Call where
  | queriesAdd (value : Nat) (attributes : Attributes)
  /-- `ms` before it is made an `f64`. -/
  | durationRecord (ms : UInt64) (attributes : Attributes)
  | inFlightAdd (value : Int)
  deriving DecidableEq

/-- `DnsMetrics::record`. -/
def record (texts : DebugTexts) (request : Request) (durationMs : UInt64)
    (outcome : RequestOutcome) : List Call :=
  let attributes := outcomeAttributes texts request outcome
  [.queriesAdd 1 attributes, .durationRecord durationMs attributes]

def beforeRequest : List Call := [.inFlightAdd 1]

def afterRequest (texts : DebugTexts) (request : Request) (durationMs : UInt64)
    (outcome : RequestOutcome) : List Call :=
  .inFlightAdd (-1) :: record texts request durationMs outcome

/-- The calls of an event with the metrics middleware at index `k`. -/
def hook (texts : DebugTexts) (k : Nat) (request : Request) (durationMs : UInt64) :
    Event → List Call
  | .before i => if i = k then beforeRequest else []
  | .after i outcome => if i = k then afterRequest texts request durationMs outcome else []
  | .sent _ _ => []

/-! ## Requests on their way -/

/-- A request on its way. Times are in nanoseconds. -/
structure Flight where
  request : Request
  start : Nat
  /-- What the clock said in `finish`. -/
  finished : Option Nat
  /-- The time that has passed since the request came in, up to `finish`. -/
  waited : Nat
  done : List Event
  pending : List Event

/-- `start.elapsed().as_millis() as u64`, read in `finish`. -/
def Flight.durationMs (f : Flight) : UInt64 :=
  .ofNat ((f.finished.getD f.start - f.start) / 1000000)

def Flight.tick (n : Nat) (f : Flight) : Flight :=
  if f.finished.isSome then f else { f with waited := f.waited + n }

structure Node where
  now : Nat
  flights : List Flight
  calls : List Call

inductive Move (W : Type) where
  | tick (n : Nat)
  | arrive (h : DoggyDnsHandler W) (w : W) (request : Request) (send : Send)
  | finish
  | advance

variable {W : Type} (texts : DebugTexts) (hk : Hickory) (k : Nat)

/-- Time passes, a request comes in, or one of those on their way does its next thing. `finish`
reads the clock once, before the first `after_request`. -/
inductive Step : Node → Move W → Node → Prop where
  | tick {s : Node} {n : Nat} :
    Step s (.tick n) { s with now := s.now + n, flights := s.flights.map (Flight.tick n) }
  | arrive {s : Node} {h : DoggyDnsHandler W} {w : W} {request : Request} {send : Send} :
    h.middlewares[k]? = some dnsMetricsMiddleware →
    Step s (.arrive h w request send)
      { s with flights := s.flights ++
          [⟨request, s.now, none, 0, [], (handleRequest hk h w request send).events⟩] }
  | finish {now : Nat} {xs ys : List Flight} {f : Flight} {calls : List Call} {i : Nat}
    {outcome : RequestOutcome} :
    f.finished = none → f.pending.head? = some (.after i outcome) →
    Step ⟨now, xs ++ f :: ys, calls⟩ .finish
      ⟨now, xs ++ { f with finished := some now } :: ys, calls⟩
  | advance {now : Nat} {xs ys : List Flight} {f : Flight} {e : Event} {pending : List Event}
    {calls : List Call} :
    f.pending = e :: pending →
    (∀ i outcome, e = .after i outcome → f.finished.isSome) →
    Step ⟨now, xs ++ f :: ys, calls⟩ .advance
      ⟨now, xs ++ { f with done := f.done ++ [e], pending := pending } :: ys,
        calls ++ hook texts k f.request f.durationMs e⟩

/-- The outcome an event tells the middleware at `k`. -/
def told (k : Nat) : Event → Option RequestOutcome
  | .after i outcome => if i = k then some outcome else none
  | _ => none

/-- The outcome the middleware has been told. -/
def Flight.outcome (f : Flight) : Option RequestOutcome := f.done.findSome? (told k)

/-! ## What a series should say -/

/-- Four attributes, and what each says about a request and its outcome. -/
structure Labels (texts : DebugTexts) (request : Request) (outcome : RequestOutcome)
    (attributes : Attributes) : Prop where
  four : attributes.length = 4
  question : ∀ query, request.queries = [query] →
    attributes.lookup "dns.question.type" = some (texts.recordType query.queryType) ∧
      attributes.lookup "network.protocol.name" =
        some ((texts.protocol request.protocol).map Char.toLower)
  unknown : request.queries.length ≠ 1 →
    attributes.lookup "dns.question.type" = some "unknown".toList ∧
      attributes.lookup "network.protocol.name" = some "unknown".toList
  code : attributes.lookup "dns.response.code" =
    some ((texts.responseCode outcome.responseCode).map Char.toUpper)
  authority : ∀ name, outcome.authority = some name →
    attributes.lookup "dns.authority" = some name.toList
  nobody : outcome.authority = none → attributes.lookup "dns.authority" = some "none".toList

theorem labels_outcomeAttributes (request : Request) (outcome : RequestOutcome) :
    Labels texts request outcome (outcomeAttributes texts request outcome) where
  four := rfl
  question query hquery := by
    have hinfo : request.requestInfo = some { query with name := query.name.lower } := by
      unfold Request.requestInfo
      rw [hquery]
    unfold outcomeAttributes
    rw [hinfo]
    exact ⟨rfl, rfl⟩
  unknown hlength := by
    have hnone : request.requestInfo = none := by
      unfold Request.requestInfo
      split
      next hquery => exact absurd (by rw [hquery]; rfl) hlength
      next => rfl
    unfold outcomeAttributes
    rw [hnone]
    exact ⟨rfl, rfl⟩
  code := rfl
  authority name hname := by
    show some (outcome.authority.getD "none").toList = _
    rw [hname]
    rfl
  nobody hnone := by
    show some (outcome.authority.getD "none").toList = _
    rw [hnone]
    rfl

/-! ## One request -/

/-- The outcome is that of the last message, which is there. -/
def Tells (outcome : RequestOutcome) (messages : List Message) : Prop :=
  ∃ m, messages.getLast? = some m ∧ outcome.responseCode = m.metadata.responseCode ∧
    outcome.answers = m.answers.length

section
variable {hk : Hickory} {xdpEnabled : Bool} {rotation : AnswerRotation} {request : Request}
  {send : Send}

theorem tells_sendError {i : Nat} {code : ResponseCode} {authoritative : Bool}
    {soa : Option Record} {outcome : RequestOutcome} (hcode : outcome.responseCode = code)
    (hanswers : outcome.answers = 0) (before : List Message) :
    Tells outcome (before ++ [(sendError hk send i request code authoritative soa).2.1]) := by
  refine ⟨_, List.getLast?_concat .., ?_, ?_⟩
  · rw [sendError_sent]
    exact hcode
  · rw [sendError_sent]
    exact hanswers

theorem respond_tells (result : ResolveResult) :
    Tells (respond hk xdpEnabled rotation request send result).outcome
      ((respond hk xdpEnabled rotation request send result).sent.map Prod.fst) := by
  have hans : ∀ lookup,
      Tells (respondAnswers hk xdpEnabled rotation request send result lookup).outcome
        ((respondAnswers hk xdpEnabled rotation request send result lookup).sent.map Prod.fst) := by
    intro lookup
    unfold respondAnswers
    simp only
    split
    · exact ⟨_, rfl, rfl, rfl⟩
    · exact tells_sendError rfl rfl [_]
  unfold respond
  cases result.outcome with
  | skip => exact tells_sendError rfl rfl []
  | «continue» r | «break» r =>
    cases r with
    | ok lookup => exact hans lookup
    | error e => exact tells_sendError rfl rfl []

theorem sentMessages_append (events events' : List Event) :
    sentMessages (events ++ events') = sentMessages events ++ sentMessages events' :=
  List.filterMap_append

theorem sentMessages_finish (ms : List Middleware) (outcome : RequestOutcome) :
    sentMessages (finish ms outcome) = [] := by
  unfold sentMessages finish
  rw [List.filterMap_map]
  exact List.filterMap_eq_nil_iff.mpr fun _ _ => rfl

theorem sentMessages_single (sent : Sent) : sentMessages (sentEvents [sent]) = [sent.1] := rfl

variable {h : DoggyDnsHandler W} {w : W}

/-- Turned away early: the outcome comes first, then the message. -/
theorem early_tells {i : Nat} {code : ResponseCode} {outcome : RequestOutcome}
    (hm : Event.after i outcome ∈ (runBefore request h.middlewares 0).1 ++
      finish h.middlewares (.error code) ++
      sentEvents [(sendError hk send 0 request code false none).2]) :
    Tells outcome (sentMessages ((runBefore request h.middlewares 0).1 ++
      finish h.middlewares (.error code) ++
      sentEvents [(sendError hk send 0 request code false none).2])) := by
  simp only [List.mem_append, after_notMem_runBefore, after_notMem_sentEvents, false_or,
    or_false] at hm
  rw [mem_finish hm, sentMessages_append, sentMessages_append, sentMessages_runBefore,
    sentMessages_finish, sentMessages_single]
  exact tells_sendError rfl rfl []

/-- Every path of a request tells the middlewares what its last message says. -/
theorem handleRequest_tells {i : Nat} {outcome : RequestOutcome}
    (hm : Event.after i outcome ∈ (handleRequest hk h w request send).events) :
    Tells outcome (sentMessages (handleRequest hk h w request send).events) := by
  cases hs : (runBefore request h.middlewares 0).2 with
  | true =>
    have he : (handleRequest hk h w request send).events =
        (runBefore request h.middlewares 0).1 ++ finish h.middlewares (.error .refused) ++
          sentEvents [(sendError hk send 0 request .refused false none).2] := by
      simp [handleRequest, hs]
    rw [he] at hm ⊢
    exact early_tells hm
  | false =>
    cases hq : request.requestInfo with
    | none =>
      have he : (handleRequest hk h w request send).events =
          (runBefore request h.middlewares 0).1 ++ finish h.middlewares (.error .formErr) ++
            sentEvents [(sendError hk send 0 request .formErr false none).2] := by
        simp [handleRequest, hs, hq]
      rw [he] at hm ⊢
      exact early_tells hm
    | some query =>
      have he : (handleRequest hk h w request send).events =
          (runBefore request h.middlewares 0).1 ++
            sentEvents (chainReply hk h w request send query).sent ++
            finish h.middlewares (chainReply hk h w request send query).outcome := by
        simp [handleRequest, chainReply, hs, hq]
      rw [he] at hm
      simp only [List.mem_append, after_notMem_runBefore, after_notMem_sentEvents, false_or] at hm
      rw [mem_finish hm, sentMessages_handleRequest hs hq]
      exact respond_tells _

/-- The middleware at `k` is told once. -/
theorem countP_isAfter {k : Nat} (hmiddleware : h.middlewares[k]? = some dnsMetricsMiddleware) :
    (handleRequest hk h w request send).events.countP (Event.isAfter k) = 1 := by
  obtain ⟨n, -, -, post, he, hpost⟩ := handleRequest_hooks hk h w request send
  have hlt : k < h.middlewares.length := (List.getElem?_eq_some_iff.mp hmiddleware).1
  rw [he, List.countP_append, (hpost k).2, if_pos hlt, countP_isAfter_eq_zero (by simp)]

end

/-! ## Runs -/

def Call.isQueries : Call → Bool
  | .queriesAdd _ _ => true
  | _ => false

def Call.isDuration : Call → Bool
  | .durationRecord _ _ => true
  | _ => false

/-- The calls a request has made. -/
def Flight.calls (f : Flight) : List Call := f.done.flatMap (hook texts k f.request f.durationMs)

/-- What a state knows of one of its requests. -/
structure Flight.Ok (W : Type) (hk : Hickory) (k now : Nat) (f : Flight) : Prop where
  arrived : ∃ (h : DoggyDnsHandler W) (w : W) (send : Send),
    h.middlewares[k]? = some dnsMetricsMiddleware ∧
      f.done ++ f.pending = (handleRequest hk h w f.request send).events
  clock : f.start + f.waited = f.finished.getD now
  unread : f.finished = none → ∀ i outcome, Event.after i outcome ∉ f.done

structure Inv (s : Node) : Prop where
  flights : ∀ f ∈ s.flights, f.Ok W hk k s.now
  called : s.calls.Perm (s.flights.flatMap (Flight.calls texts k))

variable {texts hk k} {s s' : Node}

/-- Only the hooks after the clock was read use the reading. -/
theorem hook_of_not_after {request : Request} {e : Event} (h : ∀ i outcome, e ≠ .after i outcome)
    (ms ms' : UInt64) : hook texts k request ms e = hook texts k request ms' e := by
  cases e with
  | before | sent => rfl
  | after i outcome => exact absurd rfl (h i outcome)

theorem Flight.Ok.calls_finish {now : Nat} {f : Flight} (hf : f.Ok W hk k now)
    (hnone : f.finished = none) :
    Flight.calls texts k { f with finished := some now } = f.calls texts k := by
  refine List.flatMap_congr fun e he => hook_of_not_after (fun i outcome heq => ?_) _ _
  exact hf.unread hnone i outcome (heq ▸ he)

theorem Flight.calls_tick (n : Nat) (f : Flight) : (f.tick n).calls texts k = f.calls texts k := by
  unfold Flight.tick
  split <;> rfl

theorem Flight.Ok.tick {now n : Nat} {f : Flight} (hf : f.Ok W hk k now) :
    (f.tick n).Ok W hk k (now + n) := by
  have hclock := hf.clock
  unfold Flight.tick
  split
  next hsome =>
    obtain ⟨t, ht⟩ := Option.isSome_iff_exists.mp hsome
    rw [ht, Option.getD_some] at hclock
    exact ⟨hf.arrived, by rw [ht]; exact hclock, hf.unread⟩
  next hnone =>
    have hfinished : f.finished = none := Option.not_isSome_iff_eq_none.mp hnone
    rw [hfinished, Option.getD_none] at hclock
    refine ⟨hf.arrived, ?_, hf.unread⟩
    show f.start + (f.waited + n) = f.finished.getD (now + n)
    rw [hfinished, Option.getD_none]
    omega

theorem Flight.Ok.finish {now : Nat} {f : Flight} (hf : f.Ok W hk k now)
    (hnone : f.finished = none) : Flight.Ok W hk k now { f with finished := some now } where
  arrived := hf.arrived
  clock := by
    have hclock := hf.clock
    rw [hnone] at hclock
    exact hclock
  unread h := (nomatch h)

theorem Flight.Ok.advance {now : Nat} {f : Flight} {e : Event} {pending : List Event}
    (hf : f.Ok W hk k now) (hpending : f.pending = e :: pending)
    (hread : ∀ i outcome, e = .after i outcome → f.finished.isSome) :
    Flight.Ok W hk k now { f with done := f.done ++ [e], pending := pending } where
  arrived := by
    obtain ⟨h, w, send, hmiddleware, hevents⟩ := hf.arrived
    refine ⟨h, w, send, hmiddleware, ?_⟩
    rw [← hevents, hpending, List.append_assoc, List.singleton_append]
  clock := hf.clock
  unread hnone i outcome hmem := by
    rcases List.mem_append.mp hmem with hmem | hmem
    · exact hf.unread hnone i outcome hmem
    · have hsome := hread i outcome (List.mem_singleton.mp hmem).symm
      rw [show f.finished = none from hnone] at hsome
      cases hsome

/-- One flight among others changes. -/
theorem forall_mem_replace {P : Flight → Prop} {xs ys : List Flight} {f g : Flight}
    (h : ∀ x ∈ xs ++ f :: ys, P x) (hg : P g) : ∀ x ∈ xs ++ g :: ys, P x := by
  intro x hx
  rcases List.mem_append.mp hx with hx | hx
  · exact h x (List.mem_append_left _ hx)
  · rcases List.mem_cons.mp hx with rfl | hx
    · exact hg
    · exact h x (List.mem_append_right _ (List.mem_cons_of_mem _ hx))

theorem Inv.step {m : Move W} (h : Inv (W := W) texts hk k s) (hs : Step texts hk k s m s') :
    Inv (W := W) texts hk k s' := by
  cases hs with
  | tick =>
    refine ⟨fun f hf => ?_, ?_⟩
    · obtain ⟨g, hg, rfl⟩ := List.mem_map.mp hf
      exact (h.flights g hg).tick
    · rw [List.flatMap_map]
      simp only [Flight.calls_tick]
      exact h.called
  | @arrive _ hd w request send hmiddleware =>
    refine ⟨fun f hf => ?_, ?_⟩
    · rcases List.mem_append.mp hf with hf | hf
      · exact h.flights f hf
      · rw [List.mem_singleton.mp hf]
        exact ⟨⟨hd, w, send, hmiddleware, rfl⟩, rfl, fun _ _ _ hmem => (nomatch hmem)⟩
    · rw [List.flatMap_append]
      simpa [Flight.calls] using h.called
  | @finish now xs ys f calls i outcome hnone hnext =>
    have hf := h.flights f (by simp)
    refine ⟨forall_mem_replace h.flights (hf.finish hnone), ?_⟩
    have hcalled := h.called
    simp only [List.flatMap_append, List.flatMap_cons] at hcalled ⊢
    rw [hf.calls_finish hnone]
    exact hcalled
  | @advance now xs ys f e pending calls hpending hread =>
    refine ⟨forall_mem_replace h.flights ((h.flights f (by simp)).advance hpending hread), ?_⟩
    have hcalls : Flight.calls texts k { f with done := f.done ++ [e], pending := pending } =
        f.calls texts k ++ hook texts k f.request f.durationMs e := by
      show (f.done ++ [e]).flatMap _ = _
      rw [List.flatMap_append, List.flatMap_singleton]
      rfl
    have hcalled := h.called
    rw [List.perm_iff_count] at hcalled ⊢
    intro call
    have hcount := hcalled call
    simp only [List.flatMap_append, List.flatMap_cons, hcalls, List.count_append] at hcount ⊢
    omega

theorem run_inv {now : Nat} {moves : List (Move W)}
    (h : Run (Step texts hk k) ⟨now, [], []⟩ moves s) : Inv (W := W) texts hk k s :=
  h.invariant ⟨fun _ hf => (nomatch hf), .nil⟩ fun h hs => h.step hs

theorem told_eq_some {e : Event} {outcome : RequestOutcome} :
    told k e = some outcome ↔ e = .after k outcome := by
  cases e with
  | before | sent => exact ⟨fun h => (nomatch h), fun h => (nomatch h)⟩
  | after i o =>
    simp only [told, Event.after.injEq]
    split
    next hi => simp [hi]
    next hi => simp [hi]

theorem isSome_told (e : Event) : (told k e).isSome = e.isAfter k := by
  cases e with
  | before | sent => rfl
  | after i outcome =>
    rw [told, Event.isAfter]
    by_cases hi : i = k
    · rw [if_pos hi, hi, beq_self_eq_true]
      rfl
    · rw [if_neg hi, beq_false_of_ne hi]
      rfl

/-- Who is told at most once is told what it was told first. -/
theorem filterMap_told {events : List Event} (h : events.countP (Event.isAfter k) ≤ 1) :
    events.filterMap (told k) = (events.findSome? (told k)).toList := by
  induction events with
  | nil => rfl
  | cons e events ih =>
    rw [List.countP_cons, ← isSome_told] at h
    cases htold : told k e with
    | none =>
      rw [List.filterMap_cons_none htold, List.findSome?_cons_of_isNone (by rw [htold]; rfl),
        ih (by omega)]
    | some outcome =>
      -- nobody behind it tells the middleware again
      rw [htold, Option.isSome_some, if_pos rfl] at h
      have hrest : events.filterMap (told k) = [] := by
        refine List.filterMap_eq_nil_iff.mpr fun e' he' => ?_
        have hzero : events.countP (Event.isAfter k) = 0 := by omega
        have hnot := List.countP_eq_zero.mp hzero e' he'
        rw [← isSome_told, Bool.not_eq_true, Option.isSome_eq_false_iff, Option.isNone_iff_eq_none]
          at hnot
        exact hnot
      rw [List.filterMap_cons_some htold, List.findSome?_cons_of_isSome (by rw [htold]; rfl), hrest,
        htold]
      rfl

/-- A flight that is under way has told the middleware at most once. -/
theorem Inv.told_once (h : Inv (W := W) texts hk k s) {f : Flight} (hf : f ∈ s.flights) :
    (f.done ++ f.pending).countP (Event.isAfter k) = 1 := by
  obtain ⟨hd, w, send, hmiddleware, hevents⟩ := (h.flights f hf).arrived
  rw [hevents]
  exact countP_isAfter hmiddleware

/-- Of a kind of call that `record` makes once, an event that tells the middleware makes one. -/
theorem filter_hook {p : Call → Bool} {request : Request} {ms : UInt64}
    {call : RequestOutcome → Call} (hinFlight : ∀ value, p (.inFlightAdd value) = false)
    (hrecord : ∀ outcome, (record texts request ms outcome).filter p = [call outcome]) (e : Event) :
    (hook texts k request ms e).filter p = ((told k e).map call).toList := by
  cases e with
  | sent => rfl
  | before i =>
    rw [hook]
    split
    · exact List.filter_cons_of_neg (by rw [hinFlight]; decide)
    · rfl
  | after i outcome =>
    rw [hook, told]
    split
    · rw [afterRequest, List.filter_cons_of_neg (by rw [hinFlight]; decide), hrecord]
      rfl
    · rfl

/-- Of such a kind there is one call for each request told. -/
theorem Inv.filter_calls (h : Inv (W := W) texts hk k s) {p : Call → Bool}
    {call : Flight → RequestOutcome → Call} (hinFlight : ∀ value, p (.inFlightAdd value) = false)
    (hrecord : ∀ (f : Flight) outcome,
      (record texts f.request f.durationMs outcome).filter p = [call f outcome]) :
    (s.calls.filter p).Perm (s.flights.filterMap fun f => (f.outcome k).map (call f)) := by
  have hflight : ∀ f ∈ s.flights,
      (f.calls texts k).filter p = ((f.outcome k).map (call f)).toList := by
    intro f hf
    have honce := h.told_once hf
    rw [List.countP_append] at honce
    calc (f.calls texts k).filter p
      _ = f.done.flatMap fun e => ((told k e).map (call f)).toList := by
          rw [Flight.calls, List.filter_flatMap]
          simp only [filter_hook hinFlight (hrecord f)]
      _ = (f.done.filterMap (told k)).map (call f) := by
          rw [← List.filterMap_eq_flatMap_toList, List.map_filterMap]
      _ = ((f.outcome k).map (call f)).toList := by
          rw [filterMap_told (by omega), Flight.outcome]
          cases f.done.findSome? (told k) <;> rfl
  have hperm := h.called.filter p
  rwa [List.filter_flatMap, List.flatMap_congr hflight, ← List.filterMap_eq_flatMap_toList] at hperm

/-- What was told was told after the clock was read: the whole milliseconds it took. -/
theorem Flight.Ok.duration {now : Nat} {f : Flight} (hf : f.Ok W hk k now) {i : Nat}
    {outcome : RequestOutcome} (hmem : Event.after i outcome ∈ f.done) :
    f.durationMs = .ofNat (f.waited / 1000000) := by
  have hclock := hf.clock
  cases hfinished : f.finished with
  | none => exact absurd hmem (hf.unread hfinished i outcome)
  | some t =>
    rw [hfinished, Option.getD_some] at hclock
    rw [Flight.durationMs, hfinished, Option.getD_some, ← hclock, Nat.add_sub_cancel_left]

/-- **The query metrics count what was answered.** In every interleaving of requests and of time,
`dns.queries` is added to once for each request the middleware was told of, and
`dns.query.duration` is recorded once for each, with the whole milliseconds from its arrival to
`finish`; both under four labels that give its question, its transport, its response code and its
authority. Every request that ended was told, and what it was told has the response code and the
number of answers of the last message handed to the socket. -/
theorem queries_counted {now : Nat} {moves : List (Move W)}
    (h : Run (Step texts hk k) ⟨now, [], []⟩ moves s) :
    ∃ series : Request → RequestOutcome → Attributes,
      (∀ request outcome, Labels texts request outcome (series request outcome)) ∧
      (s.calls.filter Call.isQueries).Perm (s.flights.filterMap fun f =>
        (f.outcome k).map fun outcome => .queriesAdd 1 (series f.request outcome)) ∧
      (s.calls.filter Call.isDuration).Perm (s.flights.filterMap fun f =>
        (f.outcome k).map fun outcome =>
          .durationRecord (.ofNat (f.waited / 1000000)) (series f.request outcome)) ∧
      ∀ f ∈ s.flights, (f.pending = [] → (f.outcome k).isSome) ∧
        ∀ outcome, f.outcome k = some outcome →
          Tells outcome (sentMessages (f.done ++ f.pending)) := by
  have hinv := run_inv h
  refine ⟨outcomeAttributes texts, labels_outcomeAttributes texts, ?_, ?_, fun f hf => ?_⟩
  · exact hinv.filter_calls (fun _ => rfl) fun _ _ => rfl
  · refine (hinv.filter_calls (fun _ => rfl) fun _ _ => rfl).trans (.of_eq (List.filterMap_congr fun f hf => ?_))
    refine Option.map_congr fun outcome houtcome => ?_
    obtain ⟨e, he, htold⟩ := List.exists_of_findSome?_eq_some houtcome
    rw [(hinv.flights f hf).duration (told_eq_some.mp htold ▸ he)]
  · obtain ⟨hd, w, send, hmiddleware, hevents⟩ := (hinv.flights f hf).arrived
    refine ⟨fun hended => ?_, fun outcome houtcome => ?_⟩
    · have htold := hinv.told_once hf
      rw [hended, List.append_nil] at htold
      obtain ⟨e, he, hafter⟩ := List.countP_pos_iff.mp (show 0 < _ by rw [htold]; decide)
      rw [Flight.outcome, List.findSome?_isSome_iff]
      exact ⟨e, he, (isSome_told e).trans hafter⟩
    · obtain ⟨e, he, htold⟩ := List.exists_of_findSome?_eq_some houtcome
      rw [hevents]
      refine handleRequest_tells (i := k) ?_
      rw [← hevents, ← told_eq_some.mp htold]
      exact List.mem_append_left _ he

/-- The texts of some of the values. -/
def sampleTexts : DebugTexts where
  recordType t := if t = RecordType.AAAA then "AAAA".toList else "A".toList
  protocol p := if p = .udp then "Udp".toList else "Tcp".toList
  responseCode c := if c = .refused then "Refused".toList else "NoError".toList

/-- The only request on its way does its next thing. -/
theorem Step.next {now : Nat} {f : Flight} {e : Event} {pending : List Event} {calls : List Call}
    (hpending : f.pending = e :: pending)
    (hread : ∀ i outcome, e = .after i outcome → f.finished.isSome) :
    Step (W := W) texts hk k ⟨now, [f], calls⟩ .advance
      ⟨now, [{ f with done := f.done ++ [e], pending := pending }],
        calls ++ hook texts k f.request f.durationMs e⟩ :=
  @Step.advance W texts hk k now [] [] f e pending calls hpending hread

theorem Step.reads {now : Nat} {f : Flight} {calls : List Call} {i : Nat}
    {outcome : RequestOutcome} (hnone : f.finished = none)
    (hnext : f.pending.head? = some (.after i outcome)) :
    Step (W := W) texts hk k ⟨now, [f], calls⟩ .finish
      ⟨now, [{ f with finished := some now }], calls⟩ :=
  @Step.finish W texts hk k now [] [] f calls i outcome hnone hnext

/-- A request that is turned away after five milliseconds counts as refused. -/
theorem queries_counted_sample :
    ∃ moves s attributes, Run (Step (W := Unit) sampleTexts .plain 0) ⟨0, [], []⟩ moves s ∧
      (s.calls.filter Call.isQueries).Perm [.queriesAdd 1 attributes] ∧
      (s.calls.filter Call.isDuration).Perm [.durationRecord 5 attributes] ∧
      attributes.lookup "dns.response.code" = some "REFUSED".toList ∧
      attributes.lookup "dns.authority" = some "none".toList ∧
      attributes.lookup "network.protocol.name" = some "udp".toList ∧
      ∃ f ∈ s.flights, Tells (.error .refused) (sentMessages (f.done ++ f.pending)) := by
  have harrive : Step sampleTexts .plain 0 ⟨0, [], []⟩ (.arrive rejectLast () sampleRequest sendOk)
      ⟨0, [⟨sampleRequest, 0, none, 0, [],
        (handleRequest .plain rejectLast () sampleRequest sendOk).events⟩], []⟩ := .arrive rfl
  have hbefore := (Run.nil.snoc harrive).snoc (.next rfl fun i outcome h => (nomatch h))
  have hreject := (hbefore.snoc (.tick (n := 5000000))).snoc
    (.next rfl fun i outcome h => (nomatch h))
  have hfinish := hreject.snoc (.reads rfl rfl)
  have hafter := (hfinish.snoc (.tick (n := 1000000))).snoc (.next rfl fun i outcome h => rfl)
  obtain ⟨series, hlabels, hqueries, hdurations, htells⟩ := queries_counted hafter
  have hrefused := hlabels sampleRequest (.error .refused)
  refine ⟨_, _, series sampleRequest (.error .refused), hafter, hqueries, hdurations, ?_, ?_, ?_, _,
    List.mem_singleton_self _, (htells _ (List.mem_singleton_self _)).2 _ rfl⟩
  · rw [hrefused.code]
    rfl
  · rw [hrefused.nobody rfl]
  · rw [(hrefused.question _ rfl).2]
    rfl

end Metrics

end DoggyDns
