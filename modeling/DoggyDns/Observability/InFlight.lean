import Mathlib.Tactic.Ring
import DoggyDns.Core.Cached
import DoggyDns.Lib.Run

/-!
# Balanced hooks and the in-flight counter

`finish` calls `after_request` on every middleware, also when one in front
short-circuited and those behind it never saw the request. So the hooks of a
request are balanced exactly when every middleware but the last lets it
through, and `dns.queries.in_flight`, which `DnsMetricsMiddleware` raises in
one hook and lowers in the other, drifts on every other request.

`Traffic` is any number of requests, each part of the way through its events.
-/

namespace DoggyDns

open Lts

/-! ## One request -/

def Event.isBefore (i : Nat) : Event → Bool
  | .before j => j == i
  | _ => false

def Event.isAfter (i : Nat) : Event → Bool
  | .after j _ => j == i
  | _ => false

/-- `after_request` of each middleware ran once where its `before_request` ran, else never. -/
def HooksBalanced (events : List Event) : Prop :=
  ∀ i, (0 < events.countP (Event.isBefore i) → events.countP (Event.isAfter i) = 1) ∧
    (events.countP (Event.isBefore i) = 0 → events.countP (Event.isAfter i) = 0)

/-- Every middleware in front of another one lets the request through. -/
def FrontContinues (request : Request) (middlewares : List Middleware) : Prop :=
  ∀ m ∈ middlewares.dropLast, m.beforeRequest request = .continue

section
variable {W : Type} {hk : Hickory} {h : DoggyDnsHandler W} {w : W} {request : Request} {send : Send}

/-- `before_request` runs on the first `n` middlewares: on all of them exactly when those in
front let the request through. -/
theorem runBefore_events (request : Request) (ms : List Middleware) (j : Nat) :
    ∃ n ≤ ms.length, (runBefore request ms j).1 = (List.range' j n).map Event.before ∧
      (n = ms.length ↔ FrontContinues request ms) := by
  induction ms generalizing j with
  | nil => exact ⟨0, le_rfl, rfl, by simp [FrontContinues]⟩
  | cons m ms ih =>
    unfold runBefore
    cases hm : m.beforeRequest request with
    | shortCircuit =>
      refine ⟨1, by simp, rfl, ?_⟩
      cases ms with
      | nil => simp [FrontContinues]
      | cons m' ms => simp [FrontContinues, hm]
    | «continue» =>
      obtain ⟨n, hn, he, hiff⟩ := ih (j + 1)
      refine ⟨n + 1, by simpa using hn, by simp [he, List.range'_succ], ?_⟩
      rw [List.length_cons, Nat.add_right_cancel_iff, hiff]
      cases ms with
      | nil => simp [FrontContinues]
      | cons m' ms => simp [FrontContinues, hm]

theorem countP_isBefore_map (i j n : Nat) :
    ((List.range' j n).map Event.before).countP (Event.isBefore i) =
      if j ≤ i ∧ i < j + n then 1 else 0 := by
  rw [List.countP_map]
  show (List.range' j n).countP (fun x => x == i) = _
  show (List.range' j n).count i = _
  rw [List.count_range_1']

theorem countP_isAfter_finish (ms : List Middleware) (o : RequestOutcome) (i : Nat) :
    (finish ms o).countP (Event.isAfter i) = if i < ms.length then 1 else 0 := by
  unfold finish
  rw [List.countP_map]
  show (List.range ms.length).count i = _
  rw [List.count_range]

theorem countP_isAfter_eq_zero {events : List Event} {i : Nat}
    (h : ∀ o, Event.after i o ∉ events) : events.countP (Event.isAfter i) = 0 := by
  rw [List.countP_eq_zero]
  intro e he hi
  cases e with
  | before | sent => cases hi
  | after j o => exact h o (eq_of_beq hi ▸ he)

theorem countP_isBefore_finish (ms : List Middleware) (o : RequestOutcome) (i : Nat) :
    (finish ms o).countP (Event.isBefore i) = 0 := by
  unfold finish
  rw [List.countP_map, List.countP_eq_zero]
  exact fun _ _ h => by cases h

theorem countP_isBefore_sentEvents (sent : List Sent) (i : Nat) :
    (sentEvents sent).countP (Event.isBefore i) = 0 := by
  unfold sentEvents
  rw [List.countP_map, List.countP_eq_zero]
  exact fun _ _ h => by cases h

variable (hk h w request send) in
/-- The hooks of a request on each of its three exits: the front ones before, then all after. -/
theorem handleRequest_hooks :
    ∃ n ≤ h.middlewares.length, (n = h.middlewares.length ↔ FrontContinues request h.middlewares) ∧
      ∃ post, (handleRequest hk h w request send).events =
        (List.range' 0 n).map Event.before ++ post ∧
      ∀ i, post.countP (Event.isBefore i) = 0 ∧
        post.countP (Event.isAfter i) = if i < h.middlewares.length then 1 else 0 := by
  obtain ⟨n, hn, he, hiff⟩ := runBefore_events request h.middlewares 0
  refine ⟨n, hn, hiff, ?_⟩
  have hs : ∀ sent i, (sentEvents sent).countP (Event.isAfter i) = 0 := fun sent i =>
    countP_isAfter_eq_zero fun _ => after_notMem_sentEvents
  rcases handleRequest_events hk h w request send with ⟨code, sent, hev⟩ | ⟨query, -, hev⟩
  · refine ⟨_, by rw [hev, he, List.append_assoc], fun i => ?_⟩
    rw [List.countP_append, List.countP_append, hs, countP_isBefore_finish,
      countP_isBefore_sentEvents, countP_isAfter_finish]
    exact ⟨rfl, rfl⟩
  · refine ⟨_, by rw [hev, he, List.append_assoc], fun i => ?_⟩
    rw [List.countP_append, List.countP_append, hs, countP_isBefore_finish,
      countP_isBefore_sentEvents, countP_isAfter_finish]
    exact ⟨rfl, Nat.zero_add _⟩

/-- The hooks of a request are balanced exactly when the middlewares in front let it through. -/
theorem hooksBalanced_iff :
    HooksBalanced (handleRequest hk h w request send).events ↔
      FrontContinues request h.middlewares := by
  obtain ⟨n, hn, hiff, post, he, hpost⟩ := handleRequest_hooks hk h w request send
  have hb : ∀ i, (handleRequest hk h w request send).events.countP (Event.isBefore i) =
      if i < n then 1 else 0 := by
    intro i
    rw [he, List.countP_append, countP_isBefore_map, (hpost i).1]
    simp
  have ha : ∀ i, (handleRequest hk h w request send).events.countP (Event.isAfter i) =
      if i < h.middlewares.length then 1 else 0 := by
    intro i
    rw [he, List.countP_append, (hpost i).2, countP_isAfter_eq_zero (by simp), Nat.zero_add]
  rw [← hiff]
  constructor
  · -- the first middleware that was skipped still has its after hook
    intro hbal
    have hskip := (hbal n).2
    rw [hb, ha] at hskip
    by_contra hne
    simp [show n < h.middlewares.length by omega] at hskip
  · rintro rfl i
    rw [hb, ha]
    split <;> simp

end

/-! ## The counter over a run -/

/-- `DnsMetricsMiddleware` lets every request through. -/
def dnsMetricsMiddleware : Middleware := ⟨fun _ => .continue⟩

/-- What an event adds to `dns.queries.in_flight` with the metrics middleware at index `k`. -/
def inFlightDelta (k : Nat) : Event → Int
  | .before i => if i = k then 1 else 0
  | .after i _ => if i = k then -1 else 0
  | .sent _ _ => 0

/-- A request on its way: what it did, and what it still does. -/
structure InProgress where
  done : List Event
  pending : List Event

/-- The metrics middleware saw the request, and `finish` did not come back to it yet. -/
def InProgress.isOpen (k : Nat) (p : InProgress) : Bool :=
  0 < p.done.countP (Event.isBefore k) ∧ p.done.countP (Event.isAfter k) = 0

/-- All requests since the start of the process, and the counter. -/
structure Traffic where
  requests : List InProgress
  inFlight : Int

inductive Traffic.Label (W : Type) where
  | arrive (h : DoggyDnsHandler W) (w : W) (request : Request) (send : Send)
  | advance

/-- A request comes in, or one of those on their way does its next thing. -/
inductive Traffic.Step {W : Type} (hk : Hickory) (k : Nat) :
    Traffic → Traffic.Label W → Traffic → Prop where
  | arrive {s : Traffic} {h : DoggyDnsHandler W} {w : W} {request : Request} {send : Send} :
    h.middlewares[k]? = some dnsMetricsMiddleware →
    Traffic.Step hk k s (.arrive h w request send)
      { s with requests := s.requests ++ [⟨[], (handleRequest hk h w request send).events⟩] }
  | advance {xs ys : List InProgress} {done pending : List Event} {e : Event} {n : Int} :
    Traffic.Step hk k ⟨xs ++ ⟨done, e :: pending⟩ :: ys, n⟩ .advance
      ⟨xs ++ ⟨done ++ [e], pending⟩ :: ys, n + inFlightDelta k e⟩

/-- An arrival whose middlewares in front of another let it through. -/
def Traffic.Label.Meets {W : Type} : Traffic.Label W → Prop
  | .arrive h _ request _ => FrontContinues request h.middlewares
  | .advance => True

/-- One hook before and one after, in that order, and no other of the `k`-th middleware. -/
def HooksInOrder (k : Nat) (events : List Event) : Prop :=
  ∃ pre post, events = pre ++ post ∧
    pre.countP (Event.isBefore k) = 1 ∧ pre.countP (Event.isAfter k) = 0 ∧
    post.countP (Event.isBefore k) = 0 ∧ post.countP (Event.isAfter k) = 1

theorem hooksInOrder_handleRequest {W : Type} {hk : Hickory} {h : DoggyDnsHandler W} {w : W}
    {request : Request} {send : Send} {k : Nat}
    (hk' : h.middlewares[k]? = some dnsMetricsMiddleware)
    (hfront : FrontContinues request h.middlewares) :
    HooksInOrder k (handleRequest hk h w request send).events := by
  obtain ⟨n, -, hiff, post, he, hpost⟩ := handleRequest_hooks hk h w request send
  have hlt : k < h.middlewares.length := List.getElem?_eq_some_iff.mp hk' |>.1
  refine ⟨_, post, he, ?_, countP_isAfter_eq_zero (by simp), (hpost k).1, ?_⟩
  · rw [countP_isBefore_map, hiff.mpr hfront]
    simp [hlt]
  · rw [(hpost k).2, if_pos hlt]

theorem sum_inFlightDelta (k : Nat) (events : List Event) :
    (events.map (inFlightDelta k)).sum =
      events.countP (Event.isBefore k) - events.countP (Event.isAfter k) := by
  induction events with
  | nil => rfl
  | cons e events ih =>
    rw [List.map_cons, List.sum_cons, ih, List.countP_cons, List.countP_cons]
    cases e with
    | sent => simp [inFlightDelta, Event.isBefore, Event.isAfter]
    | before i | after i =>
      simp only [inFlightDelta, Event.isBefore, Event.isAfter, beq_iff_eq, Bool.false_eq_true,
        if_false]
      split <;> push_cast <;> omega

/-- What a request with ordered hooks has added so far. -/
theorem sum_done {k : Nat} {p : InProgress} (h : HooksInOrder k (p.done ++ p.pending)) :
    (p.done.map (inFlightDelta k)).sum = if p.isOpen k then 1 else 0 := by
  obtain ⟨pre, post, he, hb, ha, hb', ha'⟩ := h
  rw [sum_inFlightDelta]
  simp only [InProgress.isOpen, decide_eq_true_eq]
  -- the request stands either before or after the turning point of its events
  rcases List.append_eq_append_iff.mp he with ⟨c, rfl, -⟩ | ⟨c, hd, rfl⟩
  · rw [List.countP_append] at hb ha
    split <;> omega
  · rw [hd, List.countP_append, List.countP_append]
    rw [List.countP_append] at hb' ha'
    split <;> omega

/-- What every reachable state satisfies, as long as the arrivals meet the condition. -/
structure Traffic.Inv (k : Nat) (s : Traffic) : Prop where
  ordered : ∀ p ∈ s.requests, HooksInOrder k (p.done ++ p.pending)
  counted : s.inFlight = (s.requests.map fun p => (p.done.map (inFlightDelta k)).sum).sum

theorem Traffic.Inv.step {W : Type} {hk : Hickory} {k : Nat} {s s' : Traffic}
    {l : Traffic.Label W} (hi : s.Inv k) (hs : Traffic.Step hk k s l s') (hl : l.Meets) :
    s'.Inv k := by
  cases hs with
  | arrive hm =>
    refine ⟨fun p hp => ?_, ?_⟩
    · rcases List.mem_append.mp hp with hp | hp
      · exact hi.ordered p hp
      · rw [List.mem_singleton.mp hp]
        exact hooksInOrder_handleRequest hm hl
    · simpa using hi.counted
  | @advance xs ys done pending e n =>
    refine ⟨fun p hp => ?_, ?_⟩
    · rcases List.mem_append.mp hp with hp | hp
      · exact hi.ordered p (List.mem_append_left _ hp)
      · rcases List.mem_cons.mp hp with rfl | hp
        · simpa using hi.ordered ⟨done, e :: pending⟩ (by simp)
        · exact hi.ordered p (List.mem_append_right _ (List.mem_cons_of_mem _ hp))
    · have hc := hi.counted
      simp only [List.map_append, List.map_cons, List.sum_append, List.sum_cons, List.map_nil,
        List.sum_nil] at hc ⊢
      omega

theorem Traffic.Inv.run {W : Type} {hk : Hickory} {k : Nat} {s : Traffic}
    {ls : List (Traffic.Label W)} (hrun : Run (Traffic.Step hk k) ⟨[], 0⟩ ls s)
    (hls : ∀ l ∈ ls, l.Meets) : s.Inv k := by
  induction hrun with
  | nil => exact ⟨by simp, rfl⟩
  | snoc _ hs ih =>
    exact (ih fun l hl => hls l (List.mem_append_left _ hl)).step hs (hls _ (by simp))

theorem Traffic.Inv.inFlight_eq {k : Nat} {s : Traffic} (hi : s.Inv k) :
    s.inFlight = (s.requests.countP (InProgress.isOpen k) : Nat) := by
  rw [hi.counted]
  have ho := hi.ordered
  generalize s.requests = ps at ho
  induction ps with
  | nil => rfl
  | cons p ps ih =>
    rw [List.map_cons, List.sum_cons, sum_done (ho p List.mem_cons_self), List.countP_cons,
      ih fun q hq => ho q (List.mem_cons_of_mem _ hq)]
    split <;> push_cast <;> omega

/-- **Hooks are balanced exactly when the middlewares in front of another let the request
through, and then the in-flight counter counts.** The counter is exact in every state of every
run of such requests, and back at zero when all of them ended. -/
theorem hooks_balanced_iff_front_continues {W : Type} (hk : Hickory) :
    (∀ (h : DoggyDnsHandler W) (w : W) (request : Request) (send : Send),
      HooksBalanced (handleRequest hk h w request send).events ↔
        FrontContinues request h.middlewares) ∧
    ∀ (k : Nat) (ls : List (Traffic.Label W)) (s : Traffic),
      Run (Traffic.Step hk k) ⟨[], 0⟩ ls s → (∀ l ∈ ls, l.Meets) →
      s.inFlight = (s.requests.countP (InProgress.isOpen k) : Nat) ∧ 0 ≤ s.inFlight ∧
      ((∀ p ∈ s.requests, p.pending = []) → s.inFlight = 0) := by
  refine ⟨fun h w request send => hooksBalanced_iff, fun k ls s hrun hls => ?_⟩
  have hi := Traffic.Inv.run hrun hls
  refine ⟨hi.inFlight_eq, by rw [hi.inFlight_eq]; omega, fun hdone => ?_⟩
  rw [hi.inFlight_eq, Int.natCast_eq_zero, List.countP_eq_zero]
  intro p hp ho
  obtain ⟨pre, post, he, -, -, -, ha⟩ := hi.ordered p hp
  rw [hdone p hp, List.append_nil] at he
  simp only [InProgress.isOpen, decide_eq_true_eq, he, List.countP_append] at ho
  omega

/-- A middleware that turns every request away. -/
def rejectAll : Middleware := ⟨fun _ => .shortCircuit⟩

def rejectLast : DoggyDnsHandler Unit := ⟨[dnsMetricsMiddleware, rejectAll], [], false, ⟨false, 0⟩⟩

def rejectFirst : DoggyDnsHandler Unit := ⟨[rejectAll, dnsMetricsMiddleware], [], false, ⟨false, 0⟩⟩

/-- The only request on its way does its next thing. -/
theorem Traffic.Step.single {W : Type} {hk : Hickory} {k : Nat} {done pending : List Event}
    {e : Event} {n : Int} :
    Traffic.Step (W := W) hk k ⟨[⟨done, e :: pending⟩], n⟩ .advance
      ⟨[⟨done ++ [e], pending⟩], n + inFlightDelta k e⟩ :=
  @Traffic.Step.advance W hk k [] [] done pending e n

/-- Metrics in front of the rejecting middleware: the request is counted. -/
theorem hooks_balanced_reject_last :
    HooksBalanced (handleRequest .plain rejectLast () sampleRequest sendOk).events ∧
    ∃ s, Run (Traffic.Step .plain 0) ⟨[], 0⟩
        [.arrive rejectLast () sampleRequest sendOk, .advance] s ∧
      s.inFlight = (s.requests.countP (InProgress.isOpen 0) : Nat) ∧ s.inFlight = 1 := by
  have hfront : FrontContinues sampleRequest rejectLast.middlewares := by
    intro m hm
    rw [List.mem_singleton.mp hm]
    rfl
  have harrive : Traffic.Step .plain 0 ⟨[], 0⟩ (.arrive rejectLast () sampleRequest sendOk)
      ⟨[⟨[], (handleRequest .plain rejectLast () sampleRequest sendOk).events⟩], 0⟩ := .arrive rfl
  have hrun := (Run.nil.snoc harrive).snoc .single
  have hboth := hooks_balanced_iff_front_continues (W := Unit) .plain
  refine ⟨(hboth.1 _ _ _ _).mpr hfront, _, hrun, (hboth.2 0 _ _ hrun ?_).1, rfl⟩
  intro l hl
  rcases List.mem_cons.mp hl with rfl | hl
  · exact hfront
  · rw [List.mem_singleton.mp hl]
    trivial

/-- Metrics behind it: `after_request` without `before_request`, and minus one in flight. -/
theorem after_without_before :
    ¬ HooksBalanced (handleRequest .plain rejectFirst () sampleRequest sendOk).events ∧
    ∃ ls s, Run (Traffic.Step (W := Unit) .plain 1) ⟨[], 0⟩ ls s ∧ s.inFlight = -1 := by
  refine ⟨fun hbal => absurd ((hbal 1).2 rfl) (by decide), ?_⟩
  have harrive : Traffic.Step .plain 1 ⟨[], 0⟩ (.arrive rejectFirst () sampleRequest sendOk)
      ⟨[⟨[], (handleRequest .plain rejectFirst () sampleRequest sendOk).events⟩], 0⟩ := .arrive rfl
  exact ⟨_, _, (((Run.nil.snoc harrive).snoc .single).snoc .single).snoc .single, rfl⟩

end DoggyDns
