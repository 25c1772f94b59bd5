import DoggyDns.Nacos.Inflight
import DoggyDns.System.Flags

/-!
# What a client learns about a service

From the list the registry hands to one query, through the watcher's choice of
a source, the zone handler, the chain and the rotation, to the message on the
socket. The addresses of a reply are those of the healthy enabled instances of
one list that this query was given; it says that the name does not exist only
on such a list without any, and that the server failed only when the query was
given nothing it may use.
-/

namespace DoggyDns

open Async Lts

/-! ## What a query was given -/

namespace NacosServiceWatcher

variable (w : NacosServiceWatcher) (service : List UInt8)

/-- The query was handed the list. -/
def Given (log : List SdkWake) (l : List ServiceInstance) : Prop :=
  ∃ x ∈ log, ∃ bound subscribe,
    x.event = .reply bound (.getAllInstances service w.group subscribe) (.ok l)

/-- The query was handed no list of the server, and no view of the client with an instance. -/
def Uninformed (log : List SdkWake) : Prop :=
  ∀ x ∈ log, ∀ bound subscribe l,
    x.event = .reply bound (.getAllInstances service w.group subscribe) (.ok l) →
      subscribe = true ∧ usableInstances l = []

variable {w service} {s s' : WatcherState} {n n' : Int64} {log : List SdkWake}

theorem Given.of_confirmed {x : SdkWake} {l : List ServiceInstance} (hx : x ∈ log)
    (h : w.Confirmed service x l) : w.Given service log l :=
  ⟨x, hx, _, _, h⟩

theorem Given.of_hit {x : SdkWake} {l : List ServiceInstance} (hx : x ∈ log)
    (h : w.CacheHit service x l) : w.Given service log l :=
  ⟨x, hx, _, _, h.1⟩

theorem uninformed_nil : w.Uninformed service [] := fun _ hx => absurd hx List.not_mem_nil

theorem Uninformed.cons_failed {x : SdkWake} (h : w.ConfirmFailed service x)
    (hlog : w.Uninformed service log) : w.Uninformed service (x :: log) := by
  intro y hy bound subscribe l hl
  rcases List.mem_cons.mp hy with rfl | hy
  · rcases h with h | ⟨e, h⟩
    · cases h.symm.trans hl
    · cases h.symm.trans hl
  · exact hlog y hy bound subscribe l hl

theorem Uninformed.cons_miss {x : SdkWake} (h : w.CacheMiss service x)
    (hlog : w.Uninformed service log) : w.Uninformed service (x :: log) := by
  intro y hy bound subscribe l hl
  rcases List.mem_cons.mp hy with rfl | hy
  · rcases h with h | ⟨e, h⟩ | ⟨l', h, hempty⟩
    · cases h.symm.trans hl
    · cases h.symm.trans hl
    · cases h.symm.trans hl
      exact ⟨rfl, hempty⟩
  · exact hlog y hy bound subscribe l hl

/-- A ledgered name is answered with the client's view, whatever stands in it. -/
theorem readClientCache_source {a : CatalogAnswer}
    (h : (w.readClientCache service).Ends s n log a s' n') :
    (a = .unavailable ∧ w.Uninformed service log) ∨
      ∃ l, w.Given service log l ∧ a = answerOf l := by
  unfold readClientCache at h
  rw [Fiber.callWithin_bind, ends_timeout] at h
  rcases h with ⟨r, s₁, n₁, rest, rfl, h⟩ | ⟨s₁, n₁, rest, rfl, h⟩
  · rcases r with e | l
    · obtain ⟨rfl, rfl, _⟩ := ends_ret.1 h
      refine .inl ⟨rfl, fun x hx bound subscribe l hl => ?_⟩
      rw [List.mem_singleton.mp hx] at hl
      cases hl
    · obtain ⟨rfl, rfl, _⟩ := ends_ret.1 h
      exact .inr ⟨l, ⟨_, List.mem_cons_self, _, _, rfl⟩, rfl⟩
  · obtain ⟨_, h₁, rfl⟩ := Fiber.Ends.of_bind_ret h
    obtain rfl := recordRemoteFailure_ends h₁
    refine .inl ⟨rfl, fun x hx bound subscribe l hl => ?_⟩
    rw [List.mem_singleton.mp hx] at hl
    cases hl

theorem answerFromServer_source {a : CatalogAnswer}
    (h : (w.answerFromServer service).Ends s n log a s' n') :
    (a = .unavailable ∧ w.Uninformed service log) ∨
      ∃ l, w.Given service log l ∧ a = answerOf l := by
  obtain ⟨x, rest, rfl, ⟨l, hx, rfl, _⟩ | ⟨hx, rfl, rfl⟩⟩ := answerFromServer_ends h
  · exact .inr ⟨l, .of_confirmed List.mem_cons_self hx, rfl⟩
  · exact .inl ⟨rfl, uninformed_nil.cons_failed hx⟩

theorem answerFromCache_source {hit : Option CatalogAnswer}
    (h : (w.answerFromCache service).Ends s n log hit s' n') :
    (hit = none ∧ ∀ rest, w.Uninformed service rest → w.Uninformed service (log ++ rest)) ∨
      ∃ l, w.Given service log l ∧ hit = some (answerOf l) := by
  obtain ⟨x, rest, rfl, ⟨l, hx, rfl, _⟩ | ⟨hx, rfl, rfl⟩⟩ := answerFromCache_ends h
  · refine .inr ⟨l, .of_hit List.mem_cons_self hx, ?_⟩
    rw [answerOf_eq_instances.mpr ⟨hx.2, rfl⟩]
  · exact .inl ⟨rfl, fun rest hrest => hrest.cons_miss hx⟩

theorem Given.append_left {log' : List SdkWake} {l : List ServiceInstance}
    (h : w.Given service log' l) (log : List SdkWake) : w.Given service (log ++ log') l := by
  obtain ⟨x, hx, he⟩ := h
  exact ⟨x, List.mem_append_right _ hx, he⟩

theorem Given.append_right {log' : List SdkWake} {l : List ServiceInstance}
    (h : w.Given service log l) : w.Given service (log ++ log') l := by
  obtain ⟨x, hx, he⟩ := h
  exact ⟨x, List.mem_append_left _ hx, he⟩

/-- Whichever source the entry names, the answer is read off one list that this query was given,
and a query that was given none to use is not answered. -/
theorem instances_source {a : CatalogAnswer} (hsel : w.isSelected service = true)
    (h : (w.instances service).Ends s n log a s' n') :
    (a = .unavailable ∧ w.Uninformed service log) ∨
      ∃ l, w.Given service log l ∧ a = answerOf l := by
  simp only [instances_selected hsel, ends_clock, ends_read] at h
  generalize entryOf _ _ _ = entry at h
  cases entry with
  | clientCache => exact readClientCache_source h
  | cacheFirst =>
    obtain ⟨log₁, log₂, hit, s₁, n₁, rfl, h₁, h₂⟩ := Fiber.Ends.of_bind h
    rcases answerFromCache_source h₁ with ⟨rfl, hmiss⟩ | ⟨l, hl, rfl⟩
    · rcases answerFromServer_source h₂ with ⟨rfl, hnone⟩ | ⟨l, hl, rfl⟩
      · exact .inl ⟨rfl, hmiss _ hnone⟩
      · exact .inr ⟨l, hl.append_left log₁, rfl⟩
    · obtain ⟨rfl, rfl, _⟩ := ends_ret.1 h₂
      exact .inr ⟨l, hl.append_right, rfl⟩
  | serverFirst =>
    obtain ⟨log₁, log₂, answer, s₁, n₁, rfl, h₁, h₂⟩ := Fiber.Ends.of_bind h
    obtain ⟨x, rest, rfl, ⟨l, hx, rfl, _⟩ | ⟨hx, rfl, rfl⟩⟩ := answerFromServer_ends h₁
    · refine .inr ⟨l, (Given.of_confirmed List.mem_cons_self hx).append_right, ?_⟩
      split at h₂
      · exact absurd ‹_› (answerOf_ne_unavailable l)
      · exact (ends_ret.1 h₂).2.1.symm
    · obtain ⟨hit, h₃, rfl⟩ := Fiber.Ends.of_bind_ret h₂
      rcases answerFromCache_source h₃ with ⟨rfl, hmiss⟩ | ⟨l, hl, rfl⟩
      · have hlog := hmiss [] uninformed_nil
        rw [List.append_nil] at hlog
        exact .inl ⟨rfl, hlog.cons_failed hx⟩
      · exact .inr ⟨l, hl.append_left [x], rfl⟩
  | cacheOnly =>
    obtain ⟨log₁, log₂, hit, s₁, n₁, rfl, h₁, h₂⟩ := Fiber.Ends.of_bind h
    rcases answerFromCache_source h₁ with ⟨rfl, hmiss⟩ | ⟨l, hl, rfl⟩
    · obtain ⟨rfl, rfl, _⟩ := ends_ret.1 h₂
      exact .inl ⟨rfl, hmiss [] uninformed_nil⟩
    · obtain ⟨rfl, rfl, _⟩ := ends_ret.1 h₂
      exact .inr ⟨l, hl.append_right, rfl⟩

variable (w service) in
/-- Some query of the watcher, in some interleaving with others, ended with this answer after the
waits of `log`. -/
def Finishes (log : List SdkWake) (answer : CatalogAnswer) : Prop :=
  ∃ ls m, Run (Step w.instances) ⟨{}, []⟩ ls m ∧
    ∃ th ∈ m.threads, th.input = service ∧ th.log = log ∧ th.fiber = .ret answer

theorem Finishes.source {a : CatalogAnswer} (h : w.Finishes service log a) :
    (w.isSelected service = false ∧ a = .unknown) ∨
    (a = .unavailable ∧ w.Uninformed service log) ∨
      ∃ l, w.Given service log l ∧ a = answerOf l := by
  obtain ⟨ls, m, hrun, th, hth, rfl, rfl, hfiber⟩ := h
  obtain ⟨s', n', hends⟩ := followed_of_run hrun th hth
  rw [hfiber] at hends
  cases hsel : w.isSelected th.input with
  | false =>
    rw [instances_rejected hsel] at hends
    exact .inl ⟨rfl, (ends_ret.1 hends).2.1.symm⟩
  | true => exact .inr (instances_source hsel hends)

end NacosServiceWatcher

/-! ## What a reply says -/

/-- The address a record carries. -/
def RData.address : RData → Option IpAddr
  | .a ip => some (.v4 ip)
  | .aaaa ip => some (.v6 ip)
  | _ => none

/-- A healthy enabled instance of the list has the address. -/
def Lists (l : List ServiceInstance) (ip : IpAddr) : Prop :=
  ∃ i ∈ l, i.healthy ∧ i.enabled ∧ IpAddr.fromStr i.ip = some ip

section
variable {W : Type}

/-- The reply tells the client what the list says. -/
structure Tells (a : NacosAuthority W) (query : Query) (l : List ServiceInstance) (m : Message) :
    Prop where
  code : (m.metadata.responseCode = .noError ∧ ∃ ip, Lists l ip) ∨
    (m.metadata.responseCode = .nxDomain ∧ ¬ ∃ ip, Lists l ip)
  answers : m.answers.IsRotated
    (toDnsRecords query.name (usableInstances l) a.ttl query.queryType)
  addresses : ∀ r, r ∈ m.answers ↔ r.name = query.name ∧ r.ttl = a.ttl ∧
    r.data.rtype = query.queryType ∧ ∃ ip, r.data.address = some ip ∧ Lists l ip
  soa : m.authoritySection = if m.answers = [] then [a.apexSoa] else []

variable {hk : Hickory} {request : Request} {rotation : AnswerRotation} {label : Option String}
  {a : NacosAuthority W} {query : Query}

end

end DoggyDns
