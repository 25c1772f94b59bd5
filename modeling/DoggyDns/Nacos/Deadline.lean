import Mathlib.Data.List.Perm.Subperm
import DoggyDns.Nacos.Inflight

/-!
# Deadlines of a query

The calls that fetch instances all run under a bound; the subscription that
follows a known answer does not. `FindsLedgered` says of one reply that no
subscription follows it, and `Kept` follows it through the functions.
-/

namespace DoggyDns

open Async Lts

namespace NacosServiceWatcher

variable {w : NacosServiceWatcher} {service : List UInt8}

/-- Where the query would subscribe after this reply, the name is in the ledger already. -/
def FindsLedgered (service : List UInt8) (x : SdkWake) : Prop :=
  match x.event with
  | .reply (some bound) (.getAllInstances _ _ subscribe) (.ok l) =>
    (subscribe = false ∨ bound = NACOS_CACHE_READ_TIMEOUT ∧ usableInstances l ≠ []) →
      service ∈ x.before.subscribed
  | _ => True

theorem findsLedgered_confirmed {x : SdkWake} {l} (h : w.Confirmed service x l) :
    FindsLedgered service x ↔ service ∈ x.before.subscribed := by
  simp only [Confirmed, confirmWithServer] at h
  simp [FindsLedgered, h]

theorem findsLedgered_confirmFailed {x : SdkWake}
    (h : w.ConfirmFailed service x) : FindsLedgered service x := by
  rcases h with h | ⟨e, h⟩ <;> simp [FindsLedgered, h, confirmWithServer]

theorem findsLedgered_cacheHit {x : SdkWake} {l} (h : w.CacheHit service x l) :
    FindsLedgered service x ↔ service ∈ x.before.subscribed := by
  obtain ⟨h, hne⟩ := h
  simp only [fetchCache] at h
  simp [FindsLedgered, h, hne]

theorem findsLedgered_cacheMiss {x : SdkWake}
    (h : w.CacheMiss service x) : FindsLedgered service x := by
  rcases h with h | ⟨e, h⟩ | ⟨l, h, hl⟩
  · simp [FindsLedgered, h]
  · simp [FindsLedgered, h, fetchCache]
  · simp [FindsLedgered, h, fetchCache, hl]

/-- A ledgered name's read is not followed by a subscription. -/
theorem findsLedgered_fetchCache {x : SdkWake} (hb : x.event.bound = some NACOS_LOOKUP_TIMEOUT)
    (hc : x.event.call = w.fetchCache service) : FindsLedgered service x := by
  obtain ⟨s, n, ⟨b, c, r⟩ | ⟨b, c⟩⟩ := x
  · obtain rfl : b = some NACOS_LOOKUP_TIMEOUT := hb
    obtain rfl : c = w.fetchCache service := hc
    rcases r with e | l
    · exact trivial
    · rintro (h | ⟨h, _⟩)
      · cases h
      · exact absurd h (by decide)
  · exact trivial

/-- The waits begun so far, `pend` last, are those of `expected` if every reply
found the name in the ledger where it had to; else one of them has no bound. -/
def Kept (service : List UInt8) (expected : List Nat) (log : List SdkWake)
    (pend : List (Option Nat)) : Prop :=
  ((∀ x ∈ log, FindsLedgered service x) ∧ log.map (·.event.bound) ++ pend = expected.map some) ∨
  ((∃ x ∈ log, ¬FindsLedgered service x) ∧ none ∈ log.map (·.event.bound) ++ pend)

theorem Kept.append {e₁ e₂ : List Nat} {log₁ log₂ : List SdkWake} {pend : List (Option Nat)}
    (h₁ : Kept service e₁ log₁ []) (h₂ : Kept service e₂ log₂ pend) :
    Kept service (e₁ ++ e₂) (log₁ ++ log₂) pend := by
  simp only [Kept, List.append_nil, List.map_append, List.append_assoc, List.mem_append] at h₁ h₂ ⊢
  rcases h₁ with ⟨hall₁, hw₁⟩ | ⟨⟨x, hx, hbad⟩, hnone⟩
  · rcases h₂ with ⟨hall₂, hw₂⟩ | ⟨⟨x, hx, hbad⟩, hnone⟩
    · exact .inl ⟨fun x hx => hx.elim (hall₁ x) (hall₂ x), by rw [hw₁, hw₂]⟩
    · exact .inr ⟨⟨x, .inr hx, hbad⟩, .inr hnone⟩
  · exact .inr ⟨⟨x, .inl hx, hbad⟩, .inl hnone⟩

/-- A reply the query subscribes after, with the subscription's wait if there is one. -/
theorem Subscribed.kept {x : SdkWake} {rest : List SdkWake} {b : Nat}
    (h : w.Subscribed service x rest)
    (hx : FindsLedgered service x ↔ service ∈ x.before.subscribed) (hb : x.event.bound = some b) :
    Kept service [b] (x :: rest) [] := by
  rcases h with ⟨hmem, rfl⟩ | ⟨hmem, y, r, rfl, hy⟩
  · exact .inl ⟨by simpa using hx.2 hmem, by simp [hb]⟩
  · exact .inr ⟨⟨x, by simp, fun h => hmem (hx.1 h)⟩, by simp [hy, Event.bound]⟩

theorem Confirmed.bound {x : SdkWake} {l} (h : w.Confirmed service x l) :
    x.event.bound = some NACOS_LOOKUP_TIMEOUT := by
  rw [h]; rfl

theorem ConfirmFailed.bound {x : SdkWake} (h : w.ConfirmFailed service x) :
    x.event.bound = some NACOS_LOOKUP_TIMEOUT := by
  rcases h with h | ⟨e, h⟩ <;> rw [h] <;> rfl

theorem CacheHit.bound {x : SdkWake} {l} (h : w.CacheHit service x l) :
    x.event.bound = some NACOS_CACHE_READ_TIMEOUT := by
  rw [h.1]; rfl

theorem CacheMiss.bound {x : SdkWake} (h : w.CacheMiss service x) :
    x.event.bound = some NACOS_CACHE_READ_TIMEOUT := by
  rcases h with h | ⟨e, h⟩ | ⟨l, h, _⟩ <;> rw [h] <;> rfl

theorem Kept.single {x : SdkWake} {b : Nat} (hx : FindsLedgered service x)
    (hb : x.event.bound = some b) :
    Kept service [b] [x] [] :=
  .inl ⟨by simpa using hx, by simp [hb]⟩

/-- Suspended in the subscription. -/
theorem Kept.subscribing {x : SdkWake} {e : List Nat}
    (hx : FindsLedgered service x ↔ service ∈ x.before.subscribed)
    (hmem : service ∉ x.before.subscribed) : Kept service e [x] [none] :=
  .inr ⟨⟨x, by simp, fun h => hmem (hx.1 h)⟩, by simp⟩

/-! ## Along the functions -/

/-- However its waits end, the fiber keeps to one of `paths`. -/
structure Keeps {α : Type} (service : List UInt8) (paths : List Nat → Prop)
    (t : CatalogFiber α) : Prop where
  ends {s n log a s' n'} : t.Ends s n log a s' n' → ∃ e, paths e ∧ Kept service e log []
  waits {s n log bound c} : t.Waits s n log bound c → ∃ e, paths e ∧ Kept service e log [bound]

section
variable {α β : Type} {paths : List Nat → Prop} {first : List Nat}

theorem keeps_ret (a : α) : Keeps service (· = []) (.ret a) where
  ends h := by
    obtain ⟨rfl, _⟩ := ends_ret.1 h
    exact ⟨[], rfl, .inl ⟨by simp, rfl⟩⟩
  waits h := absurd h not_waits_ret

theorem Keeps.bind {t : CatalogFiber α} {f : α → CatalogFiber β} (ht : Keeps service (· = first) t)
    (later : List Nat → Prop) (hf : ∀ a, Keeps service later (f a)) (hfirst : paths first)
    (hlater : ∀ e, later e → paths (first ++ e)) : Keeps service paths (t >>= f) where
  ends h := by
    obtain ⟨log₁, log₂, a, s₁, n₁, rfl, h₁, h₂⟩ := Fiber.Ends.of_bind h
    obtain ⟨_, rfl, k₁⟩ := ht.ends h₁
    obtain ⟨e, he, k₂⟩ := (hf a).ends h₂
    exact ⟨_, hlater e he, k₁.append k₂⟩
  waits h := by
    rcases Fiber.Waits.of_bind h with h | ⟨log₁, log₂, a, s₁, n₁, rfl, h₁, h₂⟩
    · obtain ⟨_, rfl, k⟩ := ht.waits h
      exact ⟨_, hfirst, k⟩
    · obtain ⟨_, rfl, k₁⟩ := ht.ends h₁
      obtain ⟨e, he, k₂⟩ := (hf a).waits h₂
      exact ⟨_, hlater e he, k₁.append k₂⟩

theorem Keeps.mono {t : CatalogFiber α} {later : List Nat → Prop} (h : Keeps service later t)
    (hp : ∀ e, later e → paths e) :
    Keeps service paths t where
  ends he := (h.ends he).imp fun e => And.imp_left (hp e)
  waits hw := (h.waits hw).imp fun e => And.imp_left (hp e)

end

theorem answerFromServer_keeps : Keeps service (· = [NACOS_LOOKUP_TIMEOUT])
    (w.answerFromServer service) where
  ends h := by
    refine ⟨_, rfl, ?_⟩
    obtain ⟨x, rest, rfl, ⟨l, hx, _, hsub⟩ | ⟨hx, _, rfl⟩⟩ := answerFromServer_ends h
    · exact hsub.kept (findsLedgered_confirmed hx) hx.bound
    · exact .single (findsLedgered_confirmFailed hx) hx.bound
  waits h := by
    refine ⟨_, rfl, ?_⟩
    obtain ⟨rfl, rfl⟩ | ⟨x, l, rfl, hx, hmem, rfl⟩ := answerFromServer_waits h
    · exact .inl ⟨by simp, rfl⟩
    · exact .subscribing (findsLedgered_confirmed hx) hmem

theorem answerFromCache_keeps : Keeps service (· = [NACOS_CACHE_READ_TIMEOUT])
    (w.answerFromCache service) where
  ends h := by
    refine ⟨_, rfl, ?_⟩
    obtain ⟨x, rest, rfl, ⟨l, hx, _, hsub⟩ | ⟨hx, _, rfl⟩⟩ := answerFromCache_ends h
    · exact hsub.kept (findsLedgered_cacheHit hx) hx.bound
    · exact .single (findsLedgered_cacheMiss hx) hx.bound
  waits h := by
    refine ⟨_, rfl, ?_⟩
    obtain ⟨rfl, rfl⟩ | ⟨x, l, rfl, hx, hmem, rfl⟩ := answerFromCache_waits h
    · exact .inl ⟨by simp, rfl⟩
    · exact .subscribing (findsLedgered_cacheHit hx) hmem

theorem readClientCache_keeps : Keeps service (· = [NACOS_LOOKUP_TIMEOUT])
    (w.readClientCache service) where
  ends h := by
    obtain ⟨x, rfl, hb, hc⟩ := readClientCache_ends h
    exact ⟨_, rfl, .single (findsLedgered_fetchCache hb hc) hb⟩
  waits h := by
    obtain ⟨rfl, rfl⟩ := readClientCache_waits h
    exact ⟨_, rfl, .inl ⟨by simp, rfl⟩⟩

/-- The bounds a query may wait under, by its entry. -/
def entryPaths : QueryEntry → List (List Nat)
  | .clientCache => [[NACOS_LOOKUP_TIMEOUT]]
  | .cacheFirst => [[NACOS_CACHE_READ_TIMEOUT], [NACOS_CACHE_READ_TIMEOUT, NACOS_LOOKUP_TIMEOUT]]
  | .serverFirst => [[NACOS_LOOKUP_TIMEOUT], [NACOS_LOOKUP_TIMEOUT, NACOS_CACHE_READ_TIMEOUT]]
  | .cacheOnly => [[NACOS_CACHE_READ_TIMEOUT]]

theorem byEntry_keeps (entry : QueryEntry) : Keeps service (· ∈ entryPaths entry)
    (w.byEntry service entry) := by
  cases entry with
  | clientCache => exact readClientCache_keeps.mono (by simp [entryPaths])
  | cacheFirst =>
    refine answerFromCache_keeps.bind ((· ∈ [[], [NACOS_LOOKUP_TIMEOUT]])) ?_ (by simp [entryPaths])
      (by simp [entryPaths])
    rintro (_ | answer)
    · exact answerFromServer_keeps.mono (by simp)
    · exact (keeps_ret _).mono (by simp)
  | serverFirst =>
    refine answerFromServer_keeps.bind ((· ∈ [[], [NACOS_CACHE_READ_TIMEOUT]])) ?_
      (by simp [entryPaths]) (by simp [entryPaths])
    rintro (l | _ | _)
    · exact (keeps_ret _).mono (by simp)
    · exact (keeps_ret _).mono (by simp)
    · exact answerFromCache_keeps.bind (· = []) (fun _ => keeps_ret _) (by simp) (by simp)
  | cacheOnly =>
    refine answerFromCache_keeps.bind ((· = [])) ?_ (by simp [entryPaths]) (by simp [entryPaths])
    rintro (_ | answer)
    · exact keeps_ret _
    · exact keeps_ret _

/-- The bounds of one query: at most one of three seconds and one of fifty
milliseconds, after which it has answered; only the latter where the name is
not in the ledger and the backoff window is open. -/
structure Deadlined (w : NacosServiceWatcher) (th : CatalogQuery) : Prop where
  bounded : ∀ wait ∈ th.waits,
    wait = some NACOS_LOOKUP_TIMEOUT ∨ wait = some NACOS_CACHE_READ_TIMEOUT
  total : th.waits.Subperm [some NACOS_LOOKUP_TIMEOUT, some NACOS_CACHE_READ_TIMEOUT]
  ends : (∃ answer, th.fiber = .ret answer) ∨
    ∃ bound call, th.fiber.pending = some (some bound, call) ∧ th.log.length < 2
  window : w.isSelected th.input = true → th.input ∉ th.seen.subscribed →
    th.seen.backoff.isOpen th.start = true → th.waits = [some NACOS_CACHE_READ_TIMEOUT]

theorem subperm_of_entryPaths (entry : QueryEntry) :
    ∀ e ∈ entryPaths entry, e.Subperm [NACOS_LOOKUP_TIMEOUT, NACOS_CACHE_READ_TIMEOUT] := by
  cases entry <;> decide

theorem query_kept {th : CatalogQuery} {s' n'}
    (h : (w.instances th.input).Follows th.seen th.start th.log th.fiber s' n') :
    ∃ e : List Nat, e.Subperm [NACOS_LOOKUP_TIMEOUT, NACOS_CACHE_READ_TIMEOUT] ∧
      (w.isSelected th.input = true → th.input ∉ th.seen.subscribed →
        th.seen.backoff.isOpen th.start = true → e = [NACOS_CACHE_READ_TIMEOUT]) ∧
      Kept th.input e th.log (th.fiber.pending.map Prod.fst).toList := by
  cases hsel : w.isSelected th.input with
  | false =>
    rw [instances_rejected hsel] at h
    generalize hlog : th.log = log at h
    generalize hfib : th.fiber = fiber at h
    cases h
    exact ⟨[], List.nil_subperm, nofun, .inl ⟨by simp, rfl⟩⟩
  | true =>
    generalize hentry : entryOf (th.seen.subscribed.contains th.input) th.seen.backoff.everConfirmed
      (th.seen.backoff.isOpen th.start) = entry
    have hwindow : th.input ∉ th.seen.subscribed → th.seen.backoff.isOpen th.start = true →
        entry = .cacheOnly := by
      intro hled hopen
      rw [← hentry, entryOf_eq_cacheOnly]
      exact ⟨by simpa using hled, hopen⟩
    obtain ⟨e, he, hk⟩ : ∃ e ∈ entryPaths entry,
      Kept th.input e th.log (th.fiber.pending.map Prod.fst).toList := by
      rcases h.ends_or_waits with ⟨a, ha⟩ | ⟨bound, c, hp, hw⟩
      · rw [ha, instances_selected hsel] at h
        have hends := ends_read.1 (ends_clock.1 h)
        rw [hentry] at hends
        rw [ha]
        exact (byEntry_keeps entry).ends hends
      · rw [instances_selected hsel, waits_clock, waits_read, hentry] at hw
        rw [hp]
        exact (byEntry_keeps entry).waits hw
    refine ⟨e, subperm_of_entryPaths entry e he, fun _ hled hopen => ?_, hk⟩
    rw [hwindow hled hopen] at he
    simpa [entryPaths] using he

/-- In every interleaving a query waits within its deadlines exactly when each
reply it would subscribe after finds the name in the ledger. -/
theorem query_deadlined_iff {ls m} (hrun : Run (Step w.instances) ⟨{}, []⟩ ls m) {th}
    (hth : th ∈ m.threads) :
    Deadlined w th ↔ ∀ x ∈ th.log, FindsLedgered th.input x := by
  obtain ⟨s', n', h⟩ := followed_of_run hrun th hth
  obtain ⟨e, hsub, hwindow, ⟨hall, hw⟩ | ⟨⟨x, hx, hbad⟩, hnone⟩⟩ := query_kept h
  · refine iff_of_true ?_ hall
    have hwaits : th.waits = e.map some := hw
    have htotal := hsub.map (f := some) fun _ _ => Option.some.inj
    rw [← hwaits] at htotal
    refine ⟨fun wait hmem => by simpa using htotal.subset hmem, htotal, ?_,
      fun hsel hled hopen => ?_⟩
    · rcases h.ends_or_waits with hret | ⟨bound, c, hp, _⟩
      · exact .inl hret
      · have hlen := htotal.length_le
        have hmem : bound ∈ th.waits := by simp [Thread.waits, hp]
        obtain ⟨b, _, rfl⟩ := List.mem_map.1 (hwaits ▸ hmem)
        simp only [Thread.waits, hp, List.length_append, List.length_map, Option.map_some,
          Option.toList_some,
          List.length_cons, List.length_nil] at hlen
        exact .inr ⟨b, c, hp, by omega⟩
    · rw [hwaits, hwindow hsel hled hopen]
      rfl
  · refine iff_of_false (fun hd => ?_) fun hall => hbad (hall x hx)
    rcases hd.bounded none hnone with h | h <;> cases h

/-- An outage at start-up: the client's view and then the server time out. -/
theorem query_deadlined_outage :
    ∃ ls m th, Run (Step sampleWatcher.instances) ⟨{}, []⟩ ls m ∧ th ∈ m.threads ∧
      th.waits = [some NACOS_CACHE_READ_TIMEOUT, some NACOS_LOOKUP_TIMEOUT] ∧
      th.fiber = .ret .unavailable ∧ Deadlined sampleWatcher th := by
  have spawned : Run (Step sampleWatcher.instances) ⟨{}, []⟩ _ _ := .snoc .nil (.spawn _ [0x61] 0)
  have missed := spawned.snoc (.wake _ 0 _ _ _ 0 rfl (.elapsed _ _ _))
  have hrun := missed.snoc (.wake _ 0 _ _ _ 3 rfl (.elapsed _ _ _))
  refine ⟨_, _, _, hrun, List.mem_cons_self, rfl, rfl, ?_⟩
  refine (query_deadlined_iff hrun List.mem_cons_self).2 fun x hx => ?_
  rcases List.mem_cons.1 hx with rfl | hx
  · exact trivial
  · obtain rfl := List.mem_singleton.1 hx
    exact trivial

/-- The server confirms a first query, which then waits for its subscription with no bound. -/
theorem first_query_waits_unbounded :
    ∃ ls m th, Run (Step sampleWatcher.instances) ⟨{}, []⟩ ls m ∧ th ∈ m.threads ∧
      th.fiber.pending = some (none, .subscribe th.input sampleWatcher.group) ∧
        ¬Deadlined sampleWatcher th := by
  have spawned : Run (Step sampleWatcher.instances) ⟨{}, []⟩ _ _ := .snoc .nil (.spawn _ [0x61] 0)
  have missed := spawned.snoc (.wake _ 0 _ _ _ 0 rfl (.elapsed _ _ _))
  have hrun := missed.snoc (.wake _ 0 _ _ _ 3 rfl (.inTime _ _ _ (.ok [sampleInstance])))
  refine ⟨_, _, _, hrun, List.mem_cons_self, rfl, fun hd => ?_⟩
  rcases hd.bounded none (List.mem_cons_of_mem _ (List.mem_cons_of_mem _ List.mem_cons_self))
    with h | h <;> cases h

end NacosServiceWatcher

end DoggyDns
