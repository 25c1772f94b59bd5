import DoggyDns.Nacos.Watcher

/-!
# Queries in flight

Any number of `instances` calls run at once over one ledger and one backoff,
each suspended at its calls of the Nacos client. Every function of the watcher
gets two lemmas, for the waits behind a returned answer (`_ends`) and for those
behind a suspended call (`_waits`); what holds of every query in every
interleaving follows from them through `Async.followed_of_run`.
-/

namespace DoggyDns

open Async Lts

/-- One ended wait of a query. -/
abbrev SdkWake := Wake SdkCall SdkCall.Reply Int64 WatcherState

/-- One `instances` call, from its start on. -/
abbrev CatalogQuery := Thread SdkCall SdkCall.Reply Int64 WatcherState (List UInt8) CatalogAnswer

namespace NacosServiceWatcher

variable (w : NacosServiceWatcher) (service : List UInt8)

/-- The server's own list arrived in time. -/
def Confirmed (x : SdkWake) (l : List ServiceInstance) : Prop :=
  x.event = .reply (some NACOS_LOOKUP_TIMEOUT) (w.confirmWithServer service) (.ok l)

/-- The server request failed or timed out. -/
def ConfirmFailed (x : SdkWake) : Prop :=
  x.event = .elapsed NACOS_LOOKUP_TIMEOUT (w.confirmWithServer service) ∨
  ∃ e, x.event = .reply (some NACOS_LOOKUP_TIMEOUT) (w.confirmWithServer service) (.error e)

/-- The client's view held something to serve. -/
def CacheHit (x : SdkWake) (l : List ServiceInstance) : Prop :=
  x.event = .reply (some NACOS_CACHE_READ_TIMEOUT) (w.fetchCache service) (.ok l) ∧
    usableInstances l ≠ []

def CacheMiss (x : SdkWake) : Prop :=
  x.event = .elapsed NACOS_CACHE_READ_TIMEOUT (w.fetchCache service) ∨
  (∃ e, x.event = .reply (some NACOS_CACHE_READ_TIMEOUT) (w.fetchCache service) (.error e)) ∨
  ∃ l, x.event = .reply (some NACOS_CACHE_READ_TIMEOUT) (w.fetchCache service) (.ok l) ∧
    usableInstances l = []

/-- The waits after the answer of `x`: none for a ledgered name, else the subscription's. -/
def Subscribed (x : SdkWake) (rest : List SdkWake) : Prop :=
  (service ∈ x.before.subscribed ∧ rest = []) ∨
  (service ∉ x.before.subscribed ∧
    ∃ y r, rest = [y] ∧ y.event = .reply none (.subscribe service w.group) r)

variable {w service} {s s' : WatcherState} {n n' : Int64} {log : List SdkWake} {bound : Option Nat}
    {c : SdkCall}

/-! ## The functions one by one -/

theorem recordRemoteFailure_ends {u : Unit} (h : recordRemoteFailure.Ends s n log u s' n') :
    log = [] := by
  unfold recordRemoteFailure Fiber.update at h
  rw [Fiber.now_bind, ends_clock, ends_modify, ends_ret] at h
  exact h.1

theorem recordRemoteFailure_not_waits : ¬recordRemoteFailure.Waits s n log bound c := by
  unfold recordRemoteFailure Fiber.update
  rw [Fiber.now_bind, waits_clock, waits_modify]
  exact not_waits_ret

theorem subscribeName_ends {u : Unit} (h : (w.subscribeName service).Ends s n log u s' n') :
    (service ∈ s.subscribed ∧ log = []) ∨
    (service ∉ s.subscribed ∧
      ∃ y r, log = [y] ∧ y.event = .reply none (.subscribe service w.group) r) := by
  unfold subscribeName at h
  simp only [Fiber.get_bind, ends_read, List.contains_iff_mem] at h
  split at h
  · rename_i hmem
    exact .inl ⟨hmem, (ends_ret.1 h).1⟩
  · rename_i hmem
    rw [Fiber.call_bind, ends_await] at h
    obtain ⟨r, s₁, n₁, rest, rfl, h⟩ := h
    rcases r with e | ⟨⟩
    · obtain ⟨rfl, _⟩ := ends_ret.1 h
      exact .inr ⟨hmem, _, _, rfl, rfl⟩
    · obtain ⟨rfl, _⟩ := ends_ret.1 (ends_modify.1 h)
      exact .inr ⟨hmem, _, _, rfl, rfl⟩

theorem subscribeName_waits (h : (w.subscribeName service).Waits s n log bound c) :
    log = [] ∧ service ∉ s.subscribed ∧ bound = none ∧ c = .subscribe service w.group := by
  unfold subscribeName at h
  simp only [Fiber.get_bind, waits_read, List.contains_iff_mem] at h
  split at h
  · exact absurd h not_waits_ret
  · rename_i hmem
    rw [Fiber.call_bind, waits_await] at h
    rcases h with ⟨hlog, hb, hc⟩ | ⟨r, s₁, n₁, rest, _, h⟩
    · exact ⟨hlog, hmem, hb, hc⟩
    · rcases r with e | ⟨⟩
      · exact absurd h not_waits_ret
      · exact absurd (waits_modify.1 h) not_waits_ret

/-- The server is asked once; its answer stands whatever the subscription does. -/
theorem answerFromServer_ends {a : CatalogAnswer}
    (h : (w.answerFromServer service).Ends s n log a s' n') :
    ∃ x rest, log = x :: rest ∧
      ((∃ l, w.Confirmed service x l ∧ a = answerOf l ∧ w.Subscribed service x rest) ∨
        (w.ConfirmFailed service x ∧ a = .unavailable ∧ rest = [])) := by
  unfold answerFromServer at h
  rw [Fiber.callWithin_bind, ends_timeout] at h
  rcases h with ⟨r, s₁, n₁, rest, rfl, h⟩ | ⟨s₁, n₁, rest, rfl, h⟩
  · refine ⟨_, rest, rfl, ?_⟩
    rcases r with e | l
    · obtain ⟨_, h₁, rfl⟩ := Fiber.Ends.of_bind_ret h
      exact .inr ⟨.inr ⟨e, rfl⟩, rfl, recordRemoteFailure_ends h₁⟩
    · simp only [Fiber.update_bind, ends_modify] at h
      obtain ⟨_, h₁, rfl⟩ := Fiber.Ends.of_bind_ret h
      have hsub := subscribeName_ends h₁
      exact .inl ⟨l, rfl, rfl, hsub⟩
  · obtain ⟨_, h₁, rfl⟩ := Fiber.Ends.of_bind_ret h
    exact ⟨_, rest, rfl, .inr ⟨.inl rfl, rfl, recordRemoteFailure_ends h₁⟩⟩

theorem answerFromServer_waits (h : (w.answerFromServer service).Waits s n log bound c) :
    (log = [] ∧ bound = some NACOS_LOOKUP_TIMEOUT) ∨
    ∃ x l, log = [x] ∧ w.Confirmed service x l ∧ service ∉ x.before.subscribed ∧ bound = none := by
  unfold answerFromServer at h
  rw [Fiber.callWithin_bind, waits_timeout] at h
  rcases h with ⟨hlog, hb, _⟩ | ⟨r, s₁, n₁, rest, rfl, h⟩ | ⟨s₁, n₁, rest, rfl, h⟩
  · exact .inl ⟨hlog, hb⟩
  · rcases r with e | l
    · exact absurd (Fiber.Waits.of_bind_ret h) recordRemoteFailure_not_waits
    · simp only [Fiber.update_bind, waits_modify] at h
      obtain ⟨rfl, hmem, hb, _⟩ := subscribeName_waits (Fiber.Waits.of_bind_ret h)
      exact .inr ⟨_, l, rfl, rfl, hmem, hb⟩
  · exact absurd (Fiber.Waits.of_bind_ret h) recordRemoteFailure_not_waits

/-- A read of the client's view answers only with instances. -/
theorem answerFromCache_ends {a : Option CatalogAnswer}
    (h : (w.answerFromCache service).Ends s n log a s' n') :
    ∃ x rest, log = x :: rest ∧
      ((∃ l, w.CacheHit service x l ∧ a = some (.instances (usableInstances l)) ∧
        w.Subscribed service x rest) ∨
        (w.CacheMiss service x ∧ a = none ∧ rest = [])) := by
  unfold answerFromCache at h
  rw [Fiber.callWithin_bind, ends_timeout] at h
  rcases h with ⟨r, s₁, n₁, rest, rfl, h⟩ | ⟨s₁, n₁, rest, rfl, h⟩
  · refine ⟨_, rest, rfl, ?_⟩
    rcases r with e | l
    · obtain ⟨rfl, rfl, _⟩ := ends_ret.1 h
      exact .inr ⟨.inr (.inl ⟨e, rfl⟩), rfl, rfl⟩
    · by_cases hl : usableInstances l = []
      · simp only [cacheHitOf_eq_none.2 hl] at h
        obtain ⟨rfl, rfl, _⟩ := ends_ret.1 h
        exact .inr ⟨.inr (.inr ⟨l, rfl, hl⟩), rfl, rfl⟩
      · simp only [cacheHitOf_eq_some.2 ⟨hl, rfl⟩] at h
        obtain ⟨_, h₁, rfl⟩ := Fiber.Ends.of_bind_ret h
        exact .inl ⟨l, ⟨rfl, hl⟩, rfl, subscribeName_ends h₁⟩
  · obtain ⟨rfl, rfl, _⟩ := ends_ret.1 h
    exact ⟨_, [], rfl, .inr ⟨.inl rfl, rfl, rfl⟩⟩

theorem answerFromCache_waits (h : (w.answerFromCache service).Waits s n log bound c) :
    (log = [] ∧ bound = some NACOS_CACHE_READ_TIMEOUT) ∨
    ∃ x l, log = [x] ∧ w.CacheHit service x l ∧ service ∉ x.before.subscribed ∧ bound = none := by
  unfold answerFromCache at h
  rw [Fiber.callWithin_bind, waits_timeout] at h
  rcases h with ⟨hlog, hb, _⟩ | ⟨r, s₁, n₁, rest, rfl, h⟩ | ⟨s₁, n₁, rest, rfl, h⟩
  · exact .inl ⟨hlog, hb⟩
  · rcases r with e | l
    · exact absurd h not_waits_ret
    · by_cases hl : usableInstances l = []
      · simp only [cacheHitOf_eq_none.2 hl] at h
        exact absurd h not_waits_ret
      · simp only [cacheHitOf_eq_some.2 ⟨hl, rfl⟩] at h
        obtain ⟨rfl, hmem, hb, _⟩ := subscribeName_waits (Fiber.Waits.of_bind_ret h)
        exact .inr ⟨_, l, rfl, ⟨rfl, hl⟩, hmem, hb⟩
  · exact absurd h not_waits_ret

theorem readClientCache_ends {a : CatalogAnswer}
    (h : (w.readClientCache service).Ends s n log a s' n') :
    ∃ x, log = [x] ∧ x.event.bound = some NACOS_LOOKUP_TIMEOUT ∧
      x.event.call = w.fetchCache service := by
  unfold readClientCache at h
  rw [Fiber.callWithin_bind, ends_timeout] at h
  rcases h with ⟨r, s₁, n₁, rest, rfl, h⟩ | ⟨s₁, n₁, rest, rfl, h⟩
  · rcases r with e | l
    · obtain ⟨rfl, _⟩ := ends_ret.1 h
      exact ⟨_, rfl, rfl, rfl⟩
    · obtain ⟨rfl, _⟩ := ends_ret.1 h
      exact ⟨_, rfl, rfl, rfl⟩
  · obtain ⟨_, h₁, _⟩ := Fiber.Ends.of_bind_ret h
    obtain rfl := recordRemoteFailure_ends h₁
    exact ⟨_, rfl, rfl, rfl⟩

theorem readClientCache_waits (h : (w.readClientCache service).Waits s n log bound c) :
    log = [] ∧ bound = some NACOS_LOOKUP_TIMEOUT := by
  unfold readClientCache at h
  rw [Fiber.callWithin_bind, waits_timeout] at h
  rcases h with ⟨hlog, hb, _⟩ | ⟨r, s₁, n₁, rest, rfl, h⟩ | ⟨s₁, n₁, rest, rfl, h⟩
  · exact ⟨hlog, hb⟩
  · rcases r with e | l <;> exact absurd h not_waits_ret
  · exact absurd (Fiber.Waits.of_bind_ret h) recordRemoteFailure_not_waits

/-! ## Where an answer comes from -/

variable (w service) in
/-- The four arms of `instances`. -/
def byEntry : QueryEntry → CatalogFiber CatalogAnswer
  | .clientCache => w.readClientCache service
  | .cacheFirst => w.answerFromCache service >>= fun
    | some answer => .ret answer
    | none => w.answerFromServer service
  | .serverFirst => w.answerFromServer service >>= fun
    | .unavailable => w.answerFromCache service >>= fun hit => .ret (hit.getD .unavailable)
    | answer => .ret answer
  | .cacheOnly => w.answerFromCache service >>= fun
    | some answer => .ret answer
    | none => .ret .unavailable

theorem instances_selected (hsel : w.isSelected service = true) :
    w.instances service = .clock fun now => .read fun s =>
      w.byEntry service (entryOf (s.subscribed.contains service) s.backoff.everConfirmed
        (s.backoff.isOpen now)) := by
  unfold instances
  simp only [hsel, Bool.not_true, Bool.false_eq_true, if_false, Fiber.now_bind, Fiber.get_bind]
  rfl

theorem instances_rejected (hsel : w.isSelected service = false) :
    w.instances service = .ret .unknown := by
  unfold instances
  rw [hsel]
  rfl

/-- The sources of an answer for a name outside the ledger: the server's own
list, or, where the entry or the server's failure allows it, the client's view. -/
theorem instances_ends {a : CatalogAnswer} (hsel : w.isSelected service = true)
    (hled : service ∉ s.subscribed) (h : (w.instances service).Ends s n log a s' n') :
    a = .unavailable ∨ (∃ x ∈ log, ∃ l, w.Confirmed service x l ∧ a = answerOf l) ∨
    ∃ x ∈ log, ∃ l, w.CacheHit service x l ∧ a = .instances (usableInstances l) ∧
      (s.backoff.everConfirmed = false ∨ s.backoff.isOpen n = true ∨
        ∃ y ∈ log, w.ConfirmFailed service y) := by
  have hc : s.subscribed.contains service = false := by simpa using hled
  simp only [instances_selected hsel, ends_clock, ends_read, hc] at h
  generalize he : entryOf _ _ _ = entry at h
  cases entry with
  | clientCache => exact absurd (entryOf_eq_clientCache.1 he) Bool.false_ne_true
  | cacheFirst =>
    have hnever := (entryOf_eq_cacheFirst.1 he).2.1
    obtain ⟨log₁, log₂, hit, s₁, n₁, rfl, h₁, h₂⟩ := Fiber.Ends.of_bind h
    obtain ⟨x, rest, rfl, ⟨l, hx, rfl, _⟩ | ⟨_, rfl, _⟩⟩ := answerFromCache_ends h₁
    · obtain ⟨_, rfl, _⟩ := ends_ret.1 h₂
      exact .inr (.inr ⟨x, by simp, l, hx, rfl, .inl hnever⟩)
    · obtain ⟨y, rest, rfl, ⟨l, hy, rfl, _⟩ | ⟨_, rfl, _⟩⟩ := answerFromServer_ends h₂
      · exact .inr (.inl ⟨y, by simp, l, hy, rfl⟩)
      · exact .inl rfl
  | serverFirst =>
    obtain ⟨log₁, log₂, answer, s₁, n₁, rfl, h₁, h₂⟩ := Fiber.Ends.of_bind h
    obtain ⟨x, rest, rfl, ⟨l, hx, rfl, _⟩ | ⟨hx, rfl, _⟩⟩ := answerFromServer_ends h₁
    · right; left
      refine ⟨x, by simp, l, hx, ?_⟩
      split at h₂
      · exact absurd ‹_› (answerOf_ne_unavailable l)
      · exact (ends_ret.1 h₂).2.1.symm
    · obtain ⟨hit, h₃, rfl⟩ := Fiber.Ends.of_bind_ret h₂
      obtain ⟨y, rest', rfl, ⟨l, hy, rfl, _⟩ | ⟨_, rfl, _⟩⟩ := answerFromCache_ends h₃
      · exact .inr (.inr ⟨y, by simp, l, hy, rfl, .inr (.inr ⟨x, by simp, hx⟩)⟩)
      · exact .inl rfl
  | cacheOnly =>
    have hopen := (entryOf_eq_cacheOnly.1 he).2
    obtain ⟨log₁, log₂, hit, s₁, n₁, rfl, h₁, h₂⟩ := Fiber.Ends.of_bind h
    obtain ⟨x, rest, rfl, ⟨l, hx, rfl, _⟩ | ⟨_, rfl, _⟩⟩ := answerFromCache_ends h₁
    · obtain ⟨_, rfl, _⟩ := ends_ret.1 h₂
      exact .inr (.inr ⟨x, by simp, l, hx, rfl, .inr (.inl hopen)⟩)
    · exact .inl (ends_ret.1 h₂).2.1.symm

/-- Provenance of every catalog answer, in every interleaving of queries. A
rejected name causes no call and is unknown. A selected name that was not in
the ledger when its query chose its entry is unknown only on the server's own
reply to this query, and its instances come from one list this query was given:
the client's view only if the registry had never been confirmed, the backoff
window was open, or this query's server request failed. -/
theorem catalog_answer_provenance {ls m} (hrun : Run (Step w.instances) ⟨{}, []⟩ ls m) {th}
    (hth : th ∈ m.threads) :
    (w.isSelected th.input = false → th.waits = [] ∧ th.fiber = .ret .unknown) ∧
    (w.isSelected th.input = true → th.input ∉ th.seen.subscribed →
      (th.fiber = .ret .unknown →
        ∃ x ∈ th.log, ∃ l, w.Confirmed th.input x l ∧ usableInstances l = []) ∧
      ∀ answers, th.fiber = .ret (.instances answers) → answers ≠ [] ∧
        ∃ x ∈ th.log, ∃ bound subscribe l,
          x.event = .reply bound (.getAllInstances th.input w.group subscribe) (.ok l) ∧
          (∀ answer ∈ answers, ∃ i ∈ l,
            i.healthy ∧ i.enabled ∧ CachedInstance.fromServiceInstance i = some answer) ∧
          (subscribe = true → th.seen.backoff.everConfirmed = false ∨
            th.seen.backoff.isOpen th.start = true ∨
            ∃ y ∈ th.log, w.ConfirmFailed th.input y)) := by
  obtain ⟨s', n', h⟩ := followed_of_run hrun th hth
  refine ⟨fun hsel => ?_, fun hsel hled => ⟨fun hu => ?_, fun answers hi => ?_⟩⟩
  · rw [instances_rejected hsel] at h
    generalize hlog : th.log = log at h
    generalize hfib : th.fiber = fiber at h
    cases h
    simp [Thread.waits, hlog, hfib, Fiber.pending]
  · rw [hu] at h
    obtain h | ⟨x, hx, l, hl, ha⟩ | ⟨_, _, _, _, h, _⟩ := instances_ends hsel hled h
    · cases h
    · exact ⟨x, hx, l, hl, answerOf_eq_unknown.1 ha.symm⟩
    · cases h
  · rw [hi] at h
    obtain h | ⟨x, hx, l, hl, ha⟩ | ⟨x, hx, l, ⟨hl, hne⟩, ha, hwhy⟩ := instances_ends hsel hled h
    · cases h
    · obtain ⟨hne, rfl⟩ := answerOf_eq_instances.1 ha.symm
      exact ⟨hne, x, hx, _, false, l, hl, fun _ => mem_usableInstances.1,
        fun h => absurd h Bool.false_ne_true⟩
    · cases ha
      exact ⟨hne, x, hx, _, true, l, hl, fun _ => mem_usableInstances.1, fun _ => hwhy⟩

/-- Selects every name. -/
def sampleWatcher : NacosServiceWatcher := { group := [0x67], isSelected := fun _ => true }

/-- `10.0.0.1`, port 80. -/
def sampleInstance : ServiceInstance :=
  { ip := [0x31, 0x30, 0x2E, 0x30, 0x2E, 0x30, 0x2E, 0x31], port := 80, healthy := true,
    enabled := true }

/-- The first query of a name at start-up: the client's view does not answer, the server does. -/
theorem catalog_answer_provenance_sample :
    ∃ ls m th, Run (Step sampleWatcher.instances) ⟨{}, []⟩ ls m ∧ th ∈ m.threads ∧
      th.fiber = .ret (.instances (usableInstances [sampleInstance])) ∧
        usableInstances [sampleInstance] ≠ [] ∧
      ∃ x ∈ th.log, ∃ bound subscribe l,
        x.event = .reply bound (.getAllInstances th.input sampleWatcher.group subscribe) (.ok l) ∧
        (∀ answer ∈ usableInstances [sampleInstance], ∃ i ∈ l,
          i.healthy ∧ i.enabled ∧ CachedInstance.fromServiceInstance i = some answer) ∧
        (subscribe = true → th.seen.backoff.everConfirmed = false ∨
          th.seen.backoff.isOpen th.start = true ∨
          ∃ y ∈ th.log, sampleWatcher.ConfirmFailed th.input y) := by
  have spawned : Run (Step sampleWatcher.instances) ⟨{}, []⟩ _ _ := .snoc .nil (.spawn _ [0x61] 0)
  have missed := spawned.snoc (.wake _ 0 _ _ _ 0 rfl (.elapsed _ _ _))
  have confirmed := missed.snoc (.wake _ 0 _ _ _ 3 rfl (.inTime _ _ _ (.ok [sampleInstance])))
  have hrun := confirmed.snoc (.wake _ 0 _ _ _ 3 rfl (.await _ _ (.ok ())))
  refine ⟨_, _, _, hrun, List.mem_cons_self, rfl, ?_⟩
  exact ((catalog_answer_provenance hrun List.mem_cons_self).2 rfl nofun).2 _ rfl

end NacosServiceWatcher

end DoggyDns
