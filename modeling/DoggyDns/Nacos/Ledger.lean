import DoggyDns.Nacos.Inflight
import Mathlib.Data.List.Nodup

/-!
# The ledger

The names this process subscribed and the flag that the registry ever answered
are shared by all queries in flight. Both are exact, in every interleaving: a
name is in the ledger if and only if a query was told its subscription stands,
and the registry counts as confirmed if and only if a query got its reply. What
a query may ask the client for follows from what it found when it started.
-/

namespace DoggyDns

open Async Lts

abbrev SdkLabel := Async.Label SdkCall SdkCall.Reply Int64 (List UInt8)

namespace NacosServiceWatcher

variable (w : NacosServiceWatcher)

/-- A query was told that its subscription of `service` stands. -/
def Acknowledged (ls : List SdkLabel) (service : List UInt8) : Prop :=
  ∃ j bound now, .wake j (.reply bound (.subscribe service w.group) (.ok ())) now ∈ ls

/-- A query was given the server's own list. -/
def Answered (ls : List SdkLabel) : Prop :=
  ∃ j bound service l now,
    .wake j (.reply bound (.getAllInstances service w.group false) (.ok l)) now ∈ ls

/-- What a reply of the run stands for. -/
def Evidence (ls : List SdkLabel) : (c : SdkCall) → c.Reply → Prop
  | .subscribe service group, r => group = w.group → r = .ok () → w.Acknowledged ls service
  | .getAllInstances _ group false, r => group = w.group → (∃ l, r = .ok l) → w.Answered ls
  | .getAllInstances _ _ true, _ => True

/-- What the shared state records is what happened. -/
structure Recorded (ls : List SdkLabel) (s : WatcherState) : Prop where
  nodup : s.subscribed.Nodup
  selected : ∀ service ∈ s.subscribed, w.isSelected service = true
  acknowledged : ∀ service ∈ s.subscribed, w.Acknowledged ls service
  answered : s.backoff.everConfirmed = true → w.Answered ls

/-- What a reply leaves in the shared state. -/
def Noted : (c : SdkCall) → c.Reply → WatcherState → Prop
  | .subscribe service group, r, s => group = w.group → r = .ok () → service ∈ s.subscribed
  | .getAllInstances _ group false, r, s =>
    group = w.group → (∃ l, r = .ok l) → s.backoff.everConfirmed = true
  | .getAllInstances _ _ true, _, _ => True

variable {w} {service : List UInt8} {ls : List SdkLabel}

/-! ## What the functions do to the shared state -/

section
variable {I : WatcherState → Prop} {ok : (c : SdkCall) → c.Reply → Prop}

theorem recordRemoteFailure_preserves
    (hfail : ∀ now s, I s → I { s with backoff := (s.backoff.recordFailure now).2 }) :
    recordRemoteFailure.Preserves I ok :=
  fun now => ⟨hfail now, trivial⟩

theorem subscribeName_preserves
    (hsub : ok (.subscribe service w.group) (.ok ()) →
      ∀ s, I s → I { s with subscribed := s.subscribed.insert service }) :
    (w.subscribeName service).Preserves I ok := by
  unfold subscribeName
  rw [Fiber.get_bind]
  intro s
  dsimp only
  split
  · trivial
  · rw [Fiber.call_bind]
    intro r hr
    rcases r with e | ⟨⟩
    · trivial
    · exact ⟨hsub hr, trivial⟩

theorem answerFromServer_preserves
    (hfail : ∀ now s, I s → I { s with backoff := (s.backoff.recordFailure now).2 })
    (hsub : ok (.subscribe service w.group) (.ok ()) →
      ∀ s, I s → I { s with subscribed := s.subscribed.insert service })
    (hconfirm : ∀ l, ok (w.confirmWithServer service) (.ok l) →
      ∀ s, I s → I { s with backoff := s.backoff.recordSuccess }) :
    (w.answerFromServer service).Preserves I ok := by
  have hfailure : ∀ a : CatalogAnswer,
      (recordRemoteFailure.bind fun _ => .ret a).Preserves I ok := fun a =>
    (recordRemoteFailure_preserves hfail).bind fun _ => trivial
  unfold answerFromServer
  rw [Fiber.callWithin_bind]
  refine ⟨fun r hr => ?_, hfailure _⟩
  rcases r with e | l
  · exact hfailure _
  · exact ⟨hconfirm l hr, (subscribeName_preserves hsub).bind fun _ => trivial⟩

theorem answerFromCache_preserves
    (hsub : ok (.subscribe service w.group) (.ok ()) →
      ∀ s, I s → I { s with subscribed := s.subscribed.insert service }) :
    (w.answerFromCache service).Preserves I ok := by
  unfold answerFromCache
  rw [Fiber.callWithin_bind]
  refine ⟨fun r hr => ?_, trivial⟩
  rcases r with e | l
  · trivial
  · dsimp only
    split
    · exact (subscribeName_preserves hsub).bind fun _ => trivial
    · trivial

theorem readClientCache_preserves
    (hfail : ∀ now s, I s → I { s with backoff := (s.backoff.recordFailure now).2 }) :
    (w.readClientCache service).Preserves I ok := by
  unfold readClientCache
  rw [Fiber.callWithin_bind]
  refine ⟨fun r hr => ?_, (recordRemoteFailure_preserves hfail).bind fun _ => trivial⟩
  rcases r with e | l <;> trivial

/-- A query changes the shared state in three ways: it counts a failure, it counts a reply of the
server, and it enters a name whose subscription was acknowledged. -/
theorem instances_preserves
    (hfail : ∀ now s, I s → I { s with backoff := (s.backoff.recordFailure now).2 })
    (hsub : w.isSelected service = true → ok (.subscribe service w.group) (.ok ()) →
      ∀ s, I s → I { s with subscribed := s.subscribed.insert service })
    (hconfirm : ∀ l, ok (w.confirmWithServer service) (.ok l) →
      ∀ s, I s → I { s with backoff := s.backoff.recordSuccess }) :
    (w.instances service).Preserves I ok := by
  cases hsel : w.isSelected service with
  | false =>
    rw [instances_rejected hsel]
    trivial
  | true =>
    have hcache := answerFromCache_preserves (hsub hsel)
    have hserver := answerFromServer_preserves hfail (hsub hsel) hconfirm
    rw [instances_selected hsel]
    intro now s
    dsimp only
    generalize entryOf _ _ _ = entry
    cases entry with
    | clientCache => exact readClientCache_preserves hfail
    | cacheFirst =>
      refine hcache.bind fun hit => ?_
      cases hit with
      | some answer => trivial
      | none => exact hserver
    | serverFirst =>
      refine hserver.bind fun answer => ?_
      cases answer with
      | unavailable => exact hcache.bind fun _ => trivial
      | unknown | instances => trivial
    | cacheOnly =>
      refine hcache.bind fun hit => ?_
      cases hit <;> trivial

end

/-! ## Nothing is recorded that did not happen -/

theorem everConfirmed_recordFailure (b : FailureBackoff) (now : Int64) :
    (b.recordFailure now).2.everConfirmed = b.everConfirmed := by
  unfold FailureBackoff.recordFailure
  dsimp only
  split <;> rfl

theorem instances_records (service : List UInt8) :
    (w.instances service).Preserves (w.Recorded ls) (w.Evidence ls) := by
  refine instances_preserves (fun now s h => ?_) (fun hsel hack s h => ?_)
    fun l hreply s h => ⟨h.nodup, h.selected, h.acknowledged, fun _ => hreply rfl ⟨l, rfl⟩⟩
  · refine ⟨h.nodup, h.selected, h.acknowledged, fun hc => h.answered ?_⟩
    rwa [everConfirmed_recordFailure] at hc
  · refine ⟨List.Nodup.insert h.nodup, fun x hx => ?_, fun x hx => ?_, h.answered⟩
    · rcases List.mem_insert_iff.mp hx with rfl | hx
      · exact hsel
      · exact h.selected x hx
    · rcases List.mem_insert_iff.mp hx with rfl | hx
      · exact hack rfl rfl
      · exact h.acknowledged x hx

theorem evidence_of_mem : ∀ l ∈ ls, l.Ok (w.Evidence ls) := by
  intro l hl
  rcases l with _ | ⟨j, e, now⟩
  · trivial
  · rcases e with ⟨bound, c, r⟩ | _
    · rcases c with ⟨service, group, _ | _⟩ | ⟨service, group⟩
      · rintro rfl ⟨l, rfl⟩
        exact ⟨j, bound, service, l, now, hl⟩
      · trivial
      · rintro rfl rfl
        exact ⟨j, bound, now, hl⟩
    · trivial

/-! ## What happened is recorded -/

section
variable {c : SdkCall} {r : c.Reply} {s : WatcherState}

theorem Noted.fail (h : w.Noted c r s) (now : Int64) :
    w.Noted c r { s with backoff := (s.backoff.recordFailure now).2 } := by
  rcases c with ⟨x, group, _ | _⟩ | ⟨x, group⟩
  · intro hg hr
    have hc := h hg hr
    rwa [← everConfirmed_recordFailure s.backoff now] at hc
  · trivial
  · exact h

theorem Noted.enter (h : w.Noted c r s) (service : List UInt8) :
    w.Noted c r { s with subscribed := s.subscribed.insert service } := by
  rcases c with ⟨x, group, _ | _⟩ | ⟨x, group⟩
  · exact h
  · trivial
  · exact fun hg hr => List.mem_insert_of_mem (h hg hr)

theorem Noted.succeed (h : w.Noted c r s) :
    w.Noted c r { s with backoff := s.backoff.recordSuccess } := by
  rcases c with ⟨x, group, _ | _⟩ | ⟨x, group⟩
  · exact fun _ _ => rfl
  · trivial
  · exact h

variable (c r service)

theorem instances_keeps : (w.instances service).Preserves (w.Noted c r) fun _ _ => True :=
  instances_preserves (fun now _ h => h.fail now) (fun _ _ _ h => h.enter service)
    fun _ _ _ h => h.succeed

theorem answerFromServer_holds :
    (w.answerFromServer service).Preserves (w.Noted c r) fun _ _ => True :=
  answerFromServer_preserves (fun now _ h => h.fail now) (fun _ _ h => h.enter service)
    fun _ _ _ h => h.succeed

theorem answerFromCache_holds :
    (w.answerFromCache service).Preserves (w.Noted c r) fun _ _ => True :=
  answerFromCache_preserves fun _ _ h => h.enter service

end

theorem recordRemoteFailure_delivers : recordRemoteFailure.Delivers w.Noted := fun _ => trivial

theorem subscribeName_delivers : (w.subscribeName service).Delivers w.Noted := by
  unfold subscribeName
  rw [Fiber.get_bind]
  intro s
  dsimp only
  split
  · trivial
  · rw [Fiber.call_bind]
    intro r
    rcases r with e | ⟨⟩
    · exact ⟨fun _ _ _ hr => (nomatch hr), trivial⟩
    · exact ⟨fun _ _ _ _ => List.mem_insert_self, trivial⟩

theorem answerFromServer_delivers : (w.answerFromServer service).Delivers w.Noted := by
  unfold answerFromServer
  rw [Fiber.callWithin_bind]
  refine ⟨fun r => ?_, recordRemoteFailure_delivers.bind_ret _⟩
  rcases r with e | l
  · exact ⟨fun _ _ _ hr => (nomatch hr), recordRemoteFailure_delivers.bind_ret _⟩
  · refine ⟨fun n s => ?_, subscribeName_delivers.bind_ret _⟩
    -- the reply is counted before the subscription is waited for
    have hkept : ((w.subscribeName service).bind fun _ => .ret (answerOf l)).Preserves
        (w.Noted (w.confirmWithServer service) (.ok l)) fun _ _ => True :=
      (subscribeName_preserves fun _ _ h => h.enter service).bind fun _ => trivial
    exact (hkept.advance { s with backoff := s.backoff.recordSuccess } n).2 fun _ _ => rfl

theorem answerFromCache_delivers : (w.answerFromCache service).Delivers w.Noted := by
  unfold answerFromCache
  rw [Fiber.callWithin_bind]
  refine ⟨fun r => ⟨fun _ _ => trivial, ?_⟩, trivial⟩
  rcases r with e | l
  · trivial
  · dsimp only
    split
    · exact subscribeName_delivers.bind_ret _
    · trivial

theorem readClientCache_delivers : (w.readClientCache service).Delivers w.Noted := by
  unfold readClientCache
  rw [Fiber.callWithin_bind]
  refine ⟨fun r => ⟨fun _ _ => trivial, ?_⟩, recordRemoteFailure_delivers.bind_ret _⟩
  rcases r with e | l <;> trivial

theorem instances_delivers (service : List UInt8) : (w.instances service).Delivers w.Noted := by
  cases hsel : w.isSelected service with
  | false =>
    rw [instances_rejected hsel]
    trivial
  | true =>
    rw [instances_selected hsel]
    intro now s
    dsimp only
    generalize entryOf _ _ _ = entry
    cases entry with
    | clientCache => exact readClientCache_delivers
    | cacheFirst =>
      refine answerFromCache_delivers.bind (fun hit => ?_) fun c r hit => ?_
      · cases hit with
        | some answer => trivial
        | none => exact answerFromServer_delivers
      · cases hit with
        | some answer => trivial
        | none => exact answerFromServer_holds service c r
    | serverFirst =>
      refine answerFromServer_delivers.bind (fun answer => ?_) fun c r answer => ?_
      · cases answer with
        | unavailable => exact answerFromCache_delivers.bind_ret _
        | unknown | instances => trivial
      · cases answer with
        | unavailable => exact (answerFromCache_holds service c r).bind fun _ => trivial
        | unknown | instances => trivial
    | cacheOnly =>
      refine answerFromCache_delivers.bind (fun hit => ?_) fun c r hit => ?_
      · cases hit <;> trivial
      · cases hit <;> trivial

/-! ## What a query may ask for -/

variable (w service) in
/-- The calls, with their bounds, that an entry leads to. -/
inductive MayCall : QueryEntry → Option Nat → SdkCall → Prop
  | read : MayCall .clientCache (some NACOS_LOOKUP_TIMEOUT) (w.fetchCache service)
  | probe {entry : QueryEntry} (h : entry ≠ .clientCache) :
      MayCall entry (some NACOS_CACHE_READ_TIMEOUT) (w.fetchCache service)
  | confirm {entry : QueryEntry} (h : entry = .cacheFirst ∨ entry = .serverFirst) :
      MayCall entry (some NACOS_LOOKUP_TIMEOUT) (w.confirmWithServer service)
  | subscribe {entry : QueryEntry} (h : entry ≠ .clientCache) :
      MayCall entry none (.subscribe service w.group)

section
variable {entry : QueryEntry}

theorem subscribeName_calls (h : entry ≠ .clientCache) :
    (w.subscribeName service).Calls (w.MayCall service entry) := by
  unfold subscribeName
  rw [Fiber.get_bind]
  intro s
  dsimp only
  split
  · trivial
  · rw [Fiber.call_bind]
    refine ⟨.subscribe h, fun r => ?_⟩
    rcases r with e | ⟨⟩ <;> trivial

theorem answerFromServer_calls (h : entry = .cacheFirst ∨ entry = .serverFirst) :
    (w.answerFromServer service).Calls (w.MayCall service entry) := by
  have hne : entry ≠ .clientCache := by
    rcases h with rfl | rfl <;> decide
  unfold answerFromServer
  rw [Fiber.callWithin_bind]
  refine ⟨.confirm h, fun r => ?_⟩
  rcases r with _ | e | l
  · exact fun _ => trivial
  · exact fun _ => trivial
  · exact (subscribeName_calls hne).bind fun _ => trivial

theorem answerFromCache_calls (h : entry ≠ .clientCache) :
    (w.answerFromCache service).Calls (w.MayCall service entry) := by
  unfold answerFromCache
  rw [Fiber.callWithin_bind]
  refine ⟨.probe h, fun r => ?_⟩
  rcases r with _ | e | l
  · trivial
  · trivial
  · dsimp only
    split
    · exact (subscribeName_calls h).bind fun _ => trivial
    · trivial

theorem readClientCache_calls :
    (w.readClientCache service).Calls (w.MayCall service .clientCache) := by
  unfold readClientCache
  rw [Fiber.callWithin_bind]
  refine ⟨.read, fun r => ?_⟩
  rcases r with _ | e | l
  · exact fun _ => trivial
  · trivial
  · trivial

theorem byEntry_calls (entry : QueryEntry) :
    (w.byEntry service entry).Calls (w.MayCall service entry) := by
  cases entry with
  | clientCache => exact readClientCache_calls
  | cacheFirst =>
    refine (answerFromCache_calls (by decide)).bind fun hit => ?_
    cases hit with
    | some answer => trivial
    | none => exact answerFromServer_calls (.inl rfl)
  | serverFirst =>
    refine (answerFromServer_calls (.inr rfl)).bind fun answer => ?_
    cases answer with
    | unavailable => exact (answerFromCache_calls (by decide)).bind fun _ => trivial
    | unknown | instances => trivial
  | cacheOnly =>
    refine (answerFromCache_calls (by decide)).bind fun hit => ?_
    cases hit <;> trivial

end

variable (w) in
/-- The calls of a query that found `s` at `now`. -/
def Allowed (service : List UInt8) (s : WatcherState) (now : Int64) (bound : Option Nat)
    (c : SdkCall) : Prop :=
  w.isSelected service = true ∧
    w.MayCall service (entryOf (s.subscribed.contains service) s.backoff.everConfirmed
      (s.backoff.isOpen now)) bound c

theorem instances_calls (service : List UInt8) (s : WatcherState) (now : Int64) :
    ((w.instances service).advance now s).1.Calls (w.Allowed service s now) := by
  cases hsel : w.isSelected service with
  | false =>
    rw [instances_rejected hsel]
    trivial
  | true =>
    have hallowed : w.Allowed service s now = w.MayCall service (entryOf
        (s.subscribed.contains service) s.backoff.everConfirmed (s.backoff.isOpen now)) := by
      funext bound c
      exact propext (and_iff_right hsel)
    rw [instances_selected hsel, hallowed]
    exact (byEntry_calls _).advance s now

/-- **The ledger is exact.** In every interleaving of queries, the names in the ledger are those
some query was told to have subscribed, each once and each selected; the registry counts as
confirmed exactly when a query was given the server's list; and a query makes only the calls that
the ledger, the flag and the window it found at its start allow: a ledgered name is read from the
client's cache alone, and while the window is open the server is not asked. -/
theorem ledger_exact {ls : List SdkLabel} {m} (hrun : Run (Step w.instances) ⟨{}, []⟩ ls m) :
    (∀ service, service ∈ m.shared.subscribed ↔ w.Acknowledged ls service) ∧
    m.shared.subscribed.Nodup ∧
    (∀ service ∈ m.shared.subscribed, w.isSelected service = true) ∧
    (m.shared.backoff.everConfirmed = true ↔ w.Answered ls) ∧
    ∀ th ∈ m.threads, ∀ bound c,
      (bound, c) ∈ th.log.map (fun x => (x.event.bound, x.event.call)) ++
        th.fiber.pending.toList →
      w.Allowed th.input th.seen th.start bound c := by
  have hempty : w.Recorded ls {} := by
    refine ⟨List.nodup_nil, List.forall_mem_nil _, List.forall_mem_nil _, fun h => ?_⟩
    cases h
  obtain ⟨hrecorded, -⟩ := logged_of_run instances_records hempty evidence_of_mem hrun
  have hnoted : ∀ {j bound c} {r : c.Reply} {now}, .wake j (.reply bound c r) now ∈ ls →
      w.Noted c r m.shared := fun hl =>
    delivered_of_run instances_delivers (fun c r service => instances_keeps service c r) hrun hl
  refine ⟨fun service => ⟨hrecorded.acknowledged service, ?_⟩, hrecorded.nodup,
    hrecorded.selected, ⟨hrecorded.answered, ?_⟩, fun th hth bound c hmem => ?_⟩
  · rintro ⟨j, bound, now, hl⟩
    exact hnoted hl rfl rfl
  · rintro ⟨j, bound, service, l, now, hl⟩
    exact hnoted hl rfl ⟨l, rfl⟩
  · obtain ⟨hfiber, hlog⟩ := calls_of_run instances_calls hrun th hth
    rcases List.mem_append.mp hmem with hmem | hmem
    · obtain ⟨x, hx, heq⟩ := List.mem_map.mp hmem
      cases heq
      exact hlog x hx
    · exact hfiber.pending (Option.mem_toList.mp hmem)

/-- The first query of a name, answered by the server and subscribed. -/
theorem ledger_exact_sample :
    ∃ ls m, Run (Step sampleWatcher.instances) ⟨{}, []⟩ ls m ∧ [0x61] ∈ m.shared.subscribed ∧
      m.shared.backoff.everConfirmed = true := by
  have spawned : Run (Step sampleWatcher.instances) ⟨{}, []⟩ _ _ := .snoc .nil (.spawn _ [0x61] 0)
  have missed := spawned.snoc (.wake _ 0 _ _ _ 0 rfl (.elapsed _ _ _))
  have confirmed := missed.snoc (.wake _ 0 _ _ _ 3 rfl (.inTime _ _ _ (.ok [sampleInstance])))
  have hrun := confirmed.snoc (.wake _ 0 _ _ _ 3 rfl (.await _ _ (.ok ())))
  obtain ⟨hledger, -, -, hconfirmed, -⟩ := ledger_exact hrun
  exact ⟨_, _, hrun, (hledger [0x61]).mpr ⟨0, none, 3, List.mem_of_getElem? (i := 3) rfl⟩,
    hconfirmed.mpr ⟨0, _, [0x61], _, 3, List.mem_of_getElem? (i := 2) rfl⟩⟩

end NacosServiceWatcher

end DoggyDns
