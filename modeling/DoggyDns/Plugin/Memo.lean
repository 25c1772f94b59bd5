import DoggyDns.Lib.Async
import DoggyDns.Plugin.Consult

/-!
# The apex SOA memo under concurrent queries

`AuthorityChain::resolve` as the asynchronous function it is: it suspends at the
handler's lookup and at the fetch of the apex SOA, and between two suspensions
reads or fills the handler's `OnceLock`. Any number of calls share the cells and
interleave where they are suspended. Run alone it is `resolve` of
`Plugin.Chain`; interleaved with others, what a negative answer carries is still
its own handler's record or what its own fetch came back with.
-/

namespace DoggyDns

open Async Lts

/-! ## The cells -/

/-- The `OnceLock`s of the chain's entries, by index. -/
abbrev Memo := Nat → Option (Option Record)

/-- `OnceLock::set`: ignored once the cell is full. -/
def Memo.set (memo : Memo) (i : Nat) (value : Option Record) : Memo := fun j =>
  if j = i then some ((memo i).getD value) else memo j

theorem Memo.set_self (memo : Memo) (i : Nat) (value : Option Record) :
    memo.set i value i = some ((memo i).getD value) := if_pos rfl

theorem Memo.set_of_ne (memo : Memo) {i j : Nat} (h : j ≠ i) (value : Option Record) :
    memo.set i value j = memo j := if_neg h

/-- A full cell stays as it is. -/
theorem Memo.set_of_full {memo : Memo} {i : Nat} {cached : Option Record}
    (h : memo i = some cached) (j : Nat) (value : Option Record) :
    memo.set j value i = some cached := by
  by_cases hij : i = j
  · subst hij
    rw [Memo.set_self, h, Option.getD_some]
  · rw [Memo.set_of_ne _ hij, h]

/-! ## Resolving -/

/-- What of an entry never changes. -/
structure ChainEntry where
  name : String
  zoneType : ZoneType
  origin : Name

def ChainEntry.authoritative (entry : ChainEntry) : Bool :=
  entry.zoneType = .primary ∨ entry.zoneType = .secondary

/-- The two awaits of `resolve`, by the entry asked: the query itself, and the apex SOA. -/
inductive ChainCall where
  | answer (handler : Nat) (name : Name) (recordType : RecordType)
  | apexSoa (handler : Nat)
  deriving DecidableEq

abbrev ChainFiber := Fiber ChainCall (fun _ => LookupControlFlow) Unit Memo

/-- The record a lookup of the apex SOA yields. -/
def soaOf : LookupControlFlow → Option Record
  | .continue (.ok lookup) => lookup.iter.head?
  | .break (.ok lookup) => lookup.iter.head?
  | _ => none

/-- The SOA for a handler's answer. -/
def attachSoaFiber (i : Nat) (entry : ChainEntry) (result : LookupControlFlow) :
    ChainFiber (Option Record) :=
  if entry.authoritative && result.isErr then do
    let memo ← Fiber.get
    match memo i with
    | some cached => return cached
    | none => do
      let fetched := soaOf (← Fiber.call (.apexSoa i))
      -- only a hit is cached
      if fetched.isSome then do
        Fiber.update (·.set i fetched)
        return fetched
      else return fetched
  else return none

/-- `resolve` from entry `i` of the chain on. -/
def resolveFrom (name : Name) (recordType : RecordType) :
    Nat → List ChainEntry → ChainFiber ResolveResult
  | _, [] => return ⟨.skip, none, false, none⟩
  | i, entry :: entries => do
    let result ← Fiber.call (.answer i name recordType)
    match result with
    | .skip => resolveFrom name recordType (i + 1) entries
    | result => do
      let soa ← attachSoaFiber i entry result
      return ⟨result, some entry.name, entry.authoritative, soa⟩

/-- The body of one call. -/
def resolveFiber (entries : List ChainEntry) (query : Name × RecordType) :
    ChainFiber ResolveResult :=
  resolveFrom query.1 query.2 0 entries

abbrev ChainMachine :=
  Machine ChainCall (fun _ => LookupControlFlow) Unit Memo (Name × RecordType) ResolveResult

abbrev ChainLabel := Async.Label ChainCall (fun _ => LookupControlFlow) Unit (Name × RecordType)

abbrev ChainWake := Wake ChainCall (fun _ => LookupControlFlow) Unit Memo

/-! ## Call by call -/

section
variable {name : Name} {recordType : RecordType} {i : Nat} {entry : ChainEntry}
  {entries : List ChainEntry} {result : LookupControlFlow}

theorem attachSoaFiber_of_not_negative (h : (entry.authoritative && result.isErr) = false) :
    attachSoaFiber i entry result = .ret none := by
  unfold attachSoaFiber
  rw [h]
  rfl

theorem attachSoaFiber_of_negative (h : (entry.authoritative && result.isErr) = true) :
    attachSoaFiber i entry result = .read fun memo =>
      match memo i with
      | some cached => .ret cached
      | none => .await (.apexSoa i) fun reply =>
        if (soaOf reply).isSome then .modify (·.set i (soaOf reply)) (.ret (soaOf reply))
        else .ret (soaOf reply) := by
  unfold attachSoaFiber
  rw [h]
  rfl

theorem resolveFrom_cons :
    resolveFrom name recordType i (entry :: entries) = .await (.answer i name recordType)
      fun result => if result = .skip then resolveFrom name recordType (i + 1) entries
        else (attachSoaFiber i entry result).bind fun soa =>
          .ret ⟨result, some entry.name, entry.authoritative, soa⟩ := by
  show Fiber.await _ _ = _
  refine congrArg (Fiber.await _) (funext fun result => ?_)
  cases result with
  | skip => exact (if_pos rfl).symm
  | «continue» => rfl
  | «break» => rfl

/-- How an answer got its SOA: `memo` is what the call read, `log` its waits after that. -/
inductive Attached (i : Nat) (entry : ChainEntry) (result : LookupControlFlow) (memo : Memo) :
    List ChainWake → Option Record → Prop where
  | unneeded (h : (entry.authoritative && result.isErr) = false) :
    Attached i entry result memo [] none
  | cached {c : Option Record} (h : (entry.authoritative && result.isErr) = true)
      (hm : memo i = some c) : Attached i entry result memo [] c
  | fetched {memo' : Memo} {t : Unit} {reply : LookupControlFlow}
      (h : (entry.authoritative && result.isErr) = true) (hm : memo i = none) :
    Attached i entry result memo [⟨memo', t, .reply none (.apexSoa i) reply⟩] (soaOf reply)

theorem Attached.apexSoa {memo : Memo} {log : List ChainWake} {soa : Option Record}
    (h : Attached i entry result memo log soa) :
    ∀ w ∈ log, ∃ reply, w.event = .reply none (.apexSoa i) reply := by
  intro w hw
  cases h with
  | unneeded | cached => cases hw
  | fetched =>
    obtain rfl := List.mem_singleton.mp hw
    exact ⟨_, rfl⟩

theorem attachSoaFiber_ends {s s' : Memo} {n n' : Unit} {log : List ChainWake}
    {soa : Option Record} (h : (attachSoaFiber i entry result).Ends s n log soa s' n') :
    Attached i entry result s log soa := by
  cases hneg : entry.authoritative && result.isErr with
  | false =>
    rw [attachSoaFiber_of_not_negative hneg] at h
    obtain ⟨rfl, rfl, -, -⟩ := ends_ret.mp h
    exact .unneeded hneg
  | true =>
    rw [attachSoaFiber_of_negative hneg, ends_read] at h
    cases hm : s i with
    | some cached =>
      rw [hm] at h
      obtain ⟨rfl, rfl, -, -⟩ := ends_ret.mp h
      exact .cached hneg hm
    | none =>
      rw [hm] at h
      obtain ⟨reply, s₁, n₁, rest, rfl, hrest⟩ := ends_await.mp h
      split at hrest
      next =>
        rw [ends_modify] at hrest
        obtain ⟨rfl, rfl, -, -⟩ := ends_ret.mp hrest
        exact .fetched hneg hm
      next =>
        obtain ⟨rfl, rfl, -, -⟩ := ends_ret.mp hrest
        exact .fetched hneg hm

/-- A call that ended has seen every handler skip, or answers with the result of the first one
that did not. -/
theorem resolveFrom_ends {s s' : Memo} {n n' : Unit} {log : List ChainWake} {res : ResolveResult}
    (h : (resolveFrom name recordType i entries).Ends s n log res s' n') :
    res = ⟨.skip, none, false, none⟩ ∨
    ∃ k entry pre memo t rest, entries[k]? = some entry ∧
      log = pre ++ ⟨memo, t, .reply none (.answer (i + k) name recordType) res.outcome⟩ :: rest ∧
      (∀ w ∈ pre, ∃ j, w.event = .reply none (.answer j name recordType) .skip) ∧
      res.handlerName = some entry.name ∧ res.authoritative = entry.authoritative ∧
      Attached (i + k) entry res.outcome memo rest res.soa := by
  induction entries generalizing i s n log with
  | nil =>
    obtain ⟨-, rfl, -, -⟩ := ends_ret.mp h
    exact .inl rfl
  | cons entry entries ih =>
    rw [resolveFrom_cons] at h
    obtain ⟨result, s₁, n₁, rest, rfl, hrest⟩ := ends_await.mp h
    split at hrest
    next hresult =>
      rcases ih hrest with hskip | ⟨k, e, pre, memo, t, rest', hk, rfl, hpre, hname, hauth, hatt⟩
      · exact .inl hskip
      · have hidx : i + (k + 1) = i + 1 + k := by omega
        refine .inr ⟨k + 1, e, ⟨s₁, n₁, .reply none (.answer i name recordType) result⟩ :: pre,
          memo, t, rest', hk, ?_, fun w hw => ?_, hname, hauth, ?_⟩
        · rw [hidx]
          rfl
        · rcases List.mem_cons.mp hw with rfl | hw
          · exact ⟨i, by rw [hresult]⟩
          · exact hpre w hw
        · rw [hidx]
          exact hatt
    next =>
      obtain ⟨soa, hsoa, rfl⟩ := Fiber.Ends.of_bind_ret hrest
      exact .inr ⟨0, entry, [], s₁, n₁, rest, rfl, rfl, List.forall_mem_nil _, rfl, rfl,
        attachSoaFiber_ends hsoa⟩

/-- The waits of the SOA part are for the apex SOA. -/
theorem attachSoaFiber_calls {s s' : Memo} {n n' : Unit} {log : List ChainWake}
    {u : ChainFiber (Option Record)}
    (h : (attachSoaFiber i entry result).Follows s n log u s' n') :
    ∀ w ∈ log, w.event.call = .apexSoa i := by
  cases hneg : entry.authoritative && result.isErr with
  | false =>
    rw [attachSoaFiber_of_not_negative hneg] at h
    cases h
    exact List.forall_mem_nil _
  | true =>
    rw [attachSoaFiber_of_negative hneg] at h
    cases h with
    | read h =>
    dsimp only at h
    cases hm : s i with
    | some cached =>
      rw [hm] at h
      cases h
      exact List.forall_mem_nil _
    | none =>
      rw [hm] at h
      cases h with
      | awaiting => exact List.forall_mem_nil _
      | await h =>
        dsimp only at h
        split at h
        next =>
          cases h with
          | modify h =>
            cases h
            simp [Event.call]
        next =>
          cases h
          simp [Event.call]

/-- A fetch that yields a record fills the cell, one that does not leaves the cells alone. -/
theorem attachSoaFiber_at_fetch {s s' memo : Memo} {n n' t : Unit} {pre : List ChainWake} {j : Nat}
    {reply : LookupControlFlow} {u : ChainFiber (Option Record)}
    (h : (attachSoaFiber i entry result).Follows s n
      (pre ++ [⟨memo, t, .reply none (.apexSoa j) reply⟩]) u s' n') :
    s' = if (soaOf reply).isSome then memo.set j (soaOf reply) else memo := by
  cases hneg : entry.authoritative && result.isErr with
  | false =>
    rw [attachSoaFiber_of_not_negative hneg] at h
    cases pre <;> cases h
  | true =>
    rw [attachSoaFiber_of_negative hneg] at h
    cases h with
    | read h =>
    dsimp only at h
    cases hm : s i with
    | some cached =>
      rw [hm] at h
      cases pre <;> cases h
    | none =>
      rw [hm] at h
      cases pre with
      | nil =>
        cases h with
        | await h =>
        dsimp only at h
        split at h
        next hsome =>
          cases h with
          | modify h =>
          cases h
          exact (if_pos hsome).symm
        next hnone =>
          cases h
          exact (if_neg hnone).symm
      | cons w pre =>
        -- nothing is waited for after the fetch
        cases h with
        | await h =>
        dsimp only at h
        split at h
        next =>
          cases h with
          | modify h => cases pre <;> cases h
        next => cases pre <;> cases h

theorem resolveFrom_at_fetch {s s' memo : Memo} {n n' t : Unit} {pre : List ChainWake} {j : Nat}
    {reply : LookupControlFlow} {u : ChainFiber ResolveResult}
    (h : (resolveFrom name recordType i entries).Follows s n
      (pre ++ [⟨memo, t, .reply none (.apexSoa j) reply⟩]) u s' n') :
    s' = if (soaOf reply).isSome then memo.set j (soaOf reply) else memo := by
  induction entries generalizing i s n pre with
  | nil => cases pre <;> cases h
  | cons entry entries ih =>
    rw [resolveFrom_cons] at h
    cases pre with
    | nil => cases h
    | cons w pre =>
      cases h with
      | await h =>
      dsimp only at h
      split at h
      next => exact ih h
      next =>
        rcases Fiber.Follows.of_bind h with ⟨v, hv, -⟩ | ⟨log₁, log₂, a, s₂, n₂, hlog, h₁, h₂⟩
        · exact attachSoaFiber_at_fetch hv
        · cases h₂
          rw [List.append_nil] at hlog
          subst hlog
          exact attachSoaFiber_at_fetch h₁

/-- Right after a negative answer of a zone-owning handler, the call that finds the cell full is
done, and has waited for answers only. -/
theorem resolveFrom_at_answer {s s' memo : Memo} {n n' t : Unit} {pre : List ChainWake} {j : Nat}
    {name' : Name} {recordType' : RecordType} {u : ChainFiber ResolveResult}
    {cached : Option Record}
    (h : (resolveFrom name recordType i entries).Follows s n
      (pre ++ [⟨memo, t, .reply none (.answer j name' recordType') result⟩]) u s' n')
    (hneg : result.isErr = true) (hmemo : memo j = some cached) :
    ∃ k, j = i + k ∧ (∀ w ∈ pre, ∀ l, w.event.call ≠ .apexSoa l) ∧
      ∀ entry, entries[k]? = some entry → entry.authoritative = true →
        u = .ret ⟨result, some entry.name, true, cached⟩ := by
  have hskip : result ≠ .skip := by
    rintro rfl
    cases hneg
  induction entries generalizing i s n pre with
  | nil =>
    cases pre with
    | nil => cases h
    | cons => cases h
  | cons entry entries ih =>
    rw [resolveFrom_cons] at h
    cases pre with
    | nil =>
      cases h with
      | await h =>
      dsimp only at h
      rw [if_neg hskip] at h
      refine ⟨0, rfl, List.forall_mem_nil _, fun e he hauth => ?_⟩
      cases he
      rw [attachSoaFiber_of_negative (by rw [hauth, hneg]; rfl)] at h
      cases h with
      | read h =>
      dsimp only at h
      rw [hmemo] at h
      cases h
      rw [hauth]
    | cons w pre =>
      cases h with
      | @await _ _ _ _ r s₁ n₁ _ _ _ _ h =>
      dsimp only at h
      split at h
      next =>
        obtain ⟨k, rfl, hcalls, hret⟩ := ih h
        refine ⟨k + 1, by omega, fun w' hw' => ?_, hret⟩
        rcases List.mem_cons.mp hw' with rfl | hw'
        · exact nofun
        · exact hcalls w' hw'
      next =>
        -- past the answer only the apex SOA is waited for
        exfalso
        rcases Fiber.Follows.of_bind h with ⟨v, hv, -⟩ | ⟨log₁, log₂, a, s₂, n₂, hlog, h₁, h₂⟩
        · have := attachSoaFiber_calls hv _ (List.mem_append_right _ (List.mem_singleton_self _))
          cases this
        · cases h₂
          rw [List.append_nil] at hlog
          subst hlog
          have := attachSoaFiber_calls h₁ _ (List.mem_append_right _ (List.mem_singleton_self _))
          cases this

end

/-! ## What the cells hold -/

/-- Every fetch of entry `i`'s apex SOA yields the record `r i` or nothing. -/
def FixedSoa (r : Nat → Record) : (c : ChainCall) → LookupControlFlow → Prop
  | .apexSoa i, reply => soaOf reply = none ∨ soaOf reply = some (r i)
  | .answer .., _ => True

/-- Cells hold their own handler's record only. -/
def Memo.Holds (r : Nat → Record) (memo : Memo) : Prop := ∀ i c, memo i = some c → c = some (r i)

theorem resolveFrom_preserves {I : Memo → Prop} {ok : ChainCall → LookupControlFlow → Prop}
    (hset : ∀ i memo reply, ok (.apexSoa i) reply → (soaOf reply).isSome → I memo →
      I (memo.set i (soaOf reply)))
    (name : Name) (recordType : RecordType) (i : Nat) (entries : List ChainEntry) :
    (resolveFrom name recordType i entries).Preserves I ok := by
  have hattach : ∀ i entry result, (attachSoaFiber i entry result).Preserves I ok := by
    intro i entry result
    cases hneg : entry.authoritative && result.isErr with
    | false =>
      rw [attachSoaFiber_of_not_negative hneg]
      trivial
    | true =>
      rw [attachSoaFiber_of_negative hneg]
      intro memo
      dsimp only
      cases memo i with
      | some cached => trivial
      | none =>
        intro reply hreply
        dsimp only
        split
        next hsome => exact ⟨fun memo hmemo => hset i memo reply hreply hsome hmemo, trivial⟩
        next => trivial
  induction entries generalizing i with
  | nil => trivial
  | cons entry entries ih =>
    rw [resolveFrom_cons]
    intro result _
    dsimp only
    split
    next => exact ih (i + 1)
    next => exact (hattach i entry result).bind fun _ => trivial

theorem Memo.Holds.set {r : Nat → Record} {memo : Memo} (h : memo.Holds r) {i : Nat}
    {reply : LookupControlFlow} (hreply : FixedSoa r (.apexSoa i) reply)
    (hsome : (soaOf reply).isSome) : (memo.set i (soaOf reply)).Holds r := by
  intro j c hc
  have hvalue : soaOf reply = some (r i) := by
    rcases hreply with hnone | hvalue
    · rw [hnone] at hsome
      cases hsome
    · exact hvalue
  by_cases hij : j = i
  · subst hij
    rw [Memo.set_self] at hc
    cases hm : memo j with
    | none =>
      rw [hm] at hc
      cases hc
      exact hvalue
    | some c' =>
      rw [hm] at hc
      cases hc
      exact h j c' hm
  · rw [Memo.set_of_ne _ hij] at hc
    exact h j c hc

/-! ## Every run -/

abbrev ChainThread :=
  Thread ChainCall (fun _ => LookupControlFlow) Unit Memo (Name × RecordType) ResolveResult

/-- Handler `i` gave the call's result: it was asked, and no other handler asked did not skip. -/
structure AnsweredBy (entries : List ChainEntry) (th : ChainThread) (res : ResolveResult)
    (i : Nat) : Prop where
  entry : ∃ entry, entries[i]? = some entry ∧ res.handlerName = some entry.name ∧
    res.authoritative = entry.authoritative
  asked : ∃ w ∈ th.log, w.event = .reply none (.answer i th.input.1 th.input.2) res.outcome
  only : ∀ w ∈ th.log, ∀ j reply,
    w.event = .reply none (.answer j th.input.1 th.input.2) reply → reply ≠ .skip → j = i

/-- The call fetched the SOA of handler `i` itself and got nothing. -/
def FetchedNothing (th : ChainThread) (i : Nat) : Prop :=
  ∃ w ∈ th.log, ∃ reply, w.event = .reply none (.apexSoa i) reply ∧ soaOf reply = none

section
variable {entries : List ChainEntry} {m m' m'' : ChainMachine} {ls ls' : List ChainLabel}
  {r : Nat → Record}

theorem resolve_run_holds (hrun : Run (Step (resolveFiber entries)) ⟨fun _ => none, []⟩ ls m)
    (hreply : ∀ l ∈ ls, l.Ok (FixedSoa r)) :
    m.shared.Holds r ∧ m.Logged (Memo.Holds r) (FixedSoa r) := by
  have hbody : ∀ query, (resolveFiber entries query).Preserves (Memo.Holds r) (FixedSoa r) :=
    fun query => resolveFrom_preserves (fun _ _ _ hok hsome hmemo => hmemo.set hok hsome) _ _ _ _
  exact logged_of_run hbody (fun _ _ h => by cases h) hreply hrun

/-- A full cell stays as it is, whatever later fetches yield. -/
theorem resolve_run_keeps (hrun : Run (Step (resolveFiber entries)) ⟨fun _ => none, []⟩ ls m)
    (hlater : Run (Step (resolveFiber entries)) m ls' m') {i : Nat} {c : Option Record}
    (h : m.shared i = some c) : m'.shared i = some c := by
  have hbody : ∀ query, (resolveFiber entries query).Preserves (fun memo => memo i = some c)
      (fun _ _ => True) :=
    fun query => resolveFrom_preserves (fun j _ _ _ _ hmemo => Memo.set_of_full hmemo j _) _ _ _ _
  have hok (l : ChainLabel) : l.Ok (fun _ _ => True) := by
    rcases l with _ | ⟨_, _ | _, _⟩ <;> trivial
  exact (preserves_of_run hbody (fun l _ => hok l) hrun).run hbody (fun l _ => hok l) h hlater

/-- The thread a wake went to, read along its log up to that wake. -/
theorem resolve_wake_follows (hrun : Run (Step (resolveFiber entries)) ⟨fun _ => none, []⟩ ls m)
    {j : Nat} {e : Async.Event ChainCall fun _ => LookupControlFlow} {now : Unit}
    (hs : Step (resolveFiber entries) m (.wake j e now) m') :
    ∃ th pre, m'.threads[j]? = some th ∧ th.log = pre ++ [⟨m.shared, now, e⟩] ∧
      (resolveFrom th.input.1 th.input.2 0 entries).Follows th.seen th.start th.log th.fiber
        m'.shared now := by
  cases hs with
  | wake j th e t now hj hr =>
    obtain ⟨_, _, hfollows⟩ := followed_of_run hrun th (List.mem_of_getElem? hj)
    refine ⟨{ th with log := th.log ++ [⟨m.shared, now, e⟩], fiber := (t.advance now m.shared).1 },
      th.log, ?_, rfl, hfollows.wake hr m.shared now⟩
    exact List.getElem?_set_self (List.getElem?_eq_some_iff.mp hj).1

theorem answeredBy_of_log {th : ChainThread} {res : ResolveResult} {i : Nat} {entry : ChainEntry}
    {pre rest : List ChainWake} {w : ChainWake} (hentry : entries[i]? = some entry)
    (hname : res.handlerName = some entry.name) (hauth : res.authoritative = entry.authoritative)
    (hlog : th.log = pre ++ w :: rest)
    (hw : w.event = .reply none (.answer i th.input.1 th.input.2) res.outcome)
    (hpre : ∀ v ∈ pre, ∃ j, v.event = .reply none (.answer j th.input.1 th.input.2) .skip)
    (hrest : ∀ v ∈ rest, ∃ reply, v.event = .reply none (.apexSoa i) reply) :
    AnsweredBy entries th res i := by
  refine ⟨⟨entry, hentry, hname, hauth⟩, ⟨w, ?_, hw⟩, fun v hv j reply hvj hreply => ?_⟩
  · rw [hlog]
    exact List.mem_append_right _ List.mem_cons_self
  rw [hlog, List.mem_append, List.mem_cons] at hv
  rcases hv with hv | rfl | hv
  · obtain ⟨j', hskip⟩ := hpre v hv
    rw [hskip] at hvj
    cases hvj
    exact absurd rfl hreply
  · rw [hw] at hvj
    cases hvj
    rfl
  · obtain ⟨reply', hfetch⟩ := hrest v hv
    rw [hfetch] at hvj
    cases hvj

theorem resolve_run_negative (hrun : Run (Step (resolveFiber entries)) ⟨fun _ => none, []⟩ ls m)
    (hreply : ∀ l ∈ ls, l.Ok (FixedSoa r)) {th : ChainThread} (hth : th ∈ m.threads)
    {res : ResolveResult} (hret : th.fiber = .ret res) (hauth : res.authoritative = true)
    (hneg : res.outcome.isErr = true) :
    ∃ i, AnsweredBy entries th res i ∧
      (res.soa = some (r i) ∨ res.soa = none ∧ FetchedNothing th i) := by
  obtain ⟨s', n', hfollows⟩ := followed_of_run hrun th hth
  have hlogged := (resolve_run_holds hrun hreply).2 th hth
  rw [hret] at hfollows
  rcases resolveFrom_ends hfollows with
    rfl | ⟨i, entry, pre, memo, t, rest, hi, hlog, hpre, hname, hentry, hatt⟩
  · cases hneg
  rw [Nat.zero_add] at hlog hatt
  refine ⟨i, answeredBy_of_log hi hname hentry hlog rfl hpre hatt.apexSoa, ?_⟩
  have hneeded : (entry.authoritative && res.outcome.isErr) = true := by
    rw [← hentry, hauth, hneg]
    rfl
  generalize res.soa = soa at hatt ⊢
  cases hatt with
  | unneeded h =>
    rw [hneeded] at h
    cases h
  | cached _ hm =>
    have hw := (hlogged ⟨memo, t, _⟩ (hlog ▸ List.mem_append_right _ List.mem_cons_self)).1
    exact .inl (hw i _ hm)
  | @fetched memo' t' reply _ hm =>
    have hmem : ⟨memo', t', .reply none (.apexSoa i) reply⟩ ∈ th.log := by
      rw [hlog]
      exact List.mem_append_right _ (List.mem_cons_of_mem _ (List.mem_singleton_self _))
    have hw := (hlogged _ hmem).2
    rcases hw with hnone | hsome
    · exact .inr ⟨hnone, _, hmem, reply, rfl, hnone⟩
    · exact .inl hsome

/-- Whoever reads a full cell is done with it. -/
theorem resolve_run_reads (hrun : Run (Step (resolveFiber entries)) ⟨fun _ => none, []⟩ ls m)
    {i j : Nat} {c : Option Record} (hfull : m.shared i = some c) {name : Name}
    {recordType : RecordType} {result : LookupControlFlow} {now : Unit} {entry : ChainEntry}
    (hs : Step (resolveFiber entries) m
      (.wake j (.reply none (.answer i name recordType) result) now) m')
    (hentry : entries[i]? = some entry) (hauth : entry.authoritative = true)
    (hneg : result.isErr = true) :
    ∃ th, m'.threads[j]? = some th ∧ th.fiber = .ret ⟨result, some entry.name, true, c⟩ ∧
      ∀ w ∈ th.log, ∀ l, w.event.call ≠ .apexSoa l := by
  obtain ⟨th, pre, hth, hlog, hfollows⟩ := resolve_wake_follows hrun hs
  rw [hlog] at hfollows
  obtain ⟨k, hk, hpre, hret⟩ := resolveFrom_at_answer hfollows hneg hfull
  rw [Nat.zero_add] at hk
  subst hk
  refine ⟨th, hth, hret entry hentry hauth, fun w hw => ?_⟩
  rw [hlog, List.mem_append, List.mem_singleton] at hw
  rcases hw with hw | rfl
  · exact hpre w hw
  · exact nofun

/-- The memo shows in nothing but the number of fetches: an authoritative negative carries its own
handler's record, or nothing where its own fetch came back empty; cells hold their own handler's
record and change only when a fetch yields one; and once a cell is full, whoever reads it attaches
what it holds without asking again. -/
theorem apexSoa_memo_invisible
    (hrun : Run (Step (resolveFiber entries)) ⟨fun _ => none, []⟩ ls m)
    (hreply : ∀ l ∈ ls, l.Ok (FixedSoa r)) :
    (∀ th ∈ m.threads, ∀ res, th.fiber = .ret res → res.authoritative = true →
      res.outcome.isErr = true →
      ∃ i, AnsweredBy entries th res i ∧
        (res.soa = some (r i) ∨ res.soa = none ∧ FetchedNothing th i)) ∧
    (∀ i c, m.shared i = some c → c = some (r i)) ∧
    (∀ j i reply now m',
      Step (resolveFiber entries) m (.wake j (.reply none (.apexSoa i) reply) now) m' →
      (soaOf reply = none → m'.shared = m.shared) ∧
      ((soaOf reply).isSome = true → ∃ c, m'.shared i = some c)) ∧
    ∀ i c, m.shared i = some c → ∀ ls' m', Run (Step (resolveFiber entries)) m ls' m' →
      m'.shared i = some (some (r i)) ∧
      ∀ j name recordType result now m'' entry,
        Step (resolveFiber entries) m'
          (.wake j (.reply none (.answer i name recordType) result) now) m'' →
        entries[i]? = some entry → entry.authoritative = true → result.isErr = true →
        ∃ th, m''.threads[j]? = some th ∧
          th.fiber = .ret ⟨result, some entry.name, true, some (r i)⟩ ∧
          ∀ w ∈ th.log, ∀ l, w.event.call ≠ .apexSoa l := by
  have hholds := (resolve_run_holds hrun hreply).1
  refine ⟨fun th hth res hret hauth hneg => resolve_run_negative hrun hreply hth hret hauth hneg,
    hholds, fun j i reply now m' hs => ?_, fun i c hfull ls' m' hlater => ?_⟩
  · obtain ⟨th, pre, -, hlog, hfollows⟩ := resolve_wake_follows hrun hs
    rw [hlog] at hfollows
    have hshared := resolveFrom_at_fetch hfollows
    refine ⟨fun hnone => ?_, fun hsome => ⟨(m.shared i).getD (soaOf reply), ?_⟩⟩
    · rw [hshared, hnone]
      rfl
    · rw [hshared, if_pos hsome, Memo.set_self]
  · obtain rfl := hholds i c hfull
    have hfull' := resolve_run_keeps hrun hlater hfull
    exact ⟨hfull', fun j name recordType result now m'' entry hs hentry hauth hneg =>
      resolve_run_reads (hrun.trans hlater) hfull' hs hentry hauth hneg⟩

end

def memoEntry : ChainEntry := ⟨"nacos", .primary, Name.root⟩

def memoSoa : Record :=
  ⟨Name.root, 60, .soa ⟨Name.root, Name.root, 1, 3600, 600, 86400, 60⟩⟩

def memoNegative : LookupControlFlow := .break (.error (.responseCode .nxDomain))

/-- Two first-time calls both find the cell empty; the fetch of the first yields nothing, that of
the second the record. -/
theorem apexSoa_memo_race : ∃ ls m, Run (Step (resolveFiber [memoEntry])) ⟨fun _ => none, []⟩ ls m ∧
    (∀ l ∈ ls, l.Ok (FixedSoa fun _ => memoSoa)) ∧
    m.threads.map (·.fiber) = [.ret ⟨memoNegative, some "nacos", true, none⟩,
      .ret ⟨memoNegative, some "nacos", true, some memoSoa⟩] ∧
    m.shared 0 = some (some memoSoa) ∧ ∀ i c, m.shared i = some c → c = some memoSoa := by
  have first : Run (Step (resolveFiber [memoEntry])) ⟨fun _ => none, []⟩ _ _ :=
    .snoc .nil (.spawn _ (Name.root, RecordType.A) ())
  have second := first.snoc (.spawn _ (Name.root, RecordType.A) ())
  have read := second.snoc (.wake _ 0 _ _ _ () rfl (.await _ _ memoNegative))
  have readToo := read.snoc (.wake _ 1 _ _ _ () rfl (.await _ _ memoNegative))
  have failed := readToo.snoc (.wake _ 0 _ _ _ () rfl (.await _ _ memoNegative))
  have hrun := failed.snoc (.wake _ 1 _ _ _ () rfl (.await _ _ (.break (.ok (.section [memoSoa])))))
  have hreply : ∀ l ∈ ([.spawn (Name.root, RecordType.A) (), .spawn (Name.root, RecordType.A) (),
      .wake 0 (.reply none (.answer 0 Name.root RecordType.A) memoNegative) (),
      .wake 1 (.reply none (.answer 0 Name.root RecordType.A) memoNegative) (),
      .wake 0 (.reply none (.apexSoa 0) memoNegative) (),
      .wake 1 (.reply none (.apexSoa 0) (.break (.ok (.section [memoSoa])))) ()] :
        List ChainLabel), l.Ok (FixedSoa fun _ => memoSoa) := by
    simp only [List.forall_mem_cons]
    exact ⟨trivial, trivial, trivial, trivial, .inl rfl, .inr rfl, List.forall_mem_nil _⟩
  exact ⟨_, _, hrun, hreply, rfl, rfl, (apexSoa_memo_invisible hrun hreply).2.1⟩

/-! ## Alone -/

section
variable {W : Type}

def NamedHandler.entry (entry : NamedHandler W) : ChainEntry :=
  ⟨entry.name, entry.handler.zoneType, entry.handler.origin⟩

def memoOf (handlers : List (NamedHandler W)) : Memo := fun i =>
  (handlers[i]?.bind (·.apexSoa)).map some

/-- The handlers' own answers to the calls. -/
def chainAnswer (handlers : List (NamedHandler W)) : ChainCall → W → LookupControlFlow × W
  | .answer i name recordType, w =>
    match handlers[i]? with
    | some entry => entry.handler.lookup name recordType w
    | none => (.skip, w)
  | .apexSoa i, w =>
    match handlers[i]? with
    | some entry => entry.handler.lookup entry.handler.origin RecordType.SOA w
    | none => (.skip, w)

variable (pre handlers : List (NamedHandler W)) (entry : NamedHandler W) (w : W)

theorem entry_authoritative : entry.entry.authoritative = entry.handler.authoritative := rfl

theorem getElem?_entry : (pre ++ entry :: handlers)[pre.length]? = some entry := by
  rw [List.getElem?_append_right (Nat.le_refl _), Nat.sub_self, List.getElem?_cons_zero]

theorem apexSoa_eq : apexSoa entry.handler w =
    (soaOf (entry.handler.lookup entry.handler.origin RecordType.SOA w).1,
      (entry.handler.lookup entry.handler.origin RecordType.SOA w).2) := by
  unfold apexSoa
  rcases entry.handler.lookup entry.handler.origin RecordType.SOA w with
    ⟨(_ | _) | (_ | _) | _, w⟩ <;> rfl

theorem memoOf_set (soa : Record) (hempty : entry.apexSoa = none) :
    (memoOf (pre ++ entry :: handlers)).set pre.length (some soa) =
      memoOf (pre ++ { entry with apexSoa := some soa } :: handlers) := by
  funext j
  by_cases hj : j = pre.length
  · subst hj
    rw [Memo.set_self, memoOf, memoOf, getElem?_entry, getElem?_entry, Option.bind_some, hempty]
    rfl
  · rw [Memo.set_of_ne _ hj, memoOf, memoOf, List.getElem?_append, List.getElem?_append,
      List.getElem?_cons, List.getElem?_cons]
    split
    · rfl
    · rw [if_neg (by omega), if_neg (by omega)]

theorem attachSoaFiber_alone (result : LookupControlFlow) :
    (attachSoaFiber pre.length entry.entry result).alone (chainAnswer (pre ++ entry :: handlers)) ()
      (memoOf (pre ++ entry :: handlers)) w =
    ((attachSoa entry result w).1, memoOf (pre ++ (attachSoa entry result w).2.1 :: handlers),
      (attachSoa entry result w).2.2) := by
  unfold attachSoa
  rw [← entry_authoritative]
  cases hneg : entry.entry.authoritative && result.isErr with
  | false =>
    rw [attachSoaFiber_of_not_negative hneg]
    rfl
  | true =>
    have hcell : memoOf (pre ++ entry :: handlers) pre.length = entry.apexSoa.map some := by
      rw [memoOf, getElem?_entry, Option.bind_some]
    have hanswer : chainAnswer (pre ++ entry :: handlers) (.apexSoa pre.length) w =
        entry.handler.lookup entry.handler.origin RecordType.SOA w := by
      rw [chainAnswer, getElem?_entry]
    rw [attachSoaFiber_of_negative hneg, if_pos rfl, Fiber.alone, hcell]
    cases hempty : entry.apexSoa with
    | some cached => rfl
    | none =>
      rw [apexSoa_eq, Option.map_none, Fiber.alone, hanswer]
      dsimp only
      cases soaOf (entry.handler.lookup entry.handler.origin RecordType.SOA w).1 with
      | none => rfl
      | some soa =>
        rw [if_pos Option.isSome_some, if_pos Option.isSome_some, Fiber.alone,
          memoOf_set pre handlers entry soa hempty]
        rfl

/-- A call that nobody interleaves with is `resolve`. -/
theorem resolveFrom_alone (name : Name) (recordType : RecordType) :
    (resolveFrom name recordType pre.length (handlers.map NamedHandler.entry)).alone
      (chainAnswer (pre ++ handlers)) () (memoOf (pre ++ handlers)) w =
    ((resolve name recordType handlers w).1,
      memoOf (pre ++ (resolve name recordType handlers w).2.1),
      (resolve name recordType handlers w).2.2) := by
  induction handlers generalizing pre w with
  | nil => rfl
  | cons entry handlers ih =>
    have hanswer : chainAnswer (pre ++ entry :: handlers) (.answer pre.length name recordType) w =
        entry.handler.lookup name recordType w := by
      rw [chainAnswer, getElem?_entry]
    rw [List.map_cons, resolveFrom_cons, Fiber.alone, hanswer]
    by_cases hskip : (entry.handler.lookup name recordType w).1 = .skip
    · rw [resolve]
      cases hl : entry.handler.lookup name recordType w with
      | mk result w₁ =>
        rw [hl] at hskip
        cases hskip
        have ih := ih (pre ++ [entry]) w₁
        rw [List.length_append, List.append_assoc, List.append_assoc] at ih
        exact ih
    · obtain ⟨hname, hhandler⟩ := attachSoa_entry entry
        (entry.handler.lookup name recordType w).1 (entry.handler.lookup name recordType w).2
      rw [resolve_answer hskip, if_neg hskip, Fiber.alone_bind, attachSoaFiber_alone, Fiber.alone]
      dsimp only
      rw [hname, hhandler]
      rfl

theorem resolveFiber_alone (name : Name) (recordType : RecordType) :
    (resolveFiber (handlers.map NamedHandler.entry) (name, recordType)).alone
      (chainAnswer handlers) () (memoOf handlers) w =
    ((resolve name recordType handlers w).1, memoOf (resolve name recordType handlers w).2.1,
      (resolve name recordType handlers w).2.2) :=
  resolveFrom_alone [] handlers w name recordType

end

end DoggyDns
