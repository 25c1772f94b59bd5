import Mathlib.Tactic.Ring
import Mathlib.Data.List.Induction
import DoggyDns.Nacos.Watcher
import DoggyDns.Lib.Atomic

/-!
# The failure backoff under concurrency

`FailureBackoff` holds three atomics and no lock. Its methods are programs of
single atomic operations here, and run alone they are the methods of
`Nacos.Watcher`. Under any interleaving a window that reads as open was opened
by three failures in a row: a failure that lost the race against an answer may
stamp `opened_at` after it, but the counter it left behind is too low.
-/

namespace DoggyDns

open Atomic Lts

/-- The atomic operations of `FailureBackoff`. -/
inductive BackoffOp where
  | fetchAddFailures
  | storeZeroFailures
  | loadFailures
  | storeOpenedAt (v : Int64)
  | loadOpenedAt
  | storeConfirmed
  | loadConfirmed
  deriving DecidableEq, Repr

namespace BackoffOp

/-- `fetch_add` wraps. -/
def exec : BackoffOp → FailureBackoff → FailureBackoff
  | fetchAddFailures, b => { b with failures := b.failures + 1 }
  | storeZeroFailures, b => { b with failures := 0 }
  | storeOpenedAt v, b => { b with openedAt := v }
  | storeConfirmed, b => { b with confirmed := true }
  | loadFailures, b | loadOpenedAt, b | loadConfirmed, b => b

end BackoffOp

abbrev BackoffProg := Prog FailureBackoff BackoffOp

namespace BackoffProg

open BackoffOp

/-- What `is_open` makes of the two values it loaded. -/
def covers (openedAt : Int64) (failures : UInt32) (now : Int64) : Bool :=
  if openedAt = WINDOW_CLOSED ∨ failures < NACOS_FAILURE_THRESHOLD then false
  else
    let elapsed := saturatingSub now openedAt
    0 ≤ elapsed ∧ elapsed < NACOS_FAILURE_BACKOFF

def recordFailure (now : Int64) : BackoffProg Bool := do
  let old ← Prog.perform fetchAddFailures FailureBackoff.failures
  let streak := old + 1
  if streak < NACOS_FAILURE_THRESHOLD then return false
  else
    Prog.perform (storeOpenedAt now) fun _ => ()
    return true

def recordSuccess : BackoffProg Unit := do
  Prog.perform storeZeroFailures fun _ => ()
  Prog.perform (storeOpenedAt WINDOW_CLOSED) fun _ => ()
  Prog.perform storeConfirmed fun _ => ()

def isOpen (now : Int64) : BackoffProg Bool := do
  let openedAt ← Prog.perform loadOpenedAt FailureBackoff.openedAt
  let failures ← Prog.perform loadFailures FailureBackoff.failures
  return covers openedAt failures now

def everConfirmed : BackoffProg Bool := Prog.perform loadConfirmed FailureBackoff.confirmed

/-! ## Operation by operation -/

theorem recordFailure_eq (now : Int64) :
    recordFailure now = .op fetchAddFailures fun b =>
      if b.failures + 1 < NACOS_FAILURE_THRESHOLD then .ret false
      else .op (storeOpenedAt now) fun _ => .ret true := rfl

theorem recordSuccess_eq :
    recordSuccess = .op storeZeroFailures fun _ => .op (storeOpenedAt WINDOW_CLOSED) fun _ =>
      .op storeConfirmed fun _ => .ret () := rfl

theorem isOpen_eq (now : Int64) :
    isOpen now = .op loadOpenedAt fun b => .op loadFailures fun b' =>
      .ret (covers b.openedAt b'.failures now) := rfl

theorem everConfirmed_eq : everConfirmed = .op loadConfirmed fun b => .ret b.confirmed := rfl

/-! ## Alone -/

theorem recordFailure_alone (b : FailureBackoff) (now : Int64) :
    (recordFailure now).alone exec b = b.recordFailure now := by
  unfold recordFailure FailureBackoff.recordFailure
  simp only [Prog.perform_bind, Prog.alone]
  split <;> rfl

theorem recordSuccess_alone (b : FailureBackoff) :
    (recordSuccess.alone exec b).2 = b.recordSuccess := rfl

theorem isOpen_alone (b : FailureBackoff) (now : Int64) :
    (isOpen now).alone exec b = (b.isOpen now, b) := rfl

theorem everConfirmed_alone (b : FailureBackoff) :
    everConfirmed.alone exec b = (b.everConfirmed, b) := rfl

end BackoffProg

/-! ## Any number of calls -/

inductive BackoffCall where
  | recordFailure (now : Int64)
  | recordSuccess
  | isOpen (now : Int64)
  | everConfirmed
  deriving DecidableEq, Repr

abbrev BackoffCall.Result : BackoffCall → Type
  | .recordSuccess => Unit
  | _ => Bool

def BackoffCall.body : (c : BackoffCall) → BackoffProg c.Result
  | .recordFailure now => BackoffProg.recordFailure now
  | .recordSuccess => BackoffProg.recordSuccess
  | .isOpen now => BackoffProg.isOpen now
  | .everConfirmed => BackoffProg.everConfirmed

abbrev BackoffSystem := System FailureBackoff BackoffOp BackoffCall.Result

abbrev BackoffLog := List (Nat × BackoffOp)

/-- The `fetch_add`s on `failures` since the last store to it. -/
def addsSince (log : BackoffLog) : Nat :=
  (log.reverse.takeWhile fun e => e.2 ≠ .storeZeroFailures).countP fun e =>
    e.2 = .fetchAddFailures

/-- The `fetch_add`s of the whole log. -/
def addsIn (log : BackoffLog) : Nat := log.countP fun e => e.2 = .fetchAddFailures

/-! ## The registers, from the log -/

section
open BackoffOp

theorem addsSince_append_singleton (log : BackoffLog) (e : Nat × BackoffOp) :
    addsSince (log ++ [e]) =
      if e.2 = storeZeroFailures then 0
      else if e.2 = fetchAddFailures then addsSince log + 1 else addsSince log := by
  unfold addsSince
  rw [List.reverse_append, List.reverse_singleton, List.singleton_append, List.takeWhile_cons]
  by_cases hz : e.2 = storeZeroFailures
  · simp [hz]
  · simp only [ne_eq, hz, not_false_eq_true, decide_true, if_true, List.countP_cons, if_false,
      decide_eq_true_eq]
    split <;> rfl

theorem addsSince_le (log : BackoffLog) : addsSince log ≤ addsIn log := by
  unfold addsSince addsIn
  exact Nat.le_trans (List.takeWhile_sublist _).countP_le (Nat.le_of_eq List.countP_reverse)

theorem addsIn_append (xs ys : BackoffLog) : addsIn (xs ++ ys) = addsIn xs + addsIn ys :=
  List.countP_append

/-- Behind a store of zero only what follows it counts. -/
theorem addsSince_after_store (xs ys : BackoffLog) (k : Nat) :
    addsSince (xs ++ (k, storeZeroFailures) :: ys) ≤ addsIn ys := by
  unfold addsSince addsIn
  rw [List.reverse_append, List.reverse_cons, List.append_assoc]
  have hle : ∀ as bs : BackoffLog, List.Sublist
      ((as ++ (k, storeZeroFailures) :: bs).takeWhile fun e => e.2 ≠ storeZeroFailures) as := by
    intro as bs
    induction as with
    | nil => simp
    | cons a as ih =>
      rw [List.cons_append, List.takeWhile_cons]
      split
      · exact ih.cons_cons a
      · exact List.nil_sublist _
  exact Nat.le_trans (hle _ _).countP_le (Nat.le_of_eq List.countP_reverse)

/-- The counter, as long as it cannot have wrapped. -/
theorem failures_replay {log : BackoffLog} (hfew : addsIn log < 2 ^ 32) :
    (replay exec {} log).failures.toNat = addsSince log := by
  induction log using List.reverseRecOn with
  | nil => rfl
  | append_singleton log e ih =>
    rw [addsIn_append] at hfew
    have ih := ih (by omega)
    have hle := addsSince_le log
    rw [replay_append, addsSince_append_singleton]
    obtain ⟨i, o⟩ := e
    cases o with
    | fetchAddFailures =>
      have hone : addsIn [(i, fetchAddFailures)] = 1 := rfl
      simp only [replay_cons, replay_nil, exec, reduceCtorEq, if_false, if_true]
      rw [UInt32.toNat_add, ih]
      exact Nat.mod_eq_of_lt (by simp; omega)
    | storeZeroFailures => rfl
    | _ => exact ih

/-- Only a store to `opened_at` changes it. -/
theorem exec_openedAt (o : BackoffOp) (b : FailureBackoff) :
    (∃ v, o = storeOpenedAt v) ∨ (exec o b).openedAt = b.openedAt ∧ ∀ v, o ≠ storeOpenedAt v := by
  cases o with
  | storeOpenedAt v => exact .inl ⟨v, rfl⟩
  | _ => exact .inr ⟨rfl, by simp⟩

/-- A stamp other than "no window" is the last one stored. -/
theorem openedAt_replay {log : BackoffLog} {t : Int64} (ht : (replay exec {} log).openedAt = t)
    (hne : t ≠ WINDOW_CLOSED) :
    ∃ pre j post, log = pre ++ (j, storeOpenedAt t) :: post ∧
      ∀ k v, (k, storeOpenedAt v) ∉ post := by
  induction log using List.reverseRecOn with
  | nil => exact absurd ht.symm hne
  | append_singleton log e ih =>
    obtain ⟨i, o⟩ := e
    rw [replay_append] at ht
    rcases exec_openedAt o (replay exec {} log) with ⟨v, rfl⟩ | ⟨hsame, hno⟩
    · cases ht
      exact ⟨log, i, [], rfl, by simp⟩
    · obtain ⟨pre, j, post, rfl, hlast⟩ := ih (hsame ▸ ht)
      refine ⟨pre, j, post ++ [(i, o)], by simp, fun k v hm => ?_⟩
      rcases List.mem_append.mp hm with hm | hm
      · exact hlast k v hm
      · cases List.mem_singleton.mp hm
        exact hno v rfl

/-- Once set, the memory of an answer stays. -/
theorem confirmed_replay (b : FailureBackoff) (log : BackoffLog) (h : b.confirmed = true) :
    (replay exec b log).confirmed = true := by
  induction log generalizing b with
  | nil => exact h
  | cons e log ih =>
    refine ih _ ?_
    obtain ⟨i, o⟩ := e
    cases o with
    | storeConfirmed => rfl
    | _ => exact h

/-! ## What a call saw -/

/-- An elapsed time inside the window did not saturate. -/
theorem elapsed_of_saturatingSub {a b : Int64} (h0 : 0 ≤ saturatingSub a b)
    (h30 : saturatingSub a b < NACOS_FAILURE_BACKOFF) :
    0 ≤ a.toInt - b.toInt ∧ a.toInt - b.toInt < 30 := by
  unfold saturatingSub Int64.ofIntClamp at h0 h30
  split at h0
  next hlo =>
    rw [dif_pos hlo] at h30
    split at h0
    next hhi =>
      rw [dif_pos hhi] at h30
      rw [Int64.le_iff_toInt_le, Int64.toInt_ofIntLE] at h0
      rw [Int64.lt_iff_toInt_lt, Int64.toInt_ofIntLE] at h30
      exact ⟨h0, h30⟩
    next hhi =>
      rw [dif_neg hhi] at h30
      exact absurd h30 (by decide)
  next => exact absurd h0 (by decide)

/-- What a window that reads as open says. -/
theorem covers_eq_true {openedAt now : Int64} {failures : UInt32}
    (h : BackoffProg.covers openedAt failures now = true) :
    openedAt ≠ WINDOW_CLOSED ∧ 3 ≤ failures.toNat ∧ 0 ≤ now.toInt - openedAt.toInt ∧
      now.toInt - openedAt.toInt < 30 := by
  unfold BackoffProg.covers at h
  split at h
  next => cases h
  next hne =>
    rw [not_or, UInt32.not_lt] at hne
    simp only [decide_eq_true_eq] at h
    exact ⟨hne.1, UInt32.le_iff_toNat_le.mp hne.2, elapsed_of_saturatingSub h.1 h.2⟩

theorem isOpen_follows {i : Nat} {s : FailureBackoff} {log : BackoffLog} {now : Int64} {b : Bool}
    (h : Follows exec i (BackoffProg.isOpen now) s log (.ret b)) :
    ∃ pre mid post, log = pre ++ (i, loadOpenedAt) :: mid ++ (i, loadFailures) :: post ∧
      b = BackoffProg.covers (replay exec s pre).openedAt
        (replay exec s (pre ++ (i, loadOpenedAt) :: mid)).failures now := by
  rw [BackoffProg.isOpen_eq] at h
  obtain ⟨pre, rest, rfl, hrest⟩ := h.past_op nofun
  obtain ⟨mid, post, rfl, hpost⟩ := hrest.past_op nofun
  cases hpost.eq_ret
  refine ⟨pre, mid, post, by simp, ?_⟩
  rw [replay_append, replay_cons]

/-- The result of `is_open` comes from the counter at its load of it. -/
theorem isOpen_at_load {i : Nat} {s : FailureBackoff} {pre post : BackoffLog} {now : Int64}
    {b : Bool}
    (h : Follows exec i (BackoffProg.isOpen now) s (pre ++ (i, loadFailures) :: post) (.ret b)) :
    ∃ openedAt, b = BackoffProg.covers openedAt (replay exec s pre).failures now := by
  rw [BackoffProg.isOpen_eq] at h
  obtain ⟨next, hpre, hpost⟩ := h.at_op
  obtain ⟨xs, ys, rfl, hys⟩ := hpre.past_op nofun
  rcases hys.op_cases with heq | ⟨us, vs, rfl, hvs⟩
  · cases heq
    cases hpost.eq_ret
    exact ⟨_, rfl⟩
  · cases hvs.eq_ret

theorem everConfirmed_at_load {i : Nat} {s : FailureBackoff} {pre post : BackoffLog} {b : Bool}
    (h : Follows exec i BackoffProg.everConfirmed s (pre ++ (i, loadConfirmed) :: post)
      (.ret b)) : b = (replay exec s pre).confirmed := by
  rw [BackoffProg.everConfirmed_eq] at h
  obtain ⟨next, hpre, hpost⟩ := h.at_op
  rcases hpre.op_cases with heq | ⟨xs, ys, rfl, hys⟩
  · cases heq
    cases hpost.eq_ret
    rfl
  · cases hys.eq_ret

/-- Who stamps a window: a failure that counted itself as the third or later. -/
theorem stored_by_failure {j : Nat} {c : BackoffCall} {s : FailureBackoff} {pre post : BackoffLog}
    {t : Int64} {q : BackoffProg c.Result}
    (h : Follows exec j c.body s (pre ++ (j, storeOpenedAt t) :: post) q)
    (hne : t ≠ WINDOW_CLOSED) :
    c = .recordFailure t ∧ ∃ xs ys, pre = xs ++ (j, fetchAddFailures) :: ys ∧
      ¬ (replay exec s xs).failures + 1 < NACOS_FAILURE_THRESHOLD := by
  obtain ⟨next, hpre, -⟩ := h.at_op
  cases c with
  | recordFailure now =>
    rw [BackoffCall.body, BackoffProg.recordFailure_eq] at hpre
    obtain ⟨xs, ys, rfl, hys⟩ := hpre.past_op nofun
    split at hys
    next => cases hys.eq_ret
    next hstreak =>
      rcases hys.op_cases with heq | ⟨us, vs, rfl, hvs⟩
      · cases heq
        exact ⟨rfl, xs, ys, rfl, hstreak⟩
      · cases hvs.eq_ret
  | recordSuccess =>
    -- an answer stores "no window" only
    rw [BackoffCall.body, BackoffProg.recordSuccess_eq] at hpre
    obtain ⟨xs, ys, rfl, hys⟩ := hpre.past_op nofun
    rcases hys.op_cases with heq | ⟨us, vs, rfl, hvs⟩
    · cases heq
      exact absurd rfl hne
    · obtain ⟨as, bs, rfl, hbs⟩ := hvs.past_op nofun
      cases hbs.eq_ret
  | isOpen now =>
    rw [BackoffCall.body, BackoffProg.isOpen_eq] at hpre
    obtain ⟨xs, ys, rfl, hys⟩ := hpre.past_op nofun
    obtain ⟨us, vs, rfl, hvs⟩ := hys.past_op nofun
    cases hvs.eq_ret
  | everConfirmed =>
    rw [BackoffCall.body, BackoffProg.everConfirmed_eq] at hpre
    obtain ⟨xs, ys, rfl, hys⟩ := hpre.past_op nofun
    cases hys.eq_ret

/-- The stamp an `is_open` finds after `log` is `t`, and a `record_failure(t)` stored it that
counted itself as the third or later failure in a row. -/
def StampedBy (σ : BackoffSystem) (log : BackoffLog) (t : Int64) : Prop :=
  ∃ j pre post, log = pre ++ (j, storeOpenedAt t) :: post ∧
    (∀ k v, (k, storeOpenedAt v) ∉ post) ∧
    (∃ q, σ.calls[j]? = some ⟨.recordFailure t, q⟩) ∧
    ∃ xs ys, pre = xs ++ (j, fetchAddFailures) :: ys ∧
      3 ≤ addsSince (xs ++ [(j, fetchAddFailures)])

variable {σ : BackoffSystem}

theorem stampedBy_of_openedAt (hi : Inv exec BackoffCall.body {} σ) (hfew : addsIn σ.log < 2 ^ 32)
    {log rest : BackoffLog} {t : Int64} (hlog : σ.log = log ++ rest)
    (ht : (replay exec {} log).openedAt = t) (hne : t ≠ WINDOW_CLOSED) : StampedBy σ log t := by
  obtain ⟨pre, j, post, rfl, hlast⟩ := openedAt_replay ht hne
  have hj : j < σ.calls.length := hi.known (j, storeOpenedAt t) (by simp [hlog])
  obtain ⟨c, q, hq⟩ : ∃ c q, σ.calls[j]? = some ⟨c, q⟩ := ⟨_, _, List.getElem?_eq_getElem hj⟩
  have hf := hi.follows j c q hq
  rw [hlog, List.append_assoc, List.cons_append] at hf
  obtain ⟨rfl, xs, ys, rfl, hstreak⟩ := stored_by_failure hf hne
  refine ⟨j, _, post, rfl, hlast, ⟨q, hq⟩, xs, ys, rfl, ?_⟩
  -- the counter did not wrap, so the streak is the number of failures
  have hcount : addsIn xs + 1 ≤ addsIn σ.log := by
    rw [hlog]
    simp only [addsIn, List.countP_append, List.countP_cons, decide_true, if_true]
    omega
  have hle := addsSince_le xs
  have hxs : (replay exec {} xs).failures.toNat = addsSince xs := failures_replay (by omega)
  rw [UInt32.not_lt, UInt32.le_iff_toNat_le, UInt32.toNat_add, hxs] at hstreak
  rw [addsSince_append_singleton]
  have hmod : (addsSince xs + 1) % 2 ^ 32 = addsSince xs + 1 := Nat.mod_eq_of_lt (by omega)
  simp only [reduceCtorEq, if_false, if_true]
  exact hmod ▸ hstreak

/-- **Under every interleaving, an open window stands on three failures in a row.** Whoever reads
it as open found at least three since the last answer, and a stamp of the last 30 seconds by a
failure that was itself the third or later. So after an answer nobody reads it as open before the
third failure that follows, whoever stamps it late; and the memory of an answer stays. -/
theorem backoff_window_interleaved {ls : List (Atomic.Label BackoffCall)}
    (hrun : Run (System.Step exec BackoffCall.body) ⟨{}, [], []⟩ ls σ)
    (hfew : addsIn σ.log < 2 ^ 32) :
    (∀ i now, σ.calls[i]? = some ⟨.isOpen now, .ret true⟩ →
      ∃ pre mid post, σ.log = pre ++ (i, loadOpenedAt) :: mid ++ (i, loadFailures) :: post ∧
        3 ≤ addsSince (pre ++ (i, loadOpenedAt) :: mid) ∧
        ∃ t, StampedBy σ pre t ∧ 0 ≤ now.toInt - t.toInt ∧ now.toInt - t.toInt < 30) ∧
    (∀ i now b k pre mid post,
      σ.log = pre ++ (k, storeZeroFailures) :: mid ++ (i, loadFailures) :: post →
      addsIn mid < 3 → σ.calls[i]? = some ⟨.isOpen now, .ret b⟩ → b = false) ∧
    ∀ i j b pre mid post,
      σ.log = pre ++ (i, loadConfirmed) :: mid ++ (j, loadConfirmed) :: post →
      σ.calls[i]? = some ⟨.everConfirmed, .ret true⟩ →
      σ.calls[j]? = some ⟨.everConfirmed, .ret b⟩ → b = true := by
  have hi := Inv.of_run hrun
  refine ⟨fun i now hcall => ?_, fun i now b k pre mid post hlog hadds hcall => ?_,
    fun i j b pre mid post hlog hi₁ hj₁ => ?_⟩
  · obtain ⟨pre, mid, post, hlog, htrue⟩ := isOpen_follows (hi.follows i _ _ hcall)
    obtain ⟨hne, hthree, hwindow⟩ := covers_eq_true htrue.symm
    have hprefix : addsIn (pre ++ (i, loadOpenedAt) :: mid) < 2 ^ 32 := by
      rw [hlog, addsIn_append] at hfew
      omega
    rw [failures_replay hprefix] at hthree
    refine ⟨pre, mid, post, hlog, hthree, _, ?_, hwindow⟩
    rw [List.append_assoc] at hlog
    exact stampedBy_of_openedAt hi hfew hlog rfl hne
  · have hf := hi.follows i _ _ hcall
    rw [hlog] at hf
    obtain ⟨openedAt, rfl⟩ := isOpen_at_load hf
    have hprefix : addsIn (pre ++ (k, storeZeroFailures) :: mid) < 2 ^ 32 := by
      rw [hlog, addsIn_append] at hfew
      omega
    have hle := addsSince_after_store pre mid k
    rw [Bool.eq_false_iff]
    intro htrue
    have hthree := (covers_eq_true htrue).2.1
    rw [failures_replay hprefix] at hthree
    omega
  · have hfi := hi.follows i _ _ hi₁
    have hfj := hi.follows j _ _ hj₁
    rw [hlog, List.append_assoc, List.cons_append] at hfi
    rw [hlog] at hfj
    have htrue := everConfirmed_at_load hfi
    rw [everConfirmed_at_load hfj, replay_append]
    exact confirmed_replay _ _ htrue.symm

end

/-- Three failures at time 100, and a look ten seconds later. -/
def threeFailures : List (Atomic.Label BackoffCall) :=
  [.call (.recordFailure 100), .exec 0, .call (.recordFailure 100), .exec 1,
    .call (.recordFailure 100), .exec 2, .exec 2, .call (.isOpen 110), .exec 3, .exec 3]

theorem backoff_window_after_three_failures :
    ∃ σ : BackoffSystem, addsIn σ.log < 2 ^ 32 ∧
      σ.calls[3]? = some ⟨.isOpen 110, .ret true⟩ ∧
      ∃ pre, 3 ≤ addsSince pre ∧ ∃ pre' t, StampedBy σ pre' t := by
  obtain ⟨σ, hσ⟩ : ∃ σ, System.steps BackoffOp.exec BackoffCall.body ⟨{}, [], []⟩ threeFailures =
      some σ := ⟨_, rfl⟩
  have hrun := run_of_steps hσ
  cases hσ
  have hopen := (backoff_window_interleaved hrun (by decide)).1 3 110 rfl
  obtain ⟨pre, mid, -, -, hthree, t, hstamp, -⟩ := hopen
  exact ⟨_, by decide, rfl, _, hthree, pre, t, hstamp⟩

end DoggyDns
