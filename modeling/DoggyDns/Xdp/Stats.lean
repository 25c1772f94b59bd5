import DoggyDns.Basic.Env
import DoggyDns.Ebpf.Verdict
import DoggyDns.Lib.Restart
import DoggyDns.Lib.Run

/-!
# The counters' way to the metrics

`spawn_stats_poller` reads the counters of the XDP program once per period and
once more when it is stopped, and forwards what was counted since the last read
that succeeded. A counter below its previous reading has started over, so its
reading is what was counted since.

The reads are the input: `XdpStatsReader::snapshot` either fails or yields the
counters summed over the CPUs. An underflowing subtraction is a `Panic`.
-/

namespace DoggyDns

open Ebpf Lts

/-! ## Deltas -/

/-- What a checked build stops at. -/
inductive Panic where
  | subtractOverflow
  deriving DecidableEq, Repr

/-- `a - b` of two `u64`. -/
def checkedSub (a b : UInt64) : Except Panic UInt64 :=
  if a < b then .error .subtractOverflow else .ok (a - b)

structure XdpStatsDelta where
  hit : UInt64
  negativeHit : UInt64
  miss : UInt64
  expired : UInt64
  drop : UInt64
  reset : Bool
  deriving DecidableEq, Repr

/-- The counters that moved, with their labels. -/
def XdpStatsDelta.entries (delta : XdpStatsDelta) : List (String × UInt64) :=
  [("hit", delta.hit), ("negative_hit", delta.negativeHit), ("miss", delta.miss),
    ("expired", delta.expired), ("drop", delta.drop)].filter (0 < ·.2)

/-- Difference of two readings of a counter, and whether it went backwards. -/
def XdpStatsDelta.step (current previous : UInt64) : Except Panic (UInt64 × Bool) :=
  if current ≥ previous then do
    let difference ← checkedSub current previous
    .ok (difference, false)
  else .ok (current, true)

/-- What was counted since `previous`, counter by counter. -/
def Ebpf.XdpStats.deltaFrom (current previous : XdpStats) : Except Panic XdpStatsDelta := do
  let (hit, hitReset) ← XdpStatsDelta.step current.hit previous.hit
  let (negativeHit, negativeReset) ← XdpStatsDelta.step current.negativeHit previous.negativeHit
  let (miss, missReset) ← XdpStatsDelta.step current.miss previous.miss
  let (expired, expiredReset) ← XdpStatsDelta.step current.expired previous.expired
  let (drop, dropReset) ← XdpStatsDelta.step current.drop previous.drop
  .ok { hit, negativeHit, miss, expired, drop
        reset := hitReset || negativeReset || missReset || expiredReset || dropReset }

/-! ## The poller -/

inductive Level where
  | debug
  | warn
  deriving DecidableEq, Repr

/-- What the poller does that can be seen. -/
inductive PollEvent where
  /-- A call of the sink. -/
  | sink (label : String) (count : UInt64)
  /-- The log line "XDP stats counters reset (program reloaded)". -/
  | reset
  /-- The log line "failed to read XDP stats map; skipping window". -/
  | skipped (level : Level) (error : Error)
  deriving DecidableEq, Repr

def emitDelta (previous current : XdpStats) : Except Panic (List PollEvent × XdpStats) := do
  let delta ← current.deltaFrom previous
  let reset := if delta.reset then [.reset] else []
  .ok (reset ++ delta.entries.map fun (label, count) => .sink label count, current)

/-- What `XdpStatsReader::snapshot` returns. -/
abbrev Snapshot := Except Error XdpStats

/-- `XdpStats::default()`. -/
def Ebpf.XdpStats.zero : XdpStats := ⟨0, 0, 0, 0, 0⟩

structure Poller where
  previous : XdpStats := XdpStats.zero
  warned : Bool := false
  deriving DecidableEq, Repr

namespace Poller

/-- One round of the loop. -/
def poll (p : Poller) : Snapshot → Except Panic (List PollEvent × Poller)
  | .ok current => do
    let (events, previous) ← emitDelta p.previous current
    .ok (events, { previous, warned := false })
  | .error error =>
    -- the baseline stays, so the next successful read reports what happened in between
    if p.warned then .ok ([.skipped .debug error], p)
    else .ok ([.skipped .warn error], { p with warned := true })

/-- The loop, read by read. -/
def loop (p : Poller) : List Snapshot → Except Panic (List (List PollEvent) × Poller)
  | [] => .ok ([], p)
  | read :: reads => do
    let (events, p) ← p.poll read
    let (rest, p) ← p.loop reads
    .ok (events :: rest, p)

/-- The final read. -/
def finish (p : Poller) : Snapshot → Except Panic (List PollEvent × Poller)
  | .ok current => do
    let (events, previous) ← emitDelta p.previous current
    .ok (events, { p with previous })
  | .error _ => .ok ([], p)

end Poller

/-- What the task does at each of its reads: those of its loop, and the `final` one once it was
stopped. -/
def spawnStatsPoller (reads : List Snapshot) (final : Option Snapshot) :
    Except Panic (List (List PollEvent)) := do
  let (steps, p) ← Poller.loop {} reads
  match final with
  | none => .ok steps
  | some read => do
    let (events, _) ← p.finish read
    .ok (steps ++ [events])

/-! ## What was counted -/

def Ebpf.Outcome.label : Outcome → String
  | .hit => "hit"
  | .negativeHit => "negative_hit"
  | .miss => "miss"
  | .expired => "expired"
  | .drop => "drop"

/-- What an event adds to the counter `o` at the sink. -/
def PollEvent.forwarded (o : Outcome) : PollEvent → Nat
  | .sink label count => if label = o.label then count.toNat else 0
  | _ => 0

def forwarded (o : Outcome) (steps : List (List PollEvent)) : Nat :=
  (steps.flatten.map (PollEvent.forwarded o)).sum

/-- The snapshots of the reads that succeeded. -/
def snapshots (reads : List Snapshot) : List XdpStats := reads.filterMap Except.toOption

/-- What counter `o` showed at the reads that succeeded. -/
def readings (o : Outcome) (reads : List Snapshot) : List Nat :=
  (snapshots reads).map fun s => (s.get o).toNat

/-- What the next read is compared with. -/
def baseline (reads : List Snapshot) : XdpStats := (snapshots reads).getLastD XdpStats.zero

/-! ## One read -/

def XdpStatsDelta.get (delta : XdpStatsDelta) : Outcome → UInt64
  | .hit => delta.hit
  | .negativeHit => delta.negativeHit
  | .miss => delta.miss
  | .expired => delta.expired
  | .drop => delta.drop

section
variable {current previous : UInt64}

theorem XdpStatsDelta.step_eq : XdpStatsDelta.step current previous =
    .ok (if previous ≤ current then current - previous else current, current < previous) := by
  unfold XdpStatsDelta.step checkedSub
  by_cases h : previous ≤ current
  · have hlt : ¬ current < previous := UInt64.not_lt.mpr h
    rw [if_pos h, if_pos h, if_neg hlt, decide_eq_false hlt]
    rfl
  · rw [if_neg h, if_neg h, decide_eq_true (UInt64.not_le.mp h)]

theorem toNat_difference :
    (if previous ≤ current then current - previous else current).toNat =
      Restart.increase previous.toNat current.toNat := by
  unfold Restart.increase
  by_cases h : previous ≤ current
  · rw [if_pos h, if_pos (UInt64.le_iff_toNat_le.mp h), UInt64.toNat_sub_of_le _ _ h]
  · rw [if_neg h, if_neg (mt UInt64.le_iff_toNat_le.mpr h)]

end

/-- The delta of two snapshots: what each counter counted, and whether one of them fell. -/
theorem deltaFrom_ok (current previous : XdpStats) :
    ∃ delta, current.deltaFrom previous = .ok delta ∧
      (∀ o, (delta.get o).toNat =
        Restart.increase (previous.get o).toNat (current.get o).toNat) ∧
      (delta.reset = true ↔ ∃ o, current.get o < previous.get o) := by
  unfold Ebpf.XdpStats.deltaFrom
  simp only [XdpStatsDelta.step_eq]
  refine ⟨_, rfl, fun o => ?_, ?_⟩
  · cases o <;> exact toNat_difference
  · simp only [Bool.or_eq_true, decide_eq_true_eq]
    constructor
    · rintro ((((h | h) | h) | h) | h)
      exacts [⟨.hit, h⟩, ⟨.negativeHit, h⟩, ⟨.miss, h⟩, ⟨.expired, h⟩, ⟨.drop, h⟩]
    · rintro ⟨o, h⟩
      cases o with
      | hit => exact .inl (.inl (.inl (.inl h)))
      | negativeHit => exact .inl (.inl (.inl (.inr h)))
      | miss => exact .inl (.inl (.inr h))
      | expired => exact .inl (.inr h)
      | drop => exact .inr h

/-- Leaving out the counters that did not move leaves out nothing of the sum. -/
theorem sum_entries (o : Outcome) (counts : List (String × UInt64)) :
    (((counts.filter (0 < ·.2)).map fun (label, count) => PollEvent.sink label count).map
        (PollEvent.forwarded o)).sum =
      (counts.map fun c => if c.1 = o.label then c.2.toNat else 0).sum := by
  induction counts with
  | nil => rfl
  | cons c counts ih =>
    rw [List.filter_cons]
    split
    next =>
      rw [List.map_cons, List.map_cons, List.sum_cons, List.map_cons, List.sum_cons, ih]
      rfl
    next hzero =>
      have hcount : c.2.toNat = 0 := by
        rw [decide_eq_true_eq, UInt64.lt_iff_toNat_lt, Nat.not_lt] at hzero
        exact Nat.le_zero.mp hzero
      rw [List.map_cons, List.sum_cons, ih, hcount, ite_self, Nat.zero_add]

theorem forwarded_entries (delta : XdpStatsDelta) (o : Outcome) :
    ((delta.entries.map fun (label, count) => PollEvent.sink label count).map
      (PollEvent.forwarded o)).sum = (delta.get o).toNat := by
  unfold XdpStatsDelta.entries
  rw [sum_entries]
  cases o <;> simp [Ebpf.Outcome.label, XdpStatsDelta.get]

/-- Handling one read against the baseline `base`: what is forwarded, what is reported, and the
baseline for the next read. -/
structure Polled (base : XdpStats) (step : Snapshot × List PollEvent) (base' : XdpStats) :
    Prop where
  baseline : base' = step.1.toOption.getD base
  forwards : ∀ o, (step.2.map (PollEvent.forwarded o)).sum =
    Restart.total (base.get o).toNat (readings o [step.1])
  nonzero : ∀ label count, .sink label count ∈ step.2 → 0 < count
  reset : .reset ∈ step.2 ↔ ∃ current, step.1 = .ok current ∧ ∃ o, current.get o < base.get o

theorem emitDelta_polled (previous current : XdpStats) :
    ∃ events, emitDelta previous current = .ok (events, current) ∧
      Polled previous (.ok current, events) current := by
  obtain ⟨delta, hdelta, hget, hreset⟩ := deltaFrom_ok current previous
  unfold emitDelta
  rw [hdelta]
  refine ⟨_, rfl, rfl, fun o => ?_, fun label count hmem => ?_, ?_⟩
  · have hnone : ((if delta.reset then [PollEvent.reset] else []).map
        (PollEvent.forwarded o)).sum = 0 := by
      split <;> rfl
    rw [List.map_append, List.sum_append, hnone, Nat.zero_add, forwarded_entries, hget]
    rfl
  · rcases List.mem_append.mp hmem with hmem | hmem
    · split at hmem
      · cases List.mem_singleton.mp hmem
      · cases hmem
    · obtain ⟨c, hc, heq⟩ := List.mem_map.mp hmem
      cases heq
      exact of_decide_eq_true (List.mem_filter.mp hc).2
  · have hsink : PollEvent.reset ∉ delta.entries.map fun (label, count) =>
        PollEvent.sink label count := by
      intro hmem
      obtain ⟨c, -, heq⟩ := List.mem_map.mp hmem
      cases heq
    rw [List.mem_append, or_iff_left hsink]
    constructor
    · intro hmem
      split at hmem
      next h => exact ⟨current, rfl, hreset.mp h⟩
      next => cases hmem
    · rintro ⟨current', heq, hfell⟩
      cases heq
      rw [if_pos (hreset.mpr hfell)]
      exact List.mem_singleton_self _

/-- A read that failed forwards nothing. -/
theorem polled_failed (base : XdpStats) (error : Error) {events : List PollEvent}
    (hevents : events = [] ∨ ∃ level, events = [.skipped level error]) :
    Polled base (.error error, events) base := by
  have hreset : ¬ ∃ current, (.error error : Snapshot) = .ok current ∧
      ∃ o, current.get o < base.get o := by
    rintro ⟨current, heq, -⟩
    cases heq
  rcases hevents with rfl | ⟨level, rfl⟩
  · exact ⟨rfl, fun _ => rfl, nofun, iff_of_false List.not_mem_nil hreset⟩
  · refine ⟨rfl, fun _ => rfl, fun label count hmem => ?_, iff_of_false (fun hmem => ?_) hreset⟩
    · cases List.mem_singleton.mp hmem
    · cases List.mem_singleton.mp hmem

namespace Poller

theorem poll_polled (p : Poller) (read : Snapshot) :
    ∃ events p', p.poll read = .ok (events, p') ∧ Polled p.previous (read, events) p'.previous := by
  cases read with
  | ok current =>
    obtain ⟨events, hemit, hpolled⟩ := emitDelta_polled p.previous current
    rw [poll, hemit]
    exact ⟨events, _, rfl, hpolled⟩
  | error error =>
    rw [poll]
    split
    · exact ⟨_, _, rfl, polled_failed _ error (.inr ⟨.debug, rfl⟩)⟩
    · exact ⟨_, _, rfl, polled_failed _ error (.inr ⟨.warn, rfl⟩)⟩

theorem finish_polled (p : Poller) (read : Snapshot) :
    ∃ events p', p.finish read = .ok (events, p') ∧
      Polled p.previous (read, events) p'.previous := by
  cases read with
  | ok current =>
    obtain ⟨events, hemit, hpolled⟩ := emitDelta_polled p.previous current
    rw [finish, hemit]
    exact ⟨events, _, rfl, hpolled⟩
  | error error => exact ⟨[], p, rfl, polled_failed _ error (.inl rfl)⟩

/-- The loop handles its reads in order, each against what the one before it left. -/
theorem loop_run (p : Poller) (reads : List Snapshot) :
    ∃ steps p', p.loop reads = .ok (steps.map Prod.snd, p') ∧ steps.map Prod.fst = reads ∧
      Run Polled p.previous steps p'.previous := by
  induction reads generalizing p with
  | nil => exact ⟨[], p, rfl, rfl, .nil⟩
  | cons read reads ih =>
    obtain ⟨events, p₁, hpoll, hpolled⟩ := poll_polled p read
    obtain ⟨steps, p₂, hloop, hreads, hrun⟩ := ih p₁
    refine ⟨(read, events) :: steps, p₂, ?_, ?_, (Run.snoc .nil hpolled).trans hrun⟩
    · unfold loop
      rw [hpoll]
      show (p₁.loop reads >>= _) = _
      rw [hloop]
      rfl
    · rw [List.map_cons, hreads]

end Poller

theorem spawnStatsPoller_run (reads : List Snapshot) (final : Option Snapshot) :
    ∃ steps base, spawnStatsPoller reads final = .ok (steps.map Prod.snd) ∧
      steps.map Prod.fst = reads ++ final.toList ∧ Run Polled XdpStats.zero steps base := by
  obtain ⟨steps, p, hloop, hreads, hrun⟩ := Poller.loop_run {} reads
  unfold spawnStatsPoller
  rw [hloop]
  cases final with
  | none => exact ⟨steps, _, rfl, by rw [hreads, Option.toList_none, List.append_nil], hrun⟩
  | some read =>
    obtain ⟨events, p', hfinish, hpolled⟩ := Poller.finish_polled p read
    refine ⟨steps ++ [(read, events)], _, ?_, ?_, hrun.snoc hpolled⟩
    · show (p.finish read >>= _) = _
      rw [hfinish, List.map_append]
      rfl
    · rw [List.map_append, hreads]
      rfl

/-! ## All reads -/

section
variable {base base' : XdpStats} {steps : List (Snapshot × List PollEvent)}

theorem readings_append (o : Outcome) (reads reads' : List Snapshot) :
    readings o (reads ++ reads') = readings o reads ++ readings o reads' := by
  unfold readings snapshots
  rw [List.filterMap_append, List.map_append]

/-- The baseline is the last snapshot. -/
theorem run_baseline (h : Run Polled base steps base') :
    base' = (snapshots (steps.map Prod.fst)).getLastD base := by
  induction h with
  | nil => rfl
  | @snoc steps s s' step _ hs ih =>
    rw [hs.baseline, ih]
    unfold snapshots
    rw [List.map_append, List.filterMap_append]
    rcases step with ⟨_ | current, events⟩
    · rw [List.map_singleton, List.filterMap_cons_none rfl, List.filterMap_nil, List.append_nil]
      rfl
    · exact List.getLastD_concat.symm

/-- A read is handled against the last snapshot before it. -/
theorem run_polled (h : Run Polled base steps base') {i : Nat}
    {step : Snapshot × List PollEvent} (hstep : steps[i]? = some step) :
    ∃ next, Polled ((snapshots ((steps.map Prod.fst).take i)).getLastD base) step next := by
  obtain ⟨hi, hget⟩ := List.getElem?_eq_some_iff.mp hstep
  have hsplit : steps.take i ++ step :: steps.drop (i + 1) = steps := by
    rw [← hget, ← List.drop_eq_getElem_cons hi, List.take_append_drop]
  rw [← hsplit] at h
  obtain ⟨before, next, hbefore, hpolled⟩ := h.split
  rw [run_baseline hbefore, List.map_take] at hpolled
  exact ⟨next, hpolled⟩

theorem run_forwarded (h : Run Polled base steps base') (o : Outcome) :
    forwarded o (steps.map Prod.snd) =
      Restart.total (base.get o).toNat (readings o (steps.map Prod.fst)) := by
  induction h with
  | nil => rfl
  | @snoc steps s s' step hrun hs ih =>
    have hlast : (readings o (steps.map Prod.fst)).getLastD (base.get o).toNat =
        (s.get o).toNat := by
      rw [run_baseline hrun]
      exact List.getLastD_map (f := fun s : XdpStats => (s.get o).toNat)
    rw [List.map_append, List.map_append, readings_append, Restart.total_append, hlast, ← ih,
      List.map_singleton, List.map_singleton, ← hs.forwards o]
    unfold forwarded
    rw [List.flatten_append, List.map_append, List.sum_append, List.flatten_singleton]

end

theorem spawnStatsPoller_forwarded {reads : List Snapshot} {final : Option Snapshot}
    {steps : List (List PollEvent)} (h : spawnStatsPoller reads final = .ok steps) (o : Outcome) :
    forwarded o steps = Restart.segmentsTotal (readings o (reads ++ final.toList)) := by
  obtain ⟨run, base, hok, hreads, hrun⟩ := spawnStatsPoller_run reads final
  rw [h] at hok
  cases hok
  have hzero : (XdpStats.zero.get o).toNat = 0 := by cases o <;> rfl
  rw [run_forwarded hrun, hreads, hzero, Restart.total_zero]

/-- What a poller that was started on zeros makes of its reads: every count is forwarded once, none
of them zero, and a counter that fell is reported where it fell. -/
structure CountsOnce (reads : List Snapshot) (steps : List (List PollEvent)) : Prop where
  length : steps.length = reads.length
  total : ∀ o, forwarded o steps = Restart.segmentsTotal (readings o reads)
  monotone : ∀ o, (readings o reads).IsChain (· ≤ ·) →
    forwarded o steps = (readings o reads).getLastD 0
  nonzero : ∀ events ∈ steps, ∀ label count, .sink label count ∈ events → 0 < count
  reset : ∀ i read events, reads[i]? = some read → steps[i]? = some events →
    (.reset ∈ events ↔
      ∃ current, read = .ok current ∧ ∃ o, current.get o < (baseline (reads.take i)).get o)

/-- **No count is lost, doubled or negative.** Whatever reads fail in between, the poller comes
through, and what it forwards for one counter depends on the readings of that counter alone. -/
theorem spawnStatsPoller_countsOnce (reads : List Snapshot) (final : Option Snapshot) :
    ∃ steps, spawnStatsPoller reads final = .ok steps ∧
      CountsOnce (reads ++ final.toList) steps ∧
      ∀ o reads' final' steps', spawnStatsPoller reads' final' = .ok steps' →
        readings o (reads' ++ final'.toList) = readings o (reads ++ final.toList) →
        forwarded o steps' = forwarded o steps := by
  obtain ⟨run, base, hok, hreads, hrun⟩ := spawnStatsPoller_run reads final
  refine ⟨_, hok, ⟨?_, spawnStatsPoller_forwarded hok, ?_, ?_, ?_⟩, ?_⟩
  · rw [← hreads, List.length_map, List.length_map]
  · intro o hchain
    rw [spawnStatsPoller_forwarded hok, Restart.segmentsTotal_of_isChain hchain]
  · intro events hevents label count hmem
    obtain ⟨step, hstep, rfl⟩ := List.mem_map.mp hevents
    obtain ⟨i, hi⟩ := List.mem_iff_getElem?.mp hstep
    obtain ⟨_, hpolled⟩ := run_polled hrun hi
    exact hpolled.nonzero label count hmem
  · intro i read events hread hevents
    rw [← hreads, List.getElem?_map] at hread
    obtain ⟨step, hstep, rfl⟩ := Option.map_eq_some_iff.mp hread
    obtain rfl : step.2 = events := by
      rw [List.getElem?_map, hstep] at hevents
      exact Option.some.inj hevents
    obtain ⟨_, hpolled⟩ := run_polled hrun hstep
    rw [hpolled.reset, hreads]
    rfl
  · intro o reads' final' steps' hok' hsame
    rw [spawnStatsPoller_forwarded hok, spawnStatsPoller_forwarded hok', hsame]

end DoggyDns
