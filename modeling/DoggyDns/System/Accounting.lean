import DoggyDns.Ebpf.Reply
import DoggyDns.Lib.Collect
import DoggyDns.Xdp.Stats

/-!
# From the counters to the sink

Each CPU counts the frames it processes in its own slot, the reader copies the
slots one after the other while frames keep coming, and the poller forwards
what its snapshots show. A snapshot is no state the counters ever were in, but
no counter goes down, so what was forwarded is never more than what was
counted, and never less than what had been counted when the last read started.
-/

namespace DoggyDns

open Ebpf Lts

/-! ## Reading the map -/

/-- `a + b` of two `u64`; `none` is the overflow a checked build stops at. -/
def checkedAdd (a b : UInt64) : Option UInt64 :=
  if a.toNat + b.toNat < 2 ^ 64 then some (a + b) else none

def Ebpf.XdpStats.plus (total value : XdpStats) : Option XdpStats := do
  let hit ← checkedAdd total.hit value.hit
  let negativeHit ← checkedAdd total.negativeHit value.negativeHit
  let miss ← checkedAdd total.miss value.miss
  let expired ← checkedAdd total.expired value.expired
  let drop ← checkedAdd total.drop value.drop
  return ⟨hit, negativeHit, miss, expired, drop⟩

/-- `XdpStatsReader::snapshot`, from the slots it read. -/
def snapshot (values : List XdpStats) : Option XdpStats := values.foldlM XdpStats.plus XdpStats.zero

/-! ## The machine -/

/-- The program on its CPUs, and the task that reads their counters. -/
structure Metered (cpus : Nat) where
  slots : Fin cpus → Vector XdpStats 1
  /-- What the read under way has copied of each counter. -/
  reading : Option (Outcome → Fin cpus → Option UInt64)
  poller : Poller
  stopped : Bool

namespace Metered

inductive Move (cpus : Nat) where
  /-- A CPU processes a frame. -/
  | frame (cpu : Fin cpus) (outcome : Option Outcome)
  /-- The poller starts to read the map. -/
  | begin
  /-- The kernel copies a counter of a CPU. -/
  | copy (o : Outcome) (cpu : Fin cpus)
  /-- The poller handles what the read returned; `final` is the read after it was stopped. -/
  | polled (final : Bool) (read : Snapshot) (events : List PollEvent)

variable {cpus : Nat}

def handle (p : Poller) (final : Bool) (read : Snapshot) :
    Except Panic (List PollEvent × Poller) :=
  if final then p.finish read else p.poll read

/-- `values` is what the read has copied. -/
def Complete (s : Metered cpus) (values : Fin cpus → XdpStats) : Prop :=
  ∃ copied, s.reading = some copied ∧ ∀ o cpu, copied o cpu = some ((values cpu).get o)

/-- Frames come at any time, also while a slot is copied. -/
inductive Step : Metered cpus → Move cpus → Metered cpus → Prop
  | frame {s : Metered cpus} {cpu : Fin cpus} {env : XdpEnv UInt64} {f f' : Frame}
      {action : XdpAction} {outcome : Option Outcome}
      (hrun : dnsXdp env (s.slots cpu) f = .ok (action, counted (s.slots cpu) outcome, f')) :
      Step s (.frame cpu outcome)
        { s with slots := Function.update s.slots cpu (counted (s.slots cpu) outcome) }
  | begin {s : Metered cpus} (hrunning : s.stopped = false) (hidle : s.reading = none) :
      Step s .begin { s with reading := some fun _ _ => none }
  | copy {s : Metered cpus} {copied : Outcome → Fin cpus → Option UInt64} {o : Outcome}
      {cpu : Fin cpus} (hreading : s.reading = some copied) :
      Step s (.copy o cpu)
        { s with reading := some (Function.update copied o
            (Function.update (copied o) cpu (some ((slot (s.slots cpu)).get o)))) }
  | read {s : Metered cpus} {final : Bool} {values : Fin cpus → XdpStats} {current : XdpStats}
      {events : List PollEvent} {p : Poller} (hall : s.Complete values)
      (hsum : snapshot (List.ofFn values) = some current)
      (hpoll : handle s.poller final (.ok current) = .ok (events, p)) :
      Step s (.polled final (.ok current) events)
        { s with reading := none, poller := p, stopped := final }
  | failed {s : Metered cpus} {final : Bool} {error : Error} {events : List PollEvent}
      {p : Poller} (hreading : s.reading.isSome)
      (hpoll : handle s.poller final (.error error) = .ok (events, p)) :
      Step s (.polled final (.error error) events)
        { s with reading := none, poller := p, stopped := final }

/-- A loaded program starts on zeros, and so does the poller. -/
def init (cpus : Nat) : Metered cpus where
  slots := fun _ => Vector.replicate 1 XdpStats.zero
  reading := none
  poller := {}
  stopped := false

/-! ## What a run counts and forwards -/

def Move.ticks (o : Outcome) : Move cpus → Nat
  | .frame _ outcome => if outcome = some o then 1 else 0
  | _ => 0

/-- How many frames were counted as `o`. -/
def tally (o : Outcome) (moves : List (Move cpus)) : Nat := (moves.map (Move.ticks o)).sum

def Move.report : Move cpus → Option (List PollEvent)
  | .polled _ _ events => some events
  | _ => none

/-- What the poller did, read by read. -/
def reports (moves : List (Move cpus)) : List (List PollEvent) := moves.filterMap Move.report

/-- Counter `o` of a CPU. -/
def level (s : Metered cpus) (o : Outcome) (cpu : Fin cpus) : Nat :=
  ((slot (s.slots cpu)).get o).toNat

/-- The copied counters `o`. -/
def copies (s : Metered cpus) (o : Outcome) (cpu : Fin cpus) : Option Nat :=
  s.reading.bind fun copied => (copied o cpu).map UInt64.toNat

/-! ## The snapshot -/

theorem checkedAdd_of_lt {a b : UInt64} (h : a.toNat + b.toNat < 2 ^ 64) :
    checkedAdd a b = some (a + b) :=
  if_pos h

theorem toNat_add_of_lt {a b : UInt64} (h : a.toNat + b.toNat < 2 ^ 64) :
    (a + b).toNat = a.toNat + b.toNat := by
  rw [UInt64.toNat_add, Nat.mod_eq_of_lt h]

theorem plus_of_lt {total value : XdpStats}
    (h : ∀ o, (total.get o).toNat + (value.get o).toNat < 2 ^ 64) :
    ∃ sum, total.plus value = some sum ∧
      ∀ o, (sum.get o).toNat = (total.get o).toNat + (value.get o).toNat := by
  unfold Ebpf.XdpStats.plus
  rw [checkedAdd_of_lt (a := total.hit) (b := value.hit) (h .hit),
    checkedAdd_of_lt (a := total.negativeHit) (b := value.negativeHit) (h .negativeHit),
    checkedAdd_of_lt (a := total.miss) (b := value.miss) (h .miss),
    checkedAdd_of_lt (a := total.expired) (b := value.expired) (h .expired),
    checkedAdd_of_lt (a := total.drop) (b := value.drop) (h .drop)]
  refine ⟨_, rfl, fun o => ?_⟩
  cases o with
  | hit => exact toNat_add_of_lt (h .hit)
  | negativeHit => exact toNat_add_of_lt (h .negativeHit)
  | miss => exact toNat_add_of_lt (h .miss)
  | expired => exact toNat_add_of_lt (h .expired)
  | drop => exact toNat_add_of_lt (h .drop)

theorem foldlM_plus {total : XdpStats} (values : List XdpStats)
    (h : ∀ o, (total.get o).toNat + (values.map fun v => (v.get o).toNat).sum < 2 ^ 64) :
    ∃ sum, values.foldlM XdpStats.plus total = some sum ∧ ∀ o, (sum.get o).toNat =
      (total.get o).toNat + (values.map fun v => (v.get o).toNat).sum := by
  induction values generalizing total with
  | nil => exact ⟨total, rfl, fun _ => rfl⟩
  | cons value values ih =>
    simp only [List.map_cons, List.sum_cons, ← Nat.add_assoc] at h ⊢
    obtain ⟨next, hplus, hnext⟩ := plus_of_lt fun o => (Nat.le_add_right _ _).trans_lt (h o)
    obtain ⟨sum, hfold, hsum⟩ := ih fun o => by rw [hnext]; exact h o
    refine ⟨sum, ?_, fun o => by rw [hsum, hnext]⟩
    rw [List.foldlM_cons, hplus]
    exact hfold

/-- Slots whose counters add up without an overflow. -/
theorem snapshot_ofFn {values : Fin cpus → XdpStats}
    (h : ∀ o, ∑ cpu, ((values cpu).get o).toNat < 2 ^ 64) :
    ∃ current, snapshot (List.ofFn values) = some current ∧
      ∀ o, (current.get o).toNat = ∑ cpu, ((values cpu).get o).toNat := by
  have hsum : ∀ o, (XdpStats.zero.get o).toNat +
      ((List.ofFn values).map fun v => (v.get o).toNat).sum =
        ∑ cpu, ((values cpu).get o).toNat := by
    intro o
    have hzero : (XdpStats.zero.get o).toNat = 0 := by cases o <;> rfl
    rw [hzero, Nat.zero_add, List.map_ofFn, List.sum_ofFn]
    rfl
  obtain ⟨current, hfold, hcurrent⟩ := foldlM_plus (List.ofFn values) fun o => hsum o ▸ h o
  exact ⟨current, hfold, fun o => (hcurrent o).trans (hsum o)⟩

theorem handle_polled (p : Poller) (final : Bool) (read : Snapshot) :
    ∃ events p', handle p final read = .ok (events, p') ∧
      Polled p.previous (read, events) p'.previous := by
  unfold handle
  split
  · exact p.finish_polled read
  · exact p.poll_polled read

/-! ## Counters that do not wrap -/

section
variable {s s' : Metered cpus} {m : Move cpus} {moves : List (Move cpus)} {o : Outcome}

theorem tally_snoc (o : Outcome) (moves : List (Move cpus)) (m : Move cpus) :
    tally o (moves ++ [m]) = tally o moves + m.ticks o := by
  unfold tally
  rw [List.map_append, List.sum_append, List.map_singleton, List.sum_singleton]

theorem tally_append (o : Outcome) (moves moves' : List (Move cpus)) :
    tally o (moves ++ moves') = tally o moves + tally o moves' := by
  unfold tally
  rw [List.map_append, List.sum_append]

theorem reports_snoc (moves : List (Move cpus)) (m : Move cpus) :
    reports (moves ++ [m]) = reports moves ++ m.report.toList := by
  unfold reports
  rw [List.filterMap_append]
  cases m <;> rfl

/-- What a move adds to counter `o` of a CPU. -/
def Move.adds (o : Outcome) (m : Move cpus) (cpu : Fin cpus) : Nat :=
  match m with
  | .frame cpu' _ => if cpu = cpu' then m.ticks o else 0
  | _ => 0

theorem sum_adds (s : Metered cpus) (o : Outcome) (m : Move cpus) :
    ∑ cpu, (s.level o cpu + m.adds o cpu) = ∑ cpu, s.level o cpu + m.ticks o := by
  cases m with
  | frame cpu outcome => exact Collect.sum_add_single (s.level o) cpu _
  | begin | copy | polled => rfl

theorem toNat_counted (stats : Vector XdpStats 1) (outcome : Option Outcome) (o : Outcome)
    (h : ((slot stats).get o).toNat + (if outcome = some o then 1 else 0) < 2 ^ 64) :
    ((slot (counted stats outcome)).get o).toNat =
      ((slot stats).get o).toNat + if outcome = some o then 1 else 0 := by
  cases outcome with
  | none => rfl
  | some o' =>
    rw [counted, incremented_record stats o' o]
    by_cases ho : o = o'
    · subst ho
      rw [if_pos rfl] at h
      rw [if_pos rfl, if_pos rfl, toNat_add_of_lt h]
      rfl
    · rw [if_neg ho, if_neg fun heq => ho (Option.some.inj heq).symm]
      rfl

/-- A step of a machine none of whose counters wraps. -/
structure Exact (s : Metered cpus) (m : Move cpus) (s' : Metered cpus) : Prop where
  step : Step s m s'
  levels : ∀ o cpu, s'.level o cpu = s.level o cpu + m.adds o cpu

theorem Step.exact (h : Step s m s')
    (hfit : ∀ o, ∑ cpu, s.level o cpu + m.ticks o < 2 ^ 64) : Exact s m s' := by
  refine ⟨h, fun o cpu => ?_⟩
  cases h with
  | begin | copy | read | failed => rfl
  | @frame cpu' env f f' action outcome hrun =>
    by_cases hcpu : cpu = cpu'
    · subst hcpu
      have hle : s.level o cpu ≤ ∑ cpu, s.level o cpu :=
        Finset.single_le_sum (fun _ _ => Nat.zero_le _) (Finset.mem_univ cpu)
      have hroom : s.level o cpu + (if outcome = some o then 1 else 0) < 2 ^ 64 :=
        (Nat.add_le_add_right hle _).trans_lt (hfit o)
      have hadds : (Move.frame cpu outcome).adds o cpu = if outcome = some o then 1 else 0 :=
        if_pos rfl
      dsimp only [level]
      rw [hadds, Function.update_self]
      exact toNat_counted (s.slots cpu) outcome o hroom
    · have hadds : (Move.frame cpu' outcome).adds o cpu = 0 := if_neg hcpu
      dsimp only [level]
      rw [hadds, Function.update_of_ne hcpu, Nat.add_zero]

theorem Exact.rise (h : Exact s m s') (o : Outcome) : s.level o ≤ s'.level o := fun cpu => by
  rw [h.levels]
  exact Nat.le_add_right _ _

theorem level_init (o : Outcome) (cpu : Fin cpus) : (init cpus).level o cpu = 0 := by
  cases o <;> rfl

theorem run_total (h : Run Exact (init cpus) moves s) (o : Outcome) :
    ∑ cpu, s.level o cpu = tally o moves := by
  induction h with
  | nil => exact Finset.sum_eq_zero fun cpu _ => level_init o cpu
  | @snoc moves s s' m _ hs ih =>
    rw [tally_snoc, ← ih, ← sum_adds]
    exact Finset.sum_congr rfl fun cpu _ => hs.levels o cpu

/-- As long as no total passes 64 bits, the counters are the frames counted. -/
theorem run_exact (h : Run Step (init cpus) moves s) (hfit : ∀ o, tally o moves < 2 ^ 64) :
    Run Exact (init cpus) moves s := by
  induction h with
  | nil => exact .nil
  | @snoc moves s s' m _ hs ih =>
    simp only [tally_snoc] at hfit
    have hrun := ih fun o => (Nat.le_add_right _ _).trans_lt (hfit o)
    exact hrun.snoc (hs.exact fun o => by rw [run_total hrun]; exact hfit o)

/-! ## Reads while frames come -/

/-- The read under way copies counters that have risen from `start`. -/
def Collects (start : Fin cpus → Nat) (s : Metered cpus) (o : Outcome) : Prop :=
  Collect.Between start (s.level o) (s.copies o)

section
variable {copied : Outcome → Fin cpus → Option UInt64} {o' : Outcome}

theorem copies_copy (hreading : s.reading = some copied) (cpu : Fin cpus) (value : UInt64) :
    copies { s with reading := some (Function.update copied o
      (Function.update (copied o) cpu (some value))) } o =
        Function.update (s.copies o) cpu (some value.toNat) := by
  funext cpu'
  unfold copies
  rw [hreading]
  simp only [Option.bind_some, Function.update_self]
  by_cases hcpu : cpu' = cpu
  · subst hcpu
    rw [Function.update_self, Function.update_self]
    rfl
  · rw [Function.update_of_ne hcpu, Function.update_of_ne hcpu]

theorem copies_copy_of_ne (hreading : s.reading = some copied) (ho : o ≠ o')
    (values : Fin cpus → Option UInt64) :
    copies { s with reading := some (Function.update copied o' values) } o = s.copies o := by
  funext cpu
  unfold copies
  rw [hreading]
  simp only [Option.bind_some, Function.update_of_ne ho]

end

theorem Exact.collects {start : Fin cpus → Nat} (h : Exact s m s') (hc : Collects start s o) :
    Collects start s' o := by
  have hrisen : Collect.Between start (s'.level o) (s.copies o) := hc.rise (h.rise o)
  cases h.step with
  | frame => exact hrisen
  | begin | read | failed => exact .begin hrisen.risen
  | @copy copied o' cpu hreading =>
    by_cases ho : o = o'
    · subst ho
      rw [Collects, copies_copy hreading]
      exact hrisen.copy cpu
    · rw [Collects, copies_copy_of_ne hreading ho]
      exact hrisen

/-- What a complete read adds up to. -/
theorem Collects.complete {start : Fin cpus → Nat} {values : Fin cpus → XdpStats}
    (h : Collects start s o) (hall : s.Complete values) :
    ∑ cpu, start cpu ≤ ∑ cpu, ((values cpu).get o).toNat ∧
      ∑ cpu, ((values cpu).get o).toNat ≤ ∑ cpu, s.level o cpu := by
  obtain ⟨copied, hreading, hcopied⟩ := hall
  refine h.sum fun cpu => ?_
  unfold copies
  rw [hreading, Option.bind_some, hcopied]
  rfl

/-! ## What was forwarded -/

/-- The baseline of the poller is what it forwarded, and is the sum of counters that have only
risen since. -/
structure Accounted (moves : List (Move cpus)) (s : Metered cpus) : Prop where
  baseline : ∀ o, ∃ start : Fin cpus → Nat, Collects start s o ∧
    ∑ cpu, start cpu = (s.poller.previous.get o).toNat
  forwarded : ∀ o, forwarded o (reports moves) = (s.poller.previous.get o).toNat
  quiet : ∀ events ∈ reports moves, .reset ∉ events

theorem Accounted.init : Accounted [] (init cpus) := by
  refine ⟨fun o => ⟨fun _ => 0, .begin fun _ => Nat.zero_le _, ?_⟩, fun o => ?_,
    List.forall_mem_nil _⟩
  · rw [Finset.sum_const_zero]
    cases o <;> rfl
  · cases o <;> rfl

theorem forwarded_snoc (o : Outcome) (steps : List (List PollEvent)) (events : List PollEvent) :
    DoggyDns.forwarded o (steps ++ [events]) =
      DoggyDns.forwarded o steps + (events.map (PollEvent.forwarded o)).sum := by
  unfold DoggyDns.forwarded
  rw [List.flatten_append, List.map_append, List.sum_append, List.flatten_singleton]

/-- A read that is compared with the baseline. -/
theorem Accounted.polled {read : Snapshot} {events : List PollEvent} {p : Poller}
    (hi : Accounted moves s) (final : Bool)
    (hpolled : Polled s.poller.previous (read, events) p.previous)
    (hrisen : ∀ current, read = .ok current → ∀ o,
      (s.poller.previous.get o).toNat ≤ (current.get o).toNat) :
    (∀ o, DoggyDns.forwarded o (reports (moves ++ [.polled final read events])) =
      (p.previous.get o).toNat) ∧
    ∀ events' ∈ reports (moves ++ [.polled final read events]), .reset ∉ events' := by
  rw [reports_snoc]
  constructor
  · intro o
    rw [Move.report, Option.toList_some, forwarded_snoc, hi.forwarded, hpolled.forwards,
      hpolled.baseline]
    cases read with
    | error error => rfl
    | ok current =>
      have hle := hrisen current rfl o
      show _ + Restart.total _ [(current.get o).toNat] = (current.get o).toNat
      simp only [Restart.total, Restart.increase, if_pos hle]
      omega
  · intro events' hmem
    rcases List.mem_append.mp hmem with hmem | hmem
    · exact hi.quiet events' hmem
    · cases List.mem_singleton.mp hmem
      rw [hpolled.reset]
      rintro ⟨current, hread, o, hlt⟩
      exact absurd (UInt64.lt_iff_toNat_lt.mp hlt) (Nat.not_lt.mpr (hrisen current hread o))

section
variable {values : Fin cpus → XdpStats} {current : XdpStats}

theorem Complete.le_level (hall : s.Complete values) (hi : Accounted moves s) (o : Outcome) :
    (fun cpu => ((values cpu).get o).toNat) ≤ s.level o := by
  obtain ⟨start, hc, -⟩ := hi.baseline o
  obtain ⟨copied, hreading, hcopied⟩ := hall
  intro cpu
  refine (hc.copies cpu _ ?_).2
  rw [copies, hreading, Option.bind_some, hcopied]
  rfl

theorem Complete.sum_lt (hall : s.Complete values) (hi : Accounted moves s)
    (hfit : ∀ o, ∑ cpu, s.level o cpu < 2 ^ 64) (o : Outcome) :
    ∑ cpu, ((values cpu).get o).toNat < 2 ^ 64 :=
  (Finset.sum_le_sum fun cpu _ => hall.le_level hi o cpu).trans_lt (hfit o)

/-- A complete read sums up without an overflow, to no less than the baseline. -/
theorem Complete.snapshot (hall : s.Complete values) (hi : Accounted moves s)
    (hfit : ∀ o, ∑ cpu, s.level o cpu < 2 ^ 64)
    (hsnapshot : snapshot (List.ofFn values) = some current) (o : Outcome) :
    (s.poller.previous.get o).toNat ≤ (current.get o).toNat ∧
      (current.get o).toNat = ∑ cpu, ((values cpu).get o).toNat := by
  obtain ⟨current', hcurrent, hsum⟩ := snapshot_ofFn (hall.sum_lt hi hfit)
  cases hsnapshot.symm.trans hcurrent
  obtain ⟨start, hc, hstart⟩ := hi.baseline o
  rw [hsum, ← hstart]
  exact ⟨(hc.complete hall).1, rfl⟩

end

theorem Accounted.step (hi : Accounted moves s) (h : Exact s m s')
    (hfit : ∀ o, ∑ cpu, s.level o cpu < 2 ^ 64) : Accounted (moves ++ [m]) s' := by
  have hkept : s'.poller = s.poller → m.report = none → Accounted (moves ++ [m]) s' := by
    intro hpoller hreport
    have hreports : reports (moves ++ [m]) = reports moves := by
      rw [reports_snoc, hreport]
      exact List.append_nil _
    refine ⟨fun o => ?_, fun o => ?_, ?_⟩
    · obtain ⟨start, hc, hsum⟩ := hi.baseline o
      exact ⟨start, h.collects hc, hpoller ▸ hsum⟩
    · rw [hreports, hpoller, hi.forwarded]
    · rw [hreports]
      exact hi.quiet
  cases h.step with
  | frame | begin | copy => exact hkept rfl rfl
  | @failed final error events p hreading hpoll =>
    obtain ⟨events', p', hpoll', hpolled⟩ := handle_polled s.poller final (.error error)
    cases hpoll.symm.trans hpoll'
    obtain ⟨hforwarded, hquiet⟩ := hi.polled final hpolled fun _ heq => nomatch heq
    refine ⟨fun o => ?_, hforwarded, hquiet⟩
    obtain ⟨start, hc, hsum⟩ := hi.baseline o
    have hsame : p.previous = s.poller.previous := hpolled.baseline
    exact ⟨start, h.collects hc, by rw [hsum, hsame]⟩
  | @read final values current events p hall hsnapshot hpoll =>
    obtain ⟨events', p', hpoll', hpolled⟩ := handle_polled s.poller final (.ok current)
    cases hpoll.symm.trans hpoll'
    have hcurrent := hall.snapshot hi hfit hsnapshot
    obtain ⟨hforwarded, hquiet⟩ := hi.polled final hpolled fun current' heq o => by
      cases heq
      exact (hcurrent o).1
    refine ⟨fun o => ⟨_, .begin (hall.le_level hi o), ?_⟩, hforwarded, hquiet⟩
    have hnow : p.previous = current := hpolled.baseline
    rw [← (hcurrent o).2, hnow]

theorem run_accounted (h : Run Exact (Metered.init cpus) moves s)
    (hfit : ∀ o, tally o moves < 2 ^ 64) : Accounted moves s := by
  induction h with
  | nil => exact .init
  | @snoc moves s s' m hrun hs ih =>
    have hbefore : ∀ o, tally o moves < 2 ^ 64 := fun o =>
      (Nat.le_add_right _ _).trans_lt (tally_snoc o moves m ▸ hfit o)
    exact (ih hbefore).step hs fun o => run_total hrun o ▸ hbefore o

/-- A read that starts behind `pre` brings at least what was counted in `pre`. -/
theorem run_read {pre post : List (Move cpus)} {final : Bool} {current : XdpStats}
    {events : List PollEvent}
    (h : Run Exact (Metered.init cpus)
      (pre ++ .begin :: (post ++ [.polled final (.ok current) events])) s)
    (hfit : ∀ o, tally o (pre ++ .begin :: post) < 2 ^ 64) (o : Outcome) :
    tally o pre ≤ (s.poller.previous.get o).toNat := by
  rw [← List.cons_append, ← List.append_assoc] at h
  obtain ⟨s₂, h₂, hlast⟩ := h.of_append
  obtain ⟨s₁, h₁, hpost⟩ := h₂.of_append
  obtain ⟨_, hbegin, -⟩ := Run.of_append (show Run Exact s₁ ([.begin] ++ post) s₂ from hpost)
  have hstart : Collects (s₁.level o) s₁ o := by
    cases hbegin.step_of_singleton.step with
    | begin _ hidle =>
      have hnone : s₁.copies o = fun _ => none := by
        funext cpu
        rw [copies, hidle]
        rfl
      rw [Collects, hnone]
      exact .begin le_rfl
  have hcollects : Collects (s₁.level o) s₂ o :=
    hpost.invariant hstart fun hc hs => hs.collects hc
  cases hlast.step_of_singleton.step with
  | @read _ values _ _ p hall hsnapshot hpoll =>
    have hfit' : ∀ o, ∑ cpu, s₂.level o cpu < 2 ^ 64 := fun o => run_total h₂ o ▸ hfit o
    obtain ⟨events', p', hpoll', hpolled⟩ := handle_polled s₂.poller final (.ok current)
    cases hpoll.symm.trans hpoll'
    have hnow : p.previous = current := hpolled.baseline
    rw [hnow, (hall.snapshot (run_accounted h₂ hfit) hfit' hsnapshot o).2, ← run_total h₁]
    exact (hcollects.complete hall).1

end

/-- **Every frame is reported once.** However the reads fall among the frames, and whichever of
them fail, what the poller forwarded for a counter is at most the frames counted, and at least
those counted before its last successful read began; it never takes a counter for restarted, and
no read that comes through stops it. -/
theorem frames_accounted {cpus : Nat} {moves : List (Move cpus)} {s : Metered cpus}
    (h : Run Step (init cpus) moves s) (hfit : ∀ o, tally o moves < 2 ^ 64) :
    (∀ o, forwarded o (reports moves) ≤ tally o moves) ∧
    (∀ pre post final current events,
      moves = pre ++ .begin :: (post ++ [.polled final (.ok current) events]) →
      ∀ o, tally o pre ≤ forwarded o (reports moves)) ∧
    (∀ events ∈ reports moves, .reset ∉ events) ∧
    ∀ values final, s.Complete values →
      ∃ current events s', Step s (.polled final (.ok current) events) s' := by
  have hrun := run_exact h hfit
  have hi := run_accounted hrun hfit
  have hlevel : ∀ o, ∑ cpu, s.level o cpu < 2 ^ 64 := fun o => run_total hrun o ▸ hfit o
  refine ⟨fun o => ?_, ?_, hi.quiet, fun values final hall => ?_⟩
  · obtain ⟨start, hc, hsum⟩ := hi.baseline o
    rw [hi.forwarded, ← hsum, ← run_total hrun]
    exact Finset.sum_le_sum fun cpu _ => hc.risen cpu
  · rintro pre post final current events rfl o
    rw [hi.forwarded]
    refine run_read hrun (fun o => ?_) o
    have hle := hfit o
    rw [← List.cons_append, ← List.append_assoc, tally_append] at hle
    exact (Nat.le_add_right _ _).trans_lt hle
  · obtain ⟨current, hsnapshot, -⟩ := snapshot_ofFn (hall.sum_lt hi hlevel)
    obtain ⟨events, p, hpoll, -⟩ := handle_polled s.poller final (.ok current)
    exact ⟨current, events, _, .read hall hsnapshot hpoll⟩

/-- One CPU answers the sample query from the cache, and the poller is stopped. -/
def meteredMoves : List (Move 1) :=
  [.frame 0 (some .negativeHit), .begin, .copy .hit 0, .copy .negativeHit 0, .copy .miss 0,
    .copy .expired 0, .copy .drop 0,
    .polled true (.ok ⟨0, 1, 0, 0, 0⟩) [.sink "negative_hit" 1]]

theorem frames_accounted_sample :
    (∃ s, Run Step (init 1) meteredMoves s) ∧
      forwarded .negativeHit (reports meteredMoves) = tally .negativeHit meteredMoves := by
  have hx : dnsXdp (sampleEnv (.newNegative [] 5) 4) sampleStats sampleQuery =
      .ok (.tx, counted sampleStats (some .negativeHit), sampleReply) := by
    decide +kernel
  have hframe : Run Step (init 1) [.frame 0 (some .negativeHit)] _ := .snoc .nil (.frame hx)
  have hbegin : Run Step (init 1) [.frame 0 (some .negativeHit), .begin] _ :=
    hframe.snoc (.begin rfl rfl)
  have hcopied : Run Step (init 1) (meteredMoves.take 7) _ :=
    ((((hbegin.snoc (.copy rfl)).snoc (.copy rfl)).snoc (.copy rfl)).snoc (.copy rfl)).snoc
      (.copy rfl)
  obtain ⟨s, hread⟩ : ∃ s, Run Step (init 1) meteredMoves s := by
    refine ⟨_, hcopied.snoc (.read (show Complete _ fun _ : Fin 1 => ⟨0, 1, 0, 0, 0⟩ from
      ⟨_, rfl, fun o cpu => ?_⟩) rfl rfl)⟩
    obtain rfl : cpu = 0 := Subsingleton.elim _ _
    cases o <;> rfl
  have hfit : ∀ o, tally o meteredMoves < 2 ^ 64 := fun o => by cases o <;> decide
  obtain ⟨hle, hge, -, -⟩ := frames_accounted hread hfit
  exact ⟨⟨_, hread⟩, Nat.le_antisymm (hle .negativeHit)
    (hge [.frame 0 (some .negativeHit)] [.copy .hit 0, .copy .negativeHit 0, .copy .miss 0,
      .copy .expired 0, .copy .drop 0] true _ _ rfl .negativeHit)⟩

end Metered

end DoggyDns
