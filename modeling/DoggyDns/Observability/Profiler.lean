import DoggyDns.Lib.Monitor
import DoggyDns.Observability.Profiles

/-!
# Stopping the profiler

The profiling task of `profiles/mod.rs`: every interval it has a blocking
thread collect a profile and posts the result. `ProfileStopper` is a flag
behind a mutex with a condition variable; `Observability::shutdown` raises it
and aborts the task. The collecting thread waits for the end of its window, or
for the flag, in a loop that a wakeup without a reason does not fool.
-/

namespace DoggyDns

namespace Profiling

open Lts Monitor
open Profiles (CollectedProfile)

/-- What `collect_profile` came to; `stopped` is its `Ok(None)`. -/
inductive Collected where
  | profile (profile : CollectedProfile) (deadline : Nat)
  | stopped
  | failed

/-- The points of the collecting thread, of the thread that owns the `Observability`, and their
variables. -/
inductive Point where
  | idle
  | build
  | waitStart
  | locking (deadline : Nat)
  | check (deadline : Nat)
  | clock (deadline : Nat)
  | sleep (deadline remaining : Nat)
  | leave (deadline : Nat) (stopped : Bool)
  | report (deadline : Nat)
  | finished (collected : Collected)
  | quiet
  | stopLock
  | stopSet
  | stopNotify
  | stopUnlock
  | aborting (stopped : Bool)

/-- What a step outside of the monitor comes to. -/
inductive Outside where
  | ok
  | fail
  | report (profile : CollectedProfile)

def afterBuild : Outside → Point
  | .fail => .finished .failed
  | _ => .waitStart

def afterReport (deadline : Nat) : Outside → Point
  | .report profile => .finished (.profile profile deadline)
  | _ => .finished .failed

/-- `shutdown` has a stopper to call, or it has none. -/
def afterTake : Outside → Point
  | .ok => .stopLock
  | _ => .aborting false

/-- `collect_profile` with `ProfileStopper::wait`, and `shutdown` with `ProfileStopper::stop`. -/
def code (duration : Nat) : Point → Op Bool Outside Point
  | .idle => .act fun _ => .build
  | .build => .act afterBuild
  | .waitStart => .now fun now => .locking (now + duration)
  | .locking deadline => .lock (.check deadline)
  | .check deadline => .get fun stopped => if stopped then .leave deadline true else .clock deadline
  | .clock deadline => .now fun now =>
    let remaining := deadline - now
    if remaining = 0 then .leave deadline false else .sleep deadline remaining
  | .sleep deadline _ => .wait (.check deadline)
  | .leave deadline stopped => .unlock (if stopped then .finished .stopped else .report deadline)
  | .report deadline => .act (afterReport deadline)
  | .finished _ => .act fun _ => .idle
  | .quiet => .act afterTake
  | .stopLock => .lock .stopSet
  | .stopSet => .set (fun _ => true) .stopNotify
  | .stopNotify => .notifyAll .stopUnlock
  | .stopUnlock => .unlock (.aborting true)
  | .aborting _ => .act fun _ => .quiet

/-! ## The outline -/

def Point.held : Point → Bool
  | .check _ => true
  | .clock _ => true
  | .sleep _ _ => true
  | .leave _ _ => true
  | .stopSet => true
  | .stopNotify => true
  | .stopUnlock => true
  | _ => false

def Point.owes : Point → Bool
  | .stopNotify => true
  | _ => false

/-- What a point knows of the flag and of the time. -/
def Point.Known (stopped : Bool) (now : Nat) : Point → Prop
  | .clock _ => stopped = false
  | .sleep _ _ => stopped = false
  | .leave _ true => stopped = true
  | .leave deadline false => deadline ≤ now
  | .report deadline => deadline ≤ now
  | .finished (.profile _ deadline) => deadline ≤ now
  | .finished .stopped => stopped = true
  | .stopNotify => stopped = true
  | .stopUnlock => stopped = true
  | .aborting true => stopped = true
  | _ => True

/-- The flag is never lowered. -/
def Raises (stopped stopped' : Bool) : Prop := stopped = true → stopped' = true

def outline (duration : Nat) : Outline (code duration) (· = true) Raises where
  held := Point.held
  owes := Point.owes
  known pc stopped now := pc.Known stopped now
  refl _ := id
  trans h h' hs := h' (h hs)
  later {pc s t t'} h hle := by
    cases pc with
    | leave deadline stopped =>
      cases stopped with
      | true => exact h
      | false => exact Nat.le_trans h hle
    | report => exact Nat.le_trans h hle
    | finished c =>
      cases c with
      | profile => exact Nat.le_trans h hle
      | stopped | failed => exact h
    | aborting stopped => cases stopped <;> exact h
    | _ => exact h
  stable {pc s t s'} hheld h hG := by
    cases pc with
    | check | clock | sleep | leave | stopSet | stopNotify | stopUnlock => cases hheld
    | finished c =>
      cases c with
      | profile | failed => exact h
      | stopped => exact hG h
    | aborting stopped =>
      cases stopped with
      | true => exact hG h
      | false => trivial
    | _ => exact h
  valid pc := by
    cases pc with
    | idle | finished => exact fun _ _ _ _ => ⟨rfl, id, trivial⟩
    | build => exact fun r _ _ _ => by cases r <;> exact ⟨rfl, id, trivial⟩
    | waitStart => exact fun _ _ _ => ⟨rfl, id, trivial⟩
    | locking => exact ⟨rfl, rfl, fun _ _ _ => trivial⟩
    | check deadline =>
      refine ⟨rfl, fun stopped _ _ => ?_⟩
      cases stopped with
      | true => exact ⟨rfl, id, rfl⟩
      | false => exact ⟨rfl, id, rfl⟩
    | clock deadline =>
      intro stopped now h
      by_cases hover : deadline - now = 0
      · simp only [if_pos hover]
        exact ⟨rfl, id, Nat.le_of_sub_eq_zero hover⟩
      · simp only [if_neg hover]
        exact ⟨rfl, id, h⟩
    | sleep deadline remaining =>
      refine ⟨rfl, rfl, rfl, fun stopped _ h => ⟨?_, fun _ _ _ _ => trivial⟩⟩
      rw [show stopped = false from h]
      exact Bool.false_ne_true
    | leave deadline stopped =>
      cases stopped with
      | true => exact ⟨rfl, rfl, rfl, fun _ _ h => h⟩
      | false => exact ⟨rfl, rfl, rfl, fun _ _ h => h⟩
    | report => exact fun r _ _ h => by cases r <;> exact ⟨rfl, id, by first | exact h | trivial⟩
    | quiet => exact fun r _ _ _ => by cases r <;> exact ⟨rfl, id, trivial⟩
    | stopLock => exact ⟨rfl, rfl, fun _ _ _ => trivial⟩
    | stopSet =>
      exact ⟨rfl, rfl, fun h => (nomatch h), fun _ _ _ => ⟨fun _ => rfl, fun _ => .inr rfl, rfl⟩⟩
    | stopNotify => exact ⟨rfl, fun _ _ h => h⟩
    | stopUnlock => exact ⟨rfl, rfl, rfl, fun _ _ h => h⟩
    | aborting => exact fun _ _ _ _ => ⟨rfl, id, trivial⟩

/-! ## The task and its shutdown -/

inductive Who where
  | main
  | profiler
  deriving DecidableEq

/-- Where the spawned task waits. -/
inductive Task where
  | unspawned
  | ticking
  | collecting
  | sending
  | ended
  deriving DecidableEq

/-- A profile that was posted: when its wait began, the end of its window, and when it came. -/
structure Export where
  profile : CollectedProfile
  start : Nat
  deadline : Nat
  time : Nat

structure State where
  monitor : Monitor.State Bool Point Who
  task : Task
  /-- `profile_exporter` is there. -/
  exporter : Bool
  /-- `profile_stopper` is there. -/
  stopper : Bool
  /-- `profile_task` is there. -/
  handle : Bool
  aborted : Bool
  exports : List Export
  /-- When the collecting thread last stood at the beginning of a wait. -/
  waitFrom : Nat

def Who.start : Who → Point
  | .main => .quiet
  | .profiler => .idle

def boot (exporter : Bool) : State where
  monitor :=
    { data := false, holder := none, time := 0, threads := fun who => ⟨who.start, .running⟩ }
  task := .unspawned
  exporter := exporter
  stopper := false
  handle := false
  aborted := false
  exports := []
  waitFrom := 0

/-- At the call of `ProfileStopper::wait`. -/
def Point.begins : Point → Bool
  | .waitStart => true
  | _ => false

/-- The threads have made a step. -/
def State.moved (s : State) (monitor : Monitor.State Bool Point Who) : State :=
  { s with
    monitor
    waitFrom := if (s.monitor.threads .profiler).pc.begins then s.monitor.time else s.waitFrom }

def State.at (s : State) (who : Who) (pc : Point) : Prop :=
  s.monitor.threads who = ⟨pc, .running⟩

def State.spawnProfiles (s : State) : State :=
  if s.handle || !s.exporter then s
  else { s with exporter := false, handle := true, stopper := true, task := .ticking }

/-- What the task does with the result it was waiting for. -/
def State.receive (s : State) : Collected → State
  | .profile profile deadline =>
    if profile.samples.isEmpty then { s with task := .ticking }
    else { s with
      task := .sending
      exports := s.exports ++ [⟨profile, s.waitFrom, deadline, s.monitor.time⟩] }
  | .stopped => { s with task := .ended }
  | .failed => { s with task := .ticking }

inductive Move where
  | thread (m : Monitor.Move Outside Who)
  | spawnProfiles
  | shutdown
  | abort
  | tick
  | collected
  | sent
  | cancel
  | discard

/-- The steps outside that the collecting thread makes on its own. -/
def State.Alone (s : State) (m : Monitor.Move Outside Who) : Prop :=
  ∀ who r, m = .act who r →
    (s.monitor.threads who).pc = .build ∨ ∃ deadline, (s.monitor.threads who).pc = .report deadline

variable (duration : Nat)

inductive Step : State → Move → State → Prop where
  | thread {s : State} {m : Monitor.Move Outside Who} {monitor : Monitor.State Bool Point Who} :
    s.Alone m → Monitor.Step (code duration) s.monitor m monitor →
    Step s (.thread m) (s.moved monitor)
  | spawnProfiles {s : State} : s.at .main .quiet → Step s .spawnProfiles s.spawnProfiles
  | shutdown {s : State} {monitor : Monitor.State Bool Point Who} : s.at .main .quiet →
    Monitor.Step (code duration) s.monitor (.act .main (if s.stopper then .ok else .fail)) monitor →
    Step s .shutdown { s with monitor, stopper := false }
  | abort {s : State} {stopped : Bool} {monitor : Monitor.State Bool Point Who} :
    s.at .main (.aborting stopped) →
    Monitor.Step (code duration) s.monitor (.act .main .ok) monitor →
    Step s .abort { s with monitor, handle := false, aborted := s.aborted || s.handle }
  | tick {s : State} {monitor : Monitor.State Bool Point Who} : s.task = .ticking →
    s.at .profiler .idle → Monitor.Step (code duration) s.monitor (.act .profiler .ok) monitor →
    Step s .tick { s with monitor, task := .collecting }
  | collected {s : State} {collected : Collected} {monitor : Monitor.State Bool Point Who} :
    s.task = .collecting → s.at .profiler (.finished collected) →
    Monitor.Step (code duration) s.monitor (.act .profiler .ok) monitor →
    Step s .collected (State.receive { s with monitor } collected)
  -- whatever the reply was
  | sent {s : State} : s.task = .sending → Step s .sent { s with task := .ticking }
  | cancel {s : State} : s.aborted = true → s.task ≠ .unspawned →
    Step s .cancel { s with task := .ended }
  -- the thread outlives its task
  | discard {s : State} {collected : Collected} {monitor : Monitor.State Bool Point Who} :
    s.task = .ended → s.at .profiler (.finished collected) →
    Monitor.Step (code duration) s.monitor (.act .profiler .ok) monitor →
    Step s .discard { s with monitor }

/-! ## What every run keeps -/

/-- Whose point it is. -/
def Point.who : Point → Who
  | .quiet => .main
  | .stopLock => .main
  | .stopSet => .main
  | .stopNotify => .main
  | .stopUnlock => .main
  | .aborting _ => .main
  | _ => .profiler

/-- What `shutdown` has taken so far. -/
def State.Taken (s : State) : Point → Prop
  | .quiet => s.handle = s.stopper
  | .aborting false => s.stopper = false ∧ s.handle = false
  | _ => s.stopper = false

/-- The end of the window a point is about. -/
def Point.window : Point → Option Nat
  | .locking deadline => some deadline
  | .check deadline => some deadline
  | .clock deadline => some deadline
  | .sleep deadline _ => some deadline
  | .leave deadline _ => some deadline
  | .report deadline => some deadline
  | .finished (.profile _ deadline) => some deadline
  | _ => none

structure Inv (s : State) : Prop where
  sound : (outline duration).Sound s.monitor
  who : ∀ who, (s.monitor.threads who).pc.who = who
  taken : s.Taken (s.monitor.threads .main).pc
  fresh : s.exporter = true → s.task = .unspawned
  idle : s.task ≠ .collecting → s.task ≠ .ended → (s.monitor.threads .profiler).pc = .idle
  stopped : s.task = .ended ∨ s.aborted = true → s.monitor.data = true
  window : ∀ deadline, (s.monitor.threads .profiler).pc.window = some deadline →
    deadline = s.waitFrom + duration
  exports : ∀ e ∈ s.exports, e.deadline = e.start + duration ∧ e.deadline ≤ e.time

variable {duration} {s s' : State}

/-- A thread keeps to its own code. -/
theorem Point.who_leads {m : Monitor.Move Outside Who} {j : Who} {pc pc' : Point} {stopped : Bool}
    {now : Nat} (h : (code duration pc).Leads m j stopped now pc') : pc'.who = pc.who := by
  cases pc with
  | build | report | quiet =>
    obtain ⟨r, -, rfl⟩ := h
    cases r <;> rfl
  | idle | finished | aborting =>
    obtain ⟨r, -, rfl⟩ := h
    rfl
  | check =>
    obtain rfl := h
    cases stopped <;> rfl
  | clock deadline =>
    obtain rfl := h
    dsimp only
    split <;> rfl
  | leave _ stopped =>
    obtain rfl := h
    cases stopped <;> rfl
  | waitStart | locking | sleep | stopLock | stopSet | stopNotify | stopUnlock =>
    obtain rfl := h
    rfl

theorem Inv.data_mono {m : Monitor.Move Outside Who} {monitor : Monitor.State Bool Point Who}
    (h : Inv duration s) (hs : Monitor.Step (code duration) s.monitor m monitor)
    (hdata : s.monitor.data = true) : monitor.data = true :=
  h.sound.keeps hs hdata

theorem Inv.who_step {m : Monitor.Move Outside Who} {monitor : Monitor.State Bool Point Who}
    (h : Inv duration s) (hs : Monitor.Step (code duration) s.monitor m monitor) (who : Who) :
    (monitor.threads who).pc.who = who := by
  rcases hs.pc who with heq | hleads
  · rw [heq]
    exact h.who who
  · rw [Point.who_leads hleads]
    exact h.who who

/-- A point that only the task or the owner of the `Observability` leaves. -/
def Point.outer : Point → Bool
  | .idle => true
  | .finished _ => true
  | .quiet => true
  | .aborting _ => true
  | _ => false

theorem stays {m : Monitor.Move Outside Who} {monitor : Monitor.State Bool Point Who} {who : Who}
    (halone : s.Alone m) (hs : Monitor.Step (code duration) s.monitor m monitor)
    (houter : (s.monitor.threads who).pc.outer = true) :
    (monitor.threads who).pc = (s.monitor.threads who).pc := by
  rcases hs.pc who with heq | hleads
  · exact heq
  · cases hpc : (s.monitor.threads who).pc with
    | idle | finished | quiet | aborting =>
      rw [hpc] at hleads
      obtain ⟨r, rfl, -⟩ := hleads
      rcases halone who r rfl with hpc' | ⟨deadline, hpc'⟩ <;> cases hpc.symm.trans hpc'
    | _ =>
      rw [hpc] at houter
      cases houter

/-- While it stops the profiler, `shutdown` takes nothing else. -/
theorem State.Taken.leads {m : Monitor.Move Outside Who} {j : Who} {pc pc' : Point} {stopped : Bool}
    {now : Nat} (h : s.Taken pc) (hwho : pc.who = .main) (houter : pc.outer = false)
    (hleads : (code duration pc).Leads m j stopped now pc') : s.Taken pc' := by
  cases pc with
  | stopLock | stopSet | stopNotify | stopUnlock =>
    obtain rfl := hleads
    exact h
  | quiet | aborting | idle | finished => cases houter
  | _ => cases hwho

/-- A window is opened at the beginning of the wait, and keeps its end. -/
theorem Point.window_leads {m : Monitor.Move Outside Who} {j : Who} {pc pc' : Point}
    {stopped : Bool} {now waitFrom : Nat}
    (h : ∀ deadline, pc.window = some deadline → deadline = waitFrom + duration)
    (hleads : (code duration pc).Leads m j stopped now pc') (deadline : Nat)
    (hwindow : pc'.window = some deadline) :
    deadline = (if pc.begins then now else waitFrom) + duration := by
  cases pc with
  | waitStart =>
    obtain rfl := hleads
    exact (Option.some.inj hwindow).symm
  | build | quiet =>
    obtain ⟨r, -, rfl⟩ := hleads
    cases r <;> cases hwindow
  | idle | finished | aborting =>
    obtain ⟨r, -, rfl⟩ := hleads
    cases hwindow
  | report =>
    obtain ⟨r, -, rfl⟩ := hleads
    cases r with
    | report => exact h deadline hwindow
    | ok | fail => cases hwindow
  | check =>
    obtain rfl := hleads
    cases stopped <;> exact h deadline hwindow
  | clock d =>
    obtain rfl := hleads
    refine h deadline ?_
    dsimp only at hwindow
    split at hwindow <;> exact hwindow
  | leave _ stopped =>
    obtain rfl := hleads
    cases stopped with
    | true => cases hwindow
    | false => exact h deadline hwindow
  | locking | sleep =>
    obtain rfl := hleads
    exact h deadline hwindow
  | stopLock | stopSet | stopNotify | stopUnlock =>
    obtain rfl := hleads
    cases hwindow

theorem Inv.thread {m : Monitor.Move Outside Who} {monitor : Monitor.State Bool Point Who}
    (h : Inv duration s) (halone : s.Alone m)
    (hs : Monitor.Step (code duration) s.monitor m monitor) : Inv duration (s.moved monitor) where
  sound := h.sound.step hs
  who := h.who_step hs
  taken := by
    show s.Taken (monitor.threads .main).pc
    cases houter : (s.monitor.threads .main).pc.outer with
    | true =>
      rw [stays halone hs houter]
      exact h.taken
    | false =>
      rcases hs.pc .main with heq | hleads
      · rw [heq]
        exact h.taken
      · exact h.taken.leads (h.who .main) houter hleads
  fresh := h.fresh
  idle htask htask' := by
    have hidle := h.idle htask htask'
    rw [← hidle]
    exact stays halone hs (by rw [hidle]; rfl)
  stopped hdone := h.data_mono hs (h.stopped hdone)
  window deadline hwindow := by
    rcases hs.pc .profiler with heq | hleads
    · replace hwindow : (s.monitor.threads .profiler).pc.window = some deadline :=
        (congrArg Point.window heq).symm.trans hwindow
      have hbegins : (s.monitor.threads .profiler).pc.begins = false := by
        cases hpc : (s.monitor.threads .profiler).pc with
        | waitStart =>
          rw [hpc] at hwindow
          cases hwindow
        | _ => rfl
      show deadline = (if _ then _ else _) + duration
      rw [hbegins, if_neg Bool.false_ne_true]
      exact h.window deadline hwindow
    · exact Point.window_leads h.window hleads deadline hwindow
  exports := h.exports

/-- The points after a step outside. -/
theorem goto_pc {monitor : Monitor.State Bool Point Who} {who who' : Who} {pc : Point} :
    ((monitor.goto who pc .running).threads who').pc =
      if who' = who then pc else (monitor.threads who').pc := by
  by_cases heq : who' = who
  · subst heq
    rw [if_pos rfl]
    show (Function.update monitor.threads who' _ who').pc = pc
    rw [Function.update_self]
  · rw [if_neg heq]
    show (Function.update monitor.threads who _ who').pc = _
    rw [Function.update_of_ne heq]

/-- The collecting thread stays where it is in a step of the other one. -/
theorem Inv.window_main {monitor : Monitor.State Bool Point Who} {pc : Point}
    (h : Inv duration s) (hmonitor : monitor = s.monitor.goto .main pc .running) :
    ∀ deadline, (monitor.threads .profiler).pc.window = some deadline →
      deadline = s.waitFrom + duration := by
  rw [hmonitor, goto_pc, if_neg (by decide)]
  exact h.window

/-- A collection ends and the thread is free again. -/
theorem Inv.returned {collected : Collected} {monitor : Monitor.State Bool Point Who} {task : Task}
    {exports : List Export} (h : Inv duration s) (hat : s.at .profiler (.finished collected))
    (hs : Monitor.Step (code duration) s.monitor (.act .profiler .ok) monitor)
    (hspawned : s.task ≠ .unspawned) (hended : task = .ended → s.monitor.data = true)
    (hexports : ∀ e ∈ exports, e.deadline = e.start + duration ∧ e.deadline ≤ e.time) :
    Inv duration { s with monitor, task, exports } := by
  have hmonitor := hs.of_act hat rfl
  refine ⟨h.sound.step hs, h.who_step hs, ?_, fun hexporter => absurd (h.fresh hexporter) hspawned,
    fun _ _ => ?_, ?_, fun deadline hwindow => ?_, hexports⟩
  · show s.Taken (monitor.threads .main).pc
    rw [hmonitor, goto_pc, if_neg (by decide)]
    exact h.taken
  · show (monitor.threads .profiler).pc = .idle
    rw [hmonitor, goto_pc, if_pos rfl]
  · rintro (hended' | haborted)
    · exact h.data_mono hs (hended hended')
    · exact h.data_mono hs (h.stopped (.inr haborted))
  · replace hwindow : (monitor.threads .profiler).pc.window = some deadline := hwindow
    rw [hmonitor, goto_pc, if_pos rfl] at hwindow
    cases hwindow

theorem Inv.step {m : Move} (h : Inv duration s) (hs : Step duration s m s') :
    Inv duration s' := by
  cases hs with
  | thread halone hs => exact h.thread halone hs
  | spawnProfiles hquiet =>
    unfold State.spawnProfiles
    split
    · exact h
    next hspawn =>
      obtain ⟨-, hexporter⟩ : s.handle = false ∧ s.exporter = true := by simpa using hspawn
      have hfresh := h.fresh hexporter
      refine ⟨h.sound, h.who, ?_, fun h => (nomatch h), fun _ _ => ?_, ?_, h.window, h.exports⟩
      · show State.Taken _ (s.monitor.threads .main).pc
        rw [hquiet]
        rfl
      · exact h.idle (by rw [hfresh]; decide) (by rw [hfresh]; decide)
      · rintro (hended | haborted)
        · cases hended
        · exact h.stopped (.inr haborted)
  | @shutdown monitor hquiet hs =>
    have htaken := h.taken
    rw [hquiet] at htaken
    have hmonitor := hs.of_act hquiet rfl
    refine ⟨h.sound.step hs, h.who_step hs, ?_, h.fresh, fun ht ht' => ?_,
      fun hdone => h.data_mono hs (h.stopped hdone), h.window_main hmonitor, h.exports⟩
    · show State.Taken _ (monitor.threads .main).pc
      rw [hmonitor, goto_pc, if_pos rfl]
      cases hstopper : s.stopper with
      | true => exact rfl
      | false => exact ⟨rfl, htaken.trans hstopper⟩
    · show (monitor.threads .profiler).pc = .idle
      rw [hmonitor, goto_pc, if_neg (by decide)]
      exact h.idle ht ht'
  | @abort stopped monitor hat hs =>
    have htaken := h.taken
    rw [hat] at htaken
    have hmonitor := hs.of_act hat rfl
    refine ⟨h.sound.step hs, h.who_step hs, ?_, h.fresh, fun ht ht' => ?_, ?_,
      h.window_main hmonitor, h.exports⟩
    · show State.Taken _ (monitor.threads .main).pc
      rw [hmonitor, goto_pc, if_pos rfl]
      cases stopped with
      | true => exact (show s.stopper = false from htaken).symm
      | false => exact htaken.1.symm
    · show (monitor.threads .profiler).pc = .idle
      rw [hmonitor, goto_pc, if_neg (by decide)]
      exact h.idle ht ht'
    · intro hdone
      refine h.data_mono hs ?_
      rcases hdone with hended | haborted
      · exact h.stopped (.inl hended)
      · rcases (Bool.or_eq_true _ _).mp haborted with haborted | hhandle
        · exact h.stopped (.inr haborted)
        · cases stopped with
          | true => exact (h.sound.known_at hat).1
          | false => cases htaken.2.symm.trans hhandle
  | @tick monitor htask hidle hs =>
    have hmonitor := hs.of_act hidle rfl
    refine ⟨h.sound.step hs, h.who_step hs, ?_, fun hexporter => ?_, fun ht => absurd rfl ht,
      ?_, fun deadline hwindow => ?_, h.exports⟩
    · show s.Taken (monitor.threads .main).pc
      rw [hmonitor, goto_pc, if_neg (by decide)]
      exact h.taken
    · cases htask.symm.trans (h.fresh hexporter)
    · rintro (hended | haborted)
      · cases hended
      · exact h.data_mono hs (h.stopped (.inr haborted))
    · replace hwindow : (monitor.threads .profiler).pc.window = some deadline := hwindow
      rw [hmonitor, goto_pc, if_pos rfl] at hwindow
      cases hwindow
  | @collected collected monitor htask hat hs =>
    have hspawned : s.task ≠ .unspawned := by
      rw [htask]
      decide
    cases collected with
    | stopped => exact h.returned hat hs hspawned (fun _ => (h.sound.known_at hat).1) h.exports
    | failed => exact h.returned hat hs hspawned (fun h => (nomatch h)) h.exports
    | profile profile deadline =>
      simp only [State.receive]
      split
      · exact h.returned hat hs hspawned (fun h => (nomatch h)) h.exports
      · refine h.returned hat hs hspawned (fun h => (nomatch h)) fun e he => ?_
        rcases List.mem_append.mp he with he | he
        · exact h.exports e he
        · rw [List.mem_singleton.mp he]
          have hknown : deadline ≤ s.monitor.time := (h.sound.known_at hat).1
          refine ⟨h.window deadline ?_, ?_⟩
          · rw [hat]
            rfl
          · rwa [hs.of_act hat rfl]
  | sent htask =>
    refine ⟨h.sound, h.who, h.taken, fun hexporter => ?_, fun _ _ => ?_, ?_, h.window, h.exports⟩
    · cases htask.symm.trans (h.fresh hexporter)
    · exact h.idle (by rw [htask]; decide) (by rw [htask]; decide)
    · rintro (hended | haborted)
      · cases hended
      · exact h.stopped (.inr haborted)
  | cancel haborted htask =>
    exact ⟨h.sound, h.who, h.taken, fun hexporter => absurd (h.fresh hexporter) htask,
      fun _ hended => absurd rfl hended, fun _ => h.stopped (.inr haborted), h.window,
      h.exports⟩
  | @discard collected monitor htask hat hs =>
    have hspawned : s.task ≠ .unspawned := by
      rw [htask]
      decide
    exact h.returned hat hs hspawned (fun hended => h.stopped (.inl hended)) h.exports

theorem run_inv {exporter : Bool} {moves : List Move}
    (h : Run (Step duration) (boot exporter) moves s) : Inv duration s := by
  refine h.invariant ⟨⟨?_, ?_, ?_, ?_⟩, ?_, rfl, fun _ => rfl, fun _ _ => rfl, ?_,
    fun _ h => (nomatch h), ?_⟩ fun h hs => h.step hs
  · intro who hwho
    cases hwho
  · intro who _
    cases who with
    | main => exact ⟨trivial, fun h => (nomatch h)⟩
    | profiler => exact ⟨trivial, fun h => (nomatch h)⟩
  · exact fun who hne => absurd rfl hne
  · exact fun who hasleep => (nomatch hasleep)
  · intro who
    cases who <;> rfl
  · rintro (hended | haborted)
    · cases hended
    · cases haborted
  · exact fun e he => (nomatch he)

/-! ## After the stop -/

theorem Inv.known {who : Who} (h : Inv duration s)
    (hrunning : (s.monitor.threads who).status = .running) :
    (s.monitor.threads who).pc.Known s.monitor.data s.monitor.time :=
  (h.sound.running who hrunning).1

variable (duration) in
/-- Without any time passing, the collecting thread can come back empty-handed. -/
def Returns (s : State) : Prop :=
  ∃ moves s', Run (Step duration) s moves s' ∧ s'.monitor.time = s.monitor.time ∧
    s'.at .profiler (.finished .stopped)

theorem Returns.of_run {who : Who} {monitor : Monitor.State Bool Point Who}
    (hs : Monitor.Step (code duration) s.monitor (.run who) monitor)
    (htime : monitor.time = s.monitor.time) (h : Returns duration (s.moved monitor)) :
    Returns duration s := by
  obtain ⟨moves, s', hrun, htime', hat⟩ := h
  have hstep : Step duration s (.thread (.run who)) (s.moved monitor) :=
    .thread (fun _ _ h => (nomatch h)) hs
  exact ⟨_, s', (Run.snoc .nil hstep).trans hrun, htime'.trans htime, hat⟩

/-- A thread takes its next step. -/
theorem Step.run {who : Who} {monitor : Monitor.State Bool Point Who}
    (hs : Monitor.Step (code duration) s.monitor (.run who) monitor) :
    Step duration s (.thread (.run who)) (s.moved monitor) :=
  .thread (fun _ _ h => (nomatch h)) hs

end Profiling

end DoggyDns
