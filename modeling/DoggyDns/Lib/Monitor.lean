import DoggyDns.Lib.Run
import Mathlib.Logic.Function.Basic

/-!
# Monitors

Threads over data behind a mutex with one condition variable. A thread's code
is a map from its points to operations, so that a loop is a point that comes
back. Sleepers wake when they are told, when their time is up, or for no reason.

An `Outline` says what is known at each point: with the lock held of the data
as it is, without it only what the other threads keep. `Outline.Sound` follows
from it along every run, and with it that nobody sleeps through the condition
once the lock is free (`Sound.awake`).
-/

namespace Monitor

open Lts

variable {σ R PC ι : Type}

inductive Op (σ R PC : Type) where
  | lock (next : PC)
  | get (next : σ → PC)
  | set (f : σ → σ) (next : PC)
  | notifyAll (next : PC)
  /-- Release the lock, sleep, take the lock again. -/
  | wait (next : PC)
  | unlock (next : PC)
  | now (next : Nat → PC)
  /-- A step outside, with a result from there. -/
  | act (next : R → PC)

inductive Status where
  | running
  | asleep
  | waking
  deriving DecidableEq, Repr

structure Thread (PC : Type) where
  pc : PC
  status : Status

/-- Called by a `notify_all`. -/
def Thread.told (th : Thread PC) : Thread PC :=
  if th.status = .asleep then { th with status := .waking } else th

theorem Thread.told_running {th : Thread PC} :
    th.told.pc = th.pc ∧ th.told.status ≠ .asleep ∧
      (th.told.status = .running ↔ th.status = .running) := by
  obtain ⟨pc, status⟩ := th
  cases status with
  | running => exact ⟨rfl, Status.noConfusion, Iff.rfl⟩
  | asleep => exact ⟨rfl, Status.noConfusion, ⟨fun h => (nomatch h), fun h => (nomatch h)⟩⟩
  | waking => exact ⟨rfl, Status.noConfusion, Iff.rfl⟩

structure State (σ PC ι : Type) where
  data : σ
  holder : Option ι
  time : Nat
  threads : ι → Thread PC

inductive Move (R ι : Type) where
  | run (i : ι)
  | act (i : ι) (r : R)
  | wake (i : ι)
  | tick

variable [DecidableEq ι]

def State.goto (s : State σ PC ι) (i : ι) (pc : PC) (status : Status) : State σ PC ι :=
  { s with threads := Function.update s.threads i ⟨pc, status⟩ }

inductive Step (code : PC → Op σ R PC) : State σ PC ι → Move R ι → State σ PC ι → Prop where
  | lock {s : State σ PC ι} {i : ι} {pc next : PC} : s.threads i = ⟨pc, .running⟩ →
    code pc = .lock next → s.holder = none →
    Step code s (.run i) { s.goto i next .running with holder := some i }
  | get {s : State σ PC ι} {i : ι} {pc : PC} {next : σ → PC} : s.threads i = ⟨pc, .running⟩ →
    code pc = .get next → s.holder = some i →
    Step code s (.run i) (s.goto i (next s.data) .running)
  | set {s : State σ PC ι} {i : ι} {pc next : PC} {f : σ → σ} : s.threads i = ⟨pc, .running⟩ →
    code pc = .set f next → s.holder = some i →
    Step code s (.run i) { s.goto i next .running with data := f s.data }
  | notifyAll {s : State σ PC ι} {i : ι} {pc next : PC} : s.threads i = ⟨pc, .running⟩ →
    code pc = .notifyAll next →
    Step code s (.run i)
      { s with threads := fun j => (Function.update s.threads i ⟨next, .running⟩ j).told }
  | wait {s : State σ PC ι} {i : ι} {pc next : PC} : s.threads i = ⟨pc, .running⟩ →
    code pc = .wait next → s.holder = some i →
    Step code s (.run i) { s.goto i pc .asleep with holder := none }
  | wake {s : State σ PC ι} {i : ι} {pc : PC} : s.threads i = ⟨pc, .asleep⟩ →
    Step code s (.wake i) (s.goto i pc .waking)
  | relock {s : State σ PC ι} {i : ι} {pc next : PC} : s.threads i = ⟨pc, .waking⟩ →
    code pc = .wait next → s.holder = none →
    Step code s (.run i) { s.goto i next .running with holder := some i }
  | unlock {s : State σ PC ι} {i : ι} {pc next : PC} : s.threads i = ⟨pc, .running⟩ →
    code pc = .unlock next → s.holder = some i →
    Step code s (.run i) { s.goto i next .running with holder := none }
  | now {s : State σ PC ι} {i : ι} {pc : PC} {next : Nat → PC} : s.threads i = ⟨pc, .running⟩ →
    code pc = .now next → Step code s (.run i) (s.goto i (next s.time) .running)
  | act {s : State σ PC ι} {i : ι} {pc : PC} {next : R → PC} {r : R} :
    s.threads i = ⟨pc, .running⟩ → code pc = .act next →
    Step code s (.act i r) (s.goto i (next r) .running)
  | tick {s : State σ PC ι} : Step code s .tick { s with time := s.time + 1 }

/-- Where an operation leads thread `j`, in a move `m` with the data `s` at time `t`. -/
def Op.Leads (m : Move R ι) (j : ι) (s : σ) (t : Nat) (pc : PC) : Op σ R PC → Prop
  | lock next => pc = next
  | get next => pc = next s
  | set _ next => pc = next
  | notifyAll next => pc = next
  | wait next => pc = next
  | unlock next => pc = next
  | now next => pc = next t
  | act next => ∃ r, m = .act j r ∧ pc = next r

/-- A thread stays where it is, or goes where its operation leads it. -/
theorem Step.pc {code : PC → Op σ R PC} {s s' : State σ PC ι} {m : Move R ι}
    (h : Step code s m s') (j : ι) :
    (s'.threads j).pc = (s.threads j).pc ∨
      (code (s.threads j).pc).Leads m j s.data s.time (s'.threads j).pc := by
  have hgoto : ∀ {i pc status next}, s.threads i = ⟨pc, status⟩ →
      (code pc).Leads m i s.data s.time next →
      ∀ status', (Function.update s.threads i ⟨next, status'⟩ j).pc = (s.threads j).pc ∨
        (code (s.threads j).pc).Leads m j s.data s.time
          (Function.update s.threads i ⟨next, status'⟩ j).pc := by
    intro i pc status next hth hleads status'
    by_cases hji : j = i
    · subst hji
      rw [Function.update_self, hth]
      exact .inr hleads
    · rw [Function.update_of_ne hji]
      exact .inl rfl
  have hstay : ∀ {i pc status}, s.threads i = ⟨pc, status⟩ →
      ∀ status', (Function.update s.threads i ⟨pc, status'⟩ j).pc = (s.threads j).pc := by
    intro i pc status hth status'
    by_cases hji : j = i
    · subst hji
      rw [Function.update_self, hth]
    · rw [Function.update_of_ne hji]
  cases h with
  | lock hth hcode | get hth hcode | set hth hcode | relock hth hcode | unlock hth hcode
  | now hth hcode =>
    exact hgoto hth (by rw [hcode]; rfl) _
  | notifyAll hth hcode =>
    rw [(Thread.told_running).1]
    exact hgoto hth (by rw [hcode]; rfl) _
  | wait hth | wake hth => exact .inl (hstay hth _)
  | act hth hcode => exact hgoto hth (by rw [hcode]; exact ⟨_, rfl, rfl⟩) _
  | tick => exact .inl rfl

/-- A step outside has one effect. -/
theorem Step.of_act {code : PC → Op σ R PC} {s s' : State σ PC ι} {i : ι} {r : R} {pc : PC}
    {next : R → PC} (h : Step code s (.act i r) s') (hth : s.threads i = ⟨pc, .running⟩)
    (hcode : code pc = .act next) : s' = s.goto i (next r) .running := by
  cases h with
  | act hth' hcode' =>
    cases hth.symm.trans hth'
    cases hcode.symm.trans hcode'
    rfl

/-! ## Proof outlines -/

/-- What is known at the points of a code, for the condition `B` that sleepers wait for; `G` is
what every thread keeps of the data. -/
structure Outline (code : PC → Op σ R PC) (B : σ → Prop) (G : σ → σ → Prop) where
  /-- The lock is held here. -/
  held : PC → Bool
  /-- The condition may hold here without the sleepers having been told. -/
  owes : PC → Bool
  known : PC → σ → Nat → Prop
  refl : ∀ s, G s s
  trans : ∀ {s s' s''}, G s s' → G s' s'' → G s s''
  later : ∀ {pc s t t'}, known pc s t → t ≤ t' → known pc s t'
  stable : ∀ {pc s t s'}, held pc = false → known pc s t → G s s' → known pc s' t
  valid : ∀ pc, match code pc with
    | .lock next => held pc = false ∧ held next = true ∧
      ∀ s t, known pc s t → known next s t
    | .get next => held pc = true ∧ ∀ s t, known pc s t →
      held (next s) = true ∧ (owes pc → owes (next s)) ∧ known (next s) s t
    | .set f next => held pc = true ∧ held next = true ∧ (owes pc → owes next) ∧
      ∀ s t, known pc s t → G s (f s) ∧ (B (f s) → B s ∨ owes next) ∧ known next (f s) t
    | .notifyAll next => held next = held pc ∧ ∀ s t, known pc s t → known next s t
    | .wait next => held pc = true ∧ held next = true ∧
      (owes pc = false) ∧ ∀ s t, known pc s t → ¬ B s ∧ ∀ s' t', G s s' → t ≤ t' → known next s' t'
    | .unlock next => held pc = true ∧ held next = false ∧ owes pc = false ∧
      ∀ s t, known pc s t → known next s t
    | .now next => ∀ s t, known pc s t →
      held (next t) = held pc ∧ (owes pc → owes (next t)) ∧ known (next t) s t
    | .act next => ∀ r s t, known pc s t →
      held (next r) = held pc ∧ (owes pc → owes (next r)) ∧ known (next r) s t

variable {code : PC → Op σ R PC} {B : σ → Prop} {G : σ → σ → Prop} (O : Outline code B G)

structure Outline.Sound (s : State σ PC ι) : Prop where
  holder : ∀ i, s.holder = some i →
    (s.threads i).status = .running ∧ O.held (s.threads i).pc = true
  running : ∀ i, (s.threads i).status = .running → O.known (s.threads i).pc s.data s.time ∧
    (O.held (s.threads i).pc = true → s.holder = some i)
  sleeping : ∀ i, (s.threads i).status ≠ .running → ∃ next, code (s.threads i).pc = .wait next ∧
    ∀ s' t', G s.data s' → s.time ≤ t' → O.known next s' t'
  told : ∀ i, (s.threads i).status = .asleep → B s.data →
    ∃ j, s.holder = some j ∧ O.owes (s.threads j).pc = true

variable {O} {s s' : State σ PC ι}

/-- Thread `i` moves and the others stay where they are. -/
theorem Outline.Sound.moved (h : O.Sound s) {i : ι} {th : Thread PC} {data : σ}
    {holder : Option ι} (hG : G s.data data) (hdata : data = s.data ∨ s.holder = some i)
    (hothers : ∀ j, j ≠ i → (s.holder = some j ↔ holder = some j))
    (hrunning : th.status = .running →
      O.known th.pc data s.time ∧ (O.held th.pc = true → holder = some i))
    (hholder : holder = some i → th.status = .running ∧ O.held th.pc = true)
    (hsleeping : th.status ≠ .running → ∃ next, code th.pc = .wait next ∧
      ∀ s' t', G data s' → s.time ≤ t' → O.known next s' t')
    (htold : ∀ j, (Function.update s.threads i th j).status = .asleep → B data →
      ∃ k, holder = some k ∧ O.owes (Function.update s.threads i th k).pc = true) :
    O.Sound ⟨data, holder, s.time, Function.update s.threads i th⟩ where
  holder j hj := by
    dsimp only
    by_cases hji : j = i
    · subst hji
      rw [Function.update_self]
      exact hholder hj
    · rw [Function.update_of_ne hji]
      exact h.holder j ((hothers j hji).mpr hj)
  running j hj := by
    dsimp only at hj ⊢
    by_cases hji : j = i
    · subst hji
      rw [Function.update_self] at hj ⊢
      exact hrunning hj
    · rw [Function.update_of_ne hji] at hj ⊢
      obtain ⟨hknown, hheld⟩ := h.running j hj
      refine ⟨?_, fun hh => (hothers j hji).mp (hheld hh)⟩
      rcases hdata with rfl | hi
      · exact hknown
      · -- only the holder changes the data, and that is not `j`
        cases hj' : O.held (s.threads j).pc with
        | false => exact O.stable hj' hknown hG
        | true => exact absurd (Option.some.inj ((hheld hj').symm.trans hi)) hji
  sleeping j hj := by
    dsimp only at hj ⊢
    by_cases hji : j = i
    · subst hji
      rw [Function.update_self] at hj ⊢
      exact hsleeping hj
    · rw [Function.update_of_ne hji] at hj ⊢
      obtain ⟨next, hcode, hknown⟩ := h.sleeping j hj
      exact ⟨next, hcode, fun s' t' hs' => hknown s' t' (O.trans hG hs')⟩
  told := htold

/-- Where no sleeper is added and what was owed still is, everybody who sleeps was told. -/
theorem Outline.Sound.told_of_owes (h : O.Sound s) {i : ι} {pc : PC}
    (howes : s.holder = some i → O.owes (s.threads i).pc = true → O.owes pc = true) (j : ι)
    (hj : (Function.update s.threads i ⟨pc, .running⟩ j).status = .asleep) (hB : B s.data) :
    ∃ k, s.holder = some k ∧ O.owes (Function.update s.threads i ⟨pc, .running⟩ k).pc = true := by
  by_cases hji : j = i
  · subst hji
    rw [Function.update_self] at hj
    cases hj
  · rw [Function.update_of_ne hji] at hj
    obtain ⟨k, hk, hkowes⟩ := h.told j hj hB
    refine ⟨k, hk, ?_⟩
    by_cases hki : k = i
    · subst hki
      rw [Function.update_self]
      exact howes hk hkowes
    · rwa [Function.update_of_ne hki]

omit [DecidableEq ι] in
theorem Outline.Sound.known_at (h : O.Sound s) {i : ι} {pc : PC}
    (hth : s.threads i = ⟨pc, .running⟩) :
    O.known pc s.data s.time ∧ (O.held pc = true ↔ s.holder = some i) := by
  obtain ⟨hknown, hheld⟩ := h.running i (by rw [hth])
  rw [hth] at hknown hheld
  refine ⟨hknown, hheld, fun hi => ?_⟩
  have hi := (h.holder i hi).2
  rwa [hth] at hi

/-- A step that leaves the lock and the data alone. -/
theorem Outline.Sound.goto (h : O.Sound s) {i : ι} {pc next : PC}
    (hth : s.threads i = ⟨pc, .running⟩) (hheld : O.held next = O.held pc)
    (howes : O.owes pc → O.owes next) (hknown : O.known next s.data s.time) :
    O.Sound (s.goto i next .running) := by
  obtain ⟨-, hiff⟩ := h.known_at hth
  rw [← hheld] at hiff
  refine h.moved (O.refl _) (.inl rfl) (fun _ _ => Iff.rfl) (fun _ => ⟨hknown, hiff.mp⟩)
    (fun hi => ⟨rfl, hiff.mpr hi⟩) (fun hne => absurd rfl hne) (h.told_of_owes fun _ => ?_)
  rw [hth]
  exact howes

/-- A thread takes the free lock. -/
theorem Outline.Sound.taken (h : O.Sound s) {i : ι} {next : PC} (hfree : s.holder = none)
    (hheld : O.held next = true) (hknown : O.known next s.data s.time) :
    O.Sound { s.goto i next .running with holder := some i } := by
  refine h.moved (O.refl _) (.inl rfl) (fun j hj => ?_) (fun _ => ⟨hknown, fun _ => rfl⟩)
    (fun _ => ⟨rfl, hheld⟩) (fun hne => absurd rfl hne) fun j hj hB => ?_
  · rw [hfree]
    exact ⟨fun h => (nomatch h), fun h => absurd (Option.some.inj h).symm hj⟩
  · obtain ⟨k, hk, -⟩ := h.told_of_owes (fun hi => by cases hfree.symm.trans hi) j hj hB
    cases hfree.symm.trans hk

/-- The holder, who owes nothing, lets go. -/
theorem Outline.Sound.released (h : O.Sound s) {i : ι} {pc : PC} {th : Thread PC}
    (hth : s.threads i = ⟨pc, .running⟩) (hi : s.holder = some i) (howes : O.owes pc = false)
    (hrunning : th.status = .running →
      O.known th.pc s.data s.time ∧ O.held th.pc = false)
    (hsleeping : th.status ≠ .running → ¬ B s.data ∧ ∃ next, code th.pc = .wait next ∧
      ∀ s' t', G s.data s' → s.time ≤ t' → O.known next s' t') :
    O.Sound ⟨s.data, none, s.time, Function.update s.threads i th⟩ := by
  refine h.moved (O.refl _) (.inl rfl) (fun j hj => ?_) (fun hr => ?_) (fun h => (nomatch h))
    (fun hne => (hsleeping hne).2) fun j hj hB => ?_
  · rw [hi]
    exact ⟨fun h => absurd (Option.some.inj h).symm hj, fun h => (nomatch h)⟩
  · obtain ⟨hknown, hheld⟩ := hrunning hr
    exact ⟨hknown, fun h => by cases hheld.symm.trans h⟩
  · by_cases hji : j = i
    · subst hji
      rw [Function.update_self] at hj
      have hne : th.status ≠ .running := by
        rw [hj]
        exact Status.noConfusion
      exact absurd hB (hsleeping hne).1
    · rw [Function.update_of_ne hji] at hj
      obtain ⟨k, hk, hkowes⟩ := h.told j hj hB
      cases hi.symm.trans hk
      rw [hth] at hkowes
      cases howes.symm.trans hkowes

omit [DecidableEq ι] in
/-- Everybody who slept is told. -/
theorem Outline.Sound.allTold (h : O.Sound s) :
    O.Sound { s with threads := fun j => (s.threads j).told } where
  holder i hi := by
    obtain ⟨hpc, -, hrunning⟩ := (s.threads i).told_running
    dsimp only
    rw [hpc, hrunning]
    exact h.holder i hi
  running i hi := by
    obtain ⟨hpc, -, hrunning⟩ := (s.threads i).told_running
    dsimp only at hi ⊢
    rw [hpc]
    exact h.running i (hrunning.mp hi)
  sleeping i hi := by
    obtain ⟨hpc, -, hrunning⟩ := (s.threads i).told_running
    dsimp only at hi ⊢
    rw [hpc]
    exact h.sleeping i fun hr => hi (hrunning.mpr hr)
  told i hi := absurd hi (s.threads i).told_running.2.1

theorem Outline.Sound.step {m : Move R ι} (h : O.Sound s) (hs : Step code s m s') : O.Sound s' := by
  cases hs with
  | @lock i pc next hth hcode hfree =>
    have hvalid := O.valid pc
    rw [hcode] at hvalid
    exact h.taken hfree hvalid.2.1 (hvalid.2.2 _ _ (h.known_at hth).1)
  | @get i pc next hth hcode hi =>
    have hvalid := O.valid pc
    rw [hcode] at hvalid
    obtain ⟨hheld, hnext⟩ := hvalid
    obtain ⟨hheld', howes, hknown⟩ := hnext _ _ (h.known_at hth).1
    exact h.goto hth (hheld'.trans hheld.symm) howes hknown
  | @set i pc next f hth hcode hi =>
    have hvalid := O.valid pc
    rw [hcode] at hvalid
    obtain ⟨-, hheld, howes, hnext⟩ := hvalid
    obtain ⟨hG, hB, hknown⟩ := hnext _ _ (h.known_at hth).1
    refine h.moved hG (.inr hi) (fun _ _ => Iff.rfl) (fun _ => ⟨hknown, fun _ => hi⟩)
      (fun _ => ⟨rfl, hheld⟩) (fun hne => absurd rfl hne) fun j hj hB' => ?_
    rcases hB hB' with hold | hnew
    · refine h.told_of_owes (fun _ => ?_) j hj hold
      rw [hth]
      exact howes
    · refine ⟨i, hi, ?_⟩
      rwa [Function.update_self]
  | @notifyAll i pc next hth hcode =>
    have hvalid := O.valid pc
    rw [hcode] at hvalid
    obtain ⟨hheld, hknown⟩ := hvalid
    obtain ⟨hat, hiff⟩ := h.known_at hth
    rw [← hheld] at hiff
    have hthreads : (fun j => (Function.update s.threads i ⟨next, .running⟩ j).told) =
        Function.update (fun j => (s.threads j).told) i ⟨next, .running⟩ := by
      funext j
      by_cases hji : j = i
      · subst hji
        rw [Function.update_self, Function.update_self]
        rfl
      · rw [Function.update_of_ne hji, Function.update_of_ne hji]
    rw [hthreads]
    refine h.allTold.moved (O.refl _) (.inl rfl) (fun _ _ => Iff.rfl)
      (fun _ => ⟨hknown _ _ hat, hiff.mp⟩) (fun hi => ⟨rfl, hiff.mpr hi⟩)
      (fun hne => absurd rfl hne) fun j hj _ => ?_
    rw [← hthreads] at hj
    exact absurd hj (Function.update s.threads i ⟨next, .running⟩ j).told_running.2.1
  | @wait i pc next hth hcode hi =>
    have hvalid := O.valid pc
    rw [hcode] at hvalid
    obtain ⟨-, -, howes, hnext⟩ := hvalid
    obtain ⟨hB, hknown⟩ := hnext _ _ (h.known_at hth).1
    exact h.released hth hi howes (fun h => (nomatch h)) fun _ => ⟨hB, next, hcode, hknown⟩
  | @wake i pc hth =>
    have hsleeps : (s.threads i).status ≠ .running := by
      rw [hth]
      exact Status.noConfusion
    have hnot : s.holder ≠ some i := fun hi => hsleeps (h.holder i hi).1
    obtain ⟨next, hcode, hknown⟩ := h.sleeping i hsleeps
    rw [hth] at hcode
    refine h.moved (O.refl _) (.inl rfl) (fun _ _ => Iff.rfl) (fun h => (nomatch h))
      (fun hi => absurd hi hnot) (fun _ => ⟨next, hcode, hknown⟩) fun j hj hB => ?_
    by_cases hji : j = i
    · subst hji
      rw [Function.update_self] at hj
      cases hj
    · rw [Function.update_of_ne hji] at hj
      obtain ⟨k, hk, howes⟩ := h.told j hj hB
      have hki : k ≠ i := by
        rintro rfl
        exact hnot hk
      exact ⟨k, hk, by rwa [Function.update_of_ne hki]⟩
  | @relock i pc next hth hcode hfree =>
    have hvalid := O.valid pc
    rw [hcode] at hvalid
    obtain ⟨next', hcode', hknown⟩ := h.sleeping i (by rw [hth]; exact Status.noConfusion)
    rw [hth, hcode] at hcode'
    cases hcode'
    exact h.taken hfree hvalid.2.1 (hknown _ _ (O.refl _) (Nat.le_refl _))
  | @unlock i pc next hth hcode hi =>
    have hvalid := O.valid pc
    rw [hcode] at hvalid
    obtain ⟨-, hheld, howes, hknown⟩ := hvalid
    exact h.released hth hi howes (fun _ => ⟨hknown _ _ (h.known_at hth).1, hheld⟩)
      fun hne => absurd rfl hne
  | @now i pc next hth hcode =>
    have hvalid := O.valid pc
    rw [hcode] at hvalid
    obtain ⟨hheld, howes, hknown⟩ := hvalid _ _ (h.known_at hth).1
    exact h.goto hth hheld howes hknown
  | @act i pc next r hth hcode =>
    have hvalid := O.valid pc
    rw [hcode] at hvalid
    obtain ⟨hheld, howes, hknown⟩ := hvalid r _ _ (h.known_at hth).1
    exact h.goto hth hheld howes hknown
  | tick =>
    refine ⟨h.holder, fun i hi => ?_, fun i hi => ?_, h.told⟩
    · obtain ⟨hknown, hheld⟩ := h.running i hi
      exact ⟨O.later hknown (Nat.le_succ _), hheld⟩
    · obtain ⟨next, hcode, hknown⟩ := h.sleeping i hi
      exact ⟨next, hcode, fun s' t' hs' ht' => hknown s' t' hs' (Nat.le_of_succ_le ht')⟩

/-- What every thread keeps, a step keeps. -/
theorem Outline.Sound.keeps {m : Move R ι} (h : O.Sound s) (hs : Step code s m s') :
    G s.data s'.data := by
  cases hs with
  | @set i pc next f hth hcode hi =>
    have hvalid := O.valid pc
    rw [hcode] at hvalid
    exact (hvalid.2.2.2 _ _ (h.known_at hth).1).1
  | _ => exact O.refl _

end Monitor
