import DoggyDns.Nacos.Backoff

/-!
# The failure backoff over a history

Calls one after the other: what the three registers of `FailureBackoff` hold is
a function of the calls so far. `streak` counts the failures since the last
answer and `lastFailure` is when the most recent one was; the window is open
while the streak is three or more and that failure is less than 30 seconds old.
-/

namespace DoggyDns

/-- A call that changes the backoff. -/
inductive BackoffEvent where
  | failure (now : Int64)
  | success
  deriving DecidableEq, Repr

namespace BackoffEvent

def apply (b : FailureBackoff) : BackoffEvent → FailureBackoff
  | failure now => (b.recordFailure now).2
  | success => b.recordSuccess

/-- The backoff after a history, oldest call first. -/
def after (history : List BackoffEvent) : FailureBackoff := history.foldl apply {}

/-- The failures since the last success. -/
def streak (history : List BackoffEvent) : Nat :=
  (history.reverse.takeWhile (· ≠ success)).length

def failedAt : BackoffEvent → Option Int64
  | failure now => some now
  | success => none

/-- When the most recent failure was. -/
def lastFailure (history : List BackoffEvent) : Option Int64 := history.reverse.findSome? failedAt

section
variable (history : List BackoffEvent) (now : Int64)

@[simp] theorem streak_failure : streak (history ++ [failure now]) = streak history + 1 := by
  simp [streak]

@[simp] theorem streak_success : streak (history ++ [success]) = 0 := by
  simp [streak]

@[simp] theorem lastFailure_failure : lastFailure (history ++ [failure now]) = some now := by
  unfold lastFailure
  rw [List.reverse_append]
  rfl

theorem after_append (e : BackoffEvent) : after (history ++ [e]) = apply (after history) e := by
  simp [after]

end

theorem mem_of_lastFailure {history : List BackoffEvent} {t : Int64}
    (h : lastFailure history = some t) : failure t ∈ history := by
  obtain ⟨e, he, ht⟩ := List.exists_of_findSome?_eq_some h
  cases e with
  | failure now =>
    cases ht
    exact List.mem_reverse.mp he
  | success => cases ht

/-- No streak of the history fills the counter. -/
def StreaksFit (history : List BackoffEvent) : Prop :=
  ∀ pre, pre <+: history → streak pre < 2 ^ 32

theorem StreaksFit.of_append {pre post : List BackoffEvent} (h : StreaksFit (pre ++ post)) :
    StreaksFit pre :=
  fun _ hp => h _ (hp.trans (List.prefix_append pre post))

/-- What the registers hold after a history. -/
structure Registers (history : List BackoffEvent) (b : FailureBackoff) : Prop where
  failures : b.failures.toNat = streak history
  opened : 3 ≤ streak history → lastFailure history = some b.openedAt
  closed : streak history < 3 → b.openedAt = WINDOW_CLOSED
  confirmed : b.confirmed = true ↔ success ∈ history

/-- A failure, as its place in the streak decides it. -/
theorem recordFailure_cases {history : List BackoffEvent} {b : FailureBackoff}
    (h : Registers history b) (hfit : streak history + 1 < 2 ^ 32) (now : Int64) :
    (b.failures + 1).toNat = streak history + 1 ∧
    ((streak history + 1 < 3 ∧
        b.recordFailure now = (false, { b with failures := b.failures + 1 })) ∨
      (3 ≤ streak history + 1 ∧
        b.recordFailure now = (true, { b with failures := b.failures + 1, openedAt := now }))) := by
  have hsum : (b.failures + 1).toNat = streak history + 1 := by
    rw [UInt32.toNat_add, h.failures]
    exact Nat.mod_eq_of_lt hfit
  refine ⟨hsum, ?_⟩
  have hlt : b.failures + 1 < NACOS_FAILURE_THRESHOLD ↔ streak history + 1 < 3 := by
    rw [UInt32.lt_iff_toNat_lt, hsum]
    rfl
  unfold FailureBackoff.recordFailure
  by_cases hthree : streak history + 1 < 3
  · exact .inl ⟨hthree, if_pos (hlt.mpr hthree)⟩
  · exact .inr ⟨Nat.le_of_not_lt hthree, if_neg (mt hlt.mp hthree)⟩

theorem Registers.failure {history : List BackoffEvent} {b : FailureBackoff}
    (h : Registers history b) (hfit : streak history + 1 < 2 ^ 32) (now : Int64) :
    Registers (history ++ [.failure now]) (b.recordFailure now).2 := by
  have hconf : success ∈ history ++ [BackoffEvent.failure now] ↔ success ∈ history := by simp
  obtain ⟨hsum, ⟨hlt, heq⟩ | ⟨hle, heq⟩⟩ := recordFailure_cases h hfit now
  · rw [heq]
    refine ⟨by rw [streak_failure]; exact hsum, fun h3 => ?_, fun _ => h.closed (by omega), ?_⟩
    · rw [streak_failure] at h3
      omega
    · rw [hconf]
      exact h.confirmed
  · rw [heq]
    refine ⟨by rw [streak_failure]; exact hsum, fun _ => lastFailure_failure history now,
      fun h3 => ?_, ?_⟩
    · rw [streak_failure] at h3
      omega
    · rw [hconf]
      exact h.confirmed

theorem Registers.success (history : List BackoffEvent) (b : FailureBackoff) :
    Registers (history ++ [.success]) b.recordSuccess := by
  refine ⟨by rw [streak_success]; rfl, fun h3 => ?_, fun _ => rfl, ?_⟩
  · rw [streak_success] at h3
    omega
  · exact iff_of_true rfl (by simp)

/-- The registers along every history. -/
theorem registers_after {history : List BackoffEvent} (hfit : StreaksFit history) :
    Registers history (after history) := by
  induction history using List.reverseRecOn with
  | nil => exact ⟨rfl, fun h => absurd h (by decide), fun _ => rfl, by simp [after]⟩
  | append_singleton history e ih =>
    rw [after_append]
    cases e with
    | failure now =>
      have hlast := hfit _ List.prefix_rfl
      rw [streak_failure] at hlast
      exact (ih hfit.of_append).failure hlast now
    | success => exact Registers.success history (after history)

/-- The difference of two times since the epoch does not saturate. -/
theorem toInt_saturatingSub {a b : Int64} (ha : 0 ≤ a) (hb : 0 ≤ b) :
    (saturatingSub a b).toInt = a.toInt - b.toInt := by
  rw [Int64.le_iff_toInt_le] at ha hb
  have ha' := a.toInt_lt
  have hb' := b.toInt_lt
  have hz : (0 : Int64).toInt = 0 := rfl
  have hmin : Int64.minValue.toInt = -2 ^ 63 := rfl
  have hmax : Int64.maxValue.toInt = 2 ^ 63 - 1 := rfl
  unfold saturatingSub Int64.ofIntClamp
  rw [dif_pos (by omega), dif_pos (by omega), Int64.toInt_ofIntLE]

/-- The window, for times since the epoch. -/
theorem isOpen_iff {b : FailureBackoff} {now : Int64} (hopened : 0 ≤ b.openedAt) (hnow : 0 ≤ now) :
    b.isOpen now = true ↔ 3 ≤ b.failures.toNat ∧ 0 ≤ now.toInt - b.openedAt.toInt ∧
      now.toInt - b.openedAt.toInt < 30 := by
  have hne : b.openedAt ≠ WINDOW_CLOSED := by
    intro h
    rw [h] at hopened
    exact absurd hopened (by decide)
  have hlt : b.failures < NACOS_FAILURE_THRESHOLD ↔ b.failures.toNat < 3 := UInt32.lt_iff_toNat_lt
  unfold FailureBackoff.isOpen
  by_cases hthree : b.failures.toNat < 3
  · rw [if_pos (.inr (hlt.mpr hthree))]
    exact iff_of_false Bool.false_ne_true (by omega)
  · rw [if_neg (not_or.mpr ⟨hne, mt hlt.mp hthree⟩), decide_eq_true_iff, Int64.le_iff_toInt_le,
      Int64.lt_iff_toInt_lt, toInt_saturatingSub hnow hopened]
    exact (and_iff_right (Nat.le_of_not_lt hthree)).symm

/-- **The backoff is a function of its history.** Times are since the epoch, in any order. -/
theorem backoff_over_history {history : List BackoffEvent}
    (hclock : ∀ t, failure t ∈ history → 0 ≤ t) (hfit : StreaksFit history) :
    (∀ now, 0 ≤ now → ((after history).isOpen now = true ↔ 3 ≤ streak history ∧
      ∃ t, lastFailure history = some t ∧ 0 ≤ now.toInt - t.toInt ∧
        now.toInt - t.toInt < 30)) ∧
    (∀ pre t post, history = pre ++ failure t :: post →
      ((after pre).recordFailure t).1 = decide (3 ≤ streak (pre ++ [failure t]))) ∧
    ((after history).everConfirmed = true ↔ success ∈ history) := by
  have h := registers_after hfit
  refine ⟨fun now hnow => ?_, fun pre t post hsplit => ?_, h.confirmed⟩
  · by_cases hthree : 3 ≤ streak history
    · have hlast := h.opened hthree
      have hopened : 0 ≤ (after history).openedAt := hclock _ (mem_of_lastFailure hlast)
      rw [isOpen_iff hopened hnow, h.failures, hlast]
      simp
    · rw [FailureBackoff.isOpen, if_pos (.inl (h.closed (by omega)))]
      exact iff_of_false Bool.false_ne_true fun hopen => hthree hopen.1
  · subst hsplit
    have hpre : StreaksFit (pre ++ [failure t]) := by
      rw [List.append_cons] at hfit
      exact hfit.of_append
    have hlast := hpre _ List.prefix_rfl
    rw [streak_failure] at hlast ⊢
    obtain ⟨-, ⟨hlt, heq⟩ | ⟨hle, heq⟩⟩ :=
      recordFailure_cases (registers_after hpre.of_append) hlast t
    · rw [heq, decide_eq_false (by omega)]
    · rw [heq, decide_eq_true hle]

/-- Two failures, an answer and three more, the clock stepping back in between. -/
def outage : List BackoffEvent :=
  [failure 500, failure 501, success, failure 90, failure 70, failure 100]

theorem backoff_over_outage :
    (after outage).isOpen 129 = true ∧ (after outage).isOpen 130 = false ∧
      (after outage).isOpen 99 = false := by
  have hclock : ∀ t, failure t ∈ outage → 0 ≤ t := by
    intro t ht
    simp only [outage, List.mem_cons, failure.injEq, List.not_mem_nil, or_false, reduceCtorEq,
      false_or] at ht
    rcases ht with rfl | rfl | rfl | rfl | rfl <;> decide
  have hfit : StreaksFit outage := by
    intro pre hpre
    have hlen : streak pre ≤ outage.length :=
      ((List.takeWhile_sublist _).length_le.trans (List.length_reverse).le).trans hpre.length_le
    exact Nat.lt_of_le_of_lt hlen (by decide)
  obtain ⟨hopen, -, -⟩ := backoff_over_history hclock hfit
  refine ⟨(hopen 129 (by decide)).mpr ⟨by decide, 100, by decide, by decide, by decide⟩, ?_, ?_⟩
  · rw [Bool.eq_false_iff]
    rintro h
    obtain ⟨-, t, ht, -, hlt⟩ := (hopen 130 (by decide)).mp h
    cases ht
    exact absurd hlt (by decide)
  · rw [Bool.eq_false_iff]
    rintro h
    obtain ⟨-, t, ht, hle, -⟩ := (hopen 99 (by decide)).mp h
    cases ht
    exact absurd hle (by decide)

end BackoffEvent

end DoggyDns
