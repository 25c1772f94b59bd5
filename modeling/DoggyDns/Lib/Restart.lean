import Mathlib.Data.List.SplitBy
import Mathlib.Tactic.Ring

/-!
# Counters that start over

A counter is read now and then. It only goes up, except that it may start over
at zero: a reading below the one before it is counted from zero. What a counter
has counted between readings adds up to the last reading of each of its
non-decreasing segments.
-/

namespace Restart

/-- What was counted between two readings. -/
def increase (previous current : Nat) : Nat :=
  if previous ≤ current then current - previous else current

/-- What was counted from the reading `previous` on. -/
def total : Nat → List Nat → Nat
  | _, [] => 0
  | previous, current :: readings => increase previous current + total current readings

/-- The sum of the last readings of the maximal non-decreasing segments. -/
def segmentsTotal (readings : List Nat) : Nat :=
  ((readings.splitBy (· ≤ ·)).map (·.getLastD 0)).sum

variable {a b : Nat} {readings : List Nat}

/-- A reading that does not fall below the one before belongs to its segment. -/
theorem splitBy_cons_of_le (h : a ≤ b) {segment : List Nat} {segments : List (List Nat)}
    (hs : (b :: readings).splitBy (· ≤ ·) = segment :: segments) :
    (a :: b :: readings).splitBy (· ≤ ·) = (a :: segment) :: segments := by
  obtain ⟨hflat, hnil, hchain, hbreak⟩ := List.splitBy_eq_iff.mp hs
  obtain ⟨rest, rfl⟩ : ∃ rest, segment = b :: rest := by
    cases segment with
    | nil => exact absurd List.mem_cons_self hnil
    | cons c rest =>
      rw [List.flatten_cons, List.cons_append] at hflat
      exact ⟨rest, by rw [(List.cons.inj hflat).1]⟩
  rw [List.splitBy_eq_iff]
  refine ⟨?_, ?_, ?_, ?_⟩
  · rw [hflat]
    rfl
  · rw [List.mem_cons, not_or] at hnil ⊢
    exact ⟨List.cons_ne_nil _ _ ∘ Eq.symm, hnil.2⟩
  · rw [List.forall_mem_cons] at hchain ⊢
    exact ⟨List.isChain_cons_cons.mpr ⟨decide_eq_true h, hchain.1⟩, hchain.2⟩
  · rw [List.isChain_cons] at hbreak ⊢
    refine ⟨fun next hnext => ?_, hbreak.2⟩
    obtain ⟨_, hb, hlt⟩ := hbreak.1 next hnext
    exact ⟨List.cons_ne_nil _ _, hb, hlt⟩

theorem segmentsTotal_of_le (h : a ≤ b) :
    segmentsTotal (a :: b :: readings) = segmentsTotal (b :: readings) := by
  unfold segmentsTotal
  cases hs : (b :: readings).splitBy (· ≤ ·) with
  | nil => exact absurd (List.splitBy_eq_nil.mp hs) (List.cons_ne_nil _ _)
  | cons segment segments =>
    have hne : segment ≠ [] := List.ne_nil_of_mem_splitBy (hs ▸ List.mem_cons_self)
    rw [splitBy_cons_of_le h hs, List.map_cons, List.map_cons]
    obtain ⟨c, rest, rfl⟩ := List.exists_cons_of_ne_nil hne
    rfl

theorem segmentsTotal_of_lt (h : b < a) :
    segmentsTotal (a :: b :: readings) = a + segmentsTotal (b :: readings) := by
  have hsplit : (a :: b :: readings).splitBy (· ≤ ·) =
      [[a]] ++ (b :: readings).splitBy (· ≤ ·) := by
    refine List.splitBy_append_cons (l := [a]) readings fun x hx => ?_
    obtain rfl : a = x := by simpa using hx
    exact decide_eq_false (Nat.not_le.mpr h)
  unfold segmentsTotal
  rw [hsplit, List.map_append, List.sum_append]
  rfl

/-- Counting on from a reading completes the segment it stands in. -/
theorem add_total (previous : Nat) (readings : List Nat) :
    previous + total previous readings = segmentsTotal (previous :: readings) := by
  induction readings generalizing previous with
  | nil => rfl
  | cons current readings ih =>
    unfold total increase
    split
    next hle =>
      rw [segmentsTotal_of_le hle, ← ih]
      omega
    next hlt =>
      rw [segmentsTotal_of_lt (Nat.not_le.mp hlt), ← ih]

theorem total_append (previous : Nat) (readings later : List Nat) :
    total previous (readings ++ later) =
      total previous readings + total (readings.getLastD previous) later := by
  induction readings generalizing previous with
  | nil => exact (Nat.zero_add _).symm
  | cons current readings ih =>
    rw [List.cons_append, total, total, ih, List.getLastD_cons, Nat.add_assoc]

/-- From zero on, the segments are counted once each. -/
theorem total_zero (readings : List Nat) : total 0 readings = segmentsTotal readings := by
  have hadd := add_total 0 readings
  rw [Nat.zero_add] at hadd
  rw [hadd]
  cases readings with
  | nil => rfl
  | cons current readings => exact segmentsTotal_of_le (Nat.zero_le current)

/-- Readings that never fall are one segment. -/
theorem segmentsTotal_of_isChain (h : readings.IsChain (· ≤ ·)) :
    segmentsTotal readings = readings.getLastD 0 := by
  cases readings with
  | nil => rfl
  | cons current readings =>
    unfold segmentsTotal
    rw [List.splitBy_of_isChain (List.cons_ne_nil _ _) (h.imp fun _ _ => decide_eq_true),
      List.map_singleton, List.sum_singleton]

end Restart
