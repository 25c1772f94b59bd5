import Mathlib.Algebra.BigOperators.Fin
import Mathlib.Algebra.Order.BigOperators.Group.Finset

/-!
# Collects of rising counters

A collect copies a family of counters one by one while they keep rising. What
it copied need not be a state the family was ever in, but each copy, and so
their sum, lies between the counters at its start and those at its end.
-/

namespace Collect

variable {ι : Type} {start now now' : ι → ℕ} {copied : ι → Option ℕ}

/-- The counters were at `start` when the collect began and are at `now`. -/
structure Between (start now : ι → ℕ) (copied : ι → Option ℕ) : Prop where
  risen : start ≤ now
  copies : ∀ i c, copied i = some c → start i ≤ c ∧ c ≤ now i

theorem Between.begin (h : start ≤ now) : Between start now fun _ => none :=
  ⟨h, fun _ _ hc => nomatch hc⟩

theorem Between.rise (h : Between start now copied) (hrise : now ≤ now') :
    Between start now' copied := by
  refine ⟨h.risen.trans hrise, fun i c hc => ?_⟩
  obtain ⟨hstart, hnow⟩ := h.copies i c hc
  exact ⟨hstart, hnow.trans (hrise i)⟩

theorem Between.copy [DecidableEq ι] (h : Between start now copied) (i : ι) :
    Between start now (Function.update copied i (some (now i))) := by
  refine ⟨h.risen, fun j c hc => ?_⟩
  by_cases hj : j = i
  · subst hj
    rw [Function.update_self] at hc
    cases hc
    exact ⟨h.risen j, le_rfl⟩
  · rw [Function.update_of_ne hj] at hc
    exact h.copies j c hc

/-- A complete collect. -/
theorem Between.sum [Fintype ι] (h : Between start now copied) {value : ι → ℕ}
    (hall : ∀ i, copied i = some (value i)) :
    ∑ i, start i ≤ ∑ i, value i ∧ ∑ i, value i ≤ ∑ i, now i :=
  ⟨Finset.sum_le_sum fun i _ => (h.copies i _ (hall i)).1,
    Finset.sum_le_sum fun i _ => (h.copies i _ (hall i)).2⟩

/-- One counter goes up by `n`. -/
theorem sum_add_single [Fintype ι] [DecidableEq ι] (f : ι → ℕ) (i : ι) (n : ℕ) :
    ∑ j, (f j + if j = i then n else 0) = ∑ j, f j + n := by
  rw [Finset.sum_add_distrib, Finset.sum_ite_eq' Finset.univ i, if_pos (Finset.mem_univ i)]

end Collect
