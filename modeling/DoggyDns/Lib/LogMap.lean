import Mathlib.Logic.Function.Basic
import Mathlib.Tactic.Common

/-!
# A map behind an insertion log

A bounded map forgets entries on its own, so it is less than the log of what
was inserted, newest first. `Backs log m` is the relation that survives: an
entry still in the map is the newest insertion under its key.
-/

namespace LogMap

variable {K V E : Type} [DecidableEq K] (key : E → K) (value : E → V)

/-- The most recent insertion under `k`. -/
def newest (log : List E) (k : K) : Option E := log.find? fun e => key e = k

/-- Every entry of the map is the newest insertion under its key. -/
def Backs (log : List E) (m : K → Option V) : Prop :=
  ∀ k v, m k = some v → ∃ e, newest key log k = some e ∧ value e = v

variable {key value} {log : List E} {m : K → Option V}

theorem newest_mem {k : K} {e : E} (h : newest key log k = some e) : e ∈ log ∧ key e = k :=
  ⟨List.mem_of_find?_eq_some h, by simpa using List.find?_some h⟩

theorem Backs.empty : Backs key value [] fun _ => none := fun _ _ h => nomatch h

theorem Backs.insert (h : Backs key value log m) (e : E) :
    Backs key value (e :: log) (Function.update m (key e) (some (value e))) := by
  intro k v hv
  by_cases hk : k = key e
  · subst hk
    rw [Function.update_self] at hv
    exact ⟨e, by simp [newest], Option.some.inj hv⟩
  · rw [Function.update_of_ne hk] at hv
    obtain ⟨e', he', hve⟩ := h k v hv
    refine ⟨e', ?_, hve⟩
    unfold newest
    rw [List.find?_cons_of_neg (by simpa using Ne.symm hk)]
    exact he'

theorem Backs.evict (h : Backs key value log m) (k : K) :
    Backs key value log (Function.update m k none) := by
  intro k' v hv
  by_cases hk : k' = k
  · subst hk
    rw [Function.update_self] at hv
    cases hv
  · rw [Function.update_of_ne hk] at hv
    exact h k' v hv

end LogMap
