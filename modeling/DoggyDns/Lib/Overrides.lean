import Mathlib.Data.List.Pairwise
import Mathlib.Order.Lattice
import Mathlib.Tactic.Common

/-!
# Entries that override one another

Keys count as the same when `norm` makes them the same. `put` drops the
entries with a key's name and adds the new one, so of a list of entries put
one by one the last with a name stays, under the spelling it was put with. An
ordered map keeps them by key instead: `insertSorted`.
-/

namespace Overrides

variable {K V N : Type} [DecidableEq N] (norm : K → N)

def put (m : List (K × V)) (e : K × V) : List (K × V) :=
  m.filter (fun e' => norm e'.1 ≠ norm e.1) ++ [e]

def value (m : List (K × V)) (key : K) : Option V :=
  (m.find? fun e => norm e.1 = norm key).map Prod.snd

/-- The value of the last entry with a key. -/
def lastValue (entries : List (K × V)) (key : K) : Option V := value norm entries.reverse key

/-- No two entries have the same key. -/
def Distinct (m : List (K × V)) : Prop := m.Pairwise fun e e' => norm e.1 ≠ norm e'.1

variable {norm} {m entries : List (K × V)} {e : K × V} {key : K}

omit [DecidableEq N] in
theorem Distinct.concat (h : Distinct norm m) (hnew : ∀ e' ∈ m, norm e'.1 ≠ norm e.1) :
    Distinct norm (m ++ [e]) := by
  refine List.pairwise_append.mpr ⟨h, List.pairwise_singleton _ _, ?_⟩
  intro e' he' e'' he''
  obtain rfl := List.mem_singleton.mp he''
  exact hnew e' he'

theorem Distinct.put (h : Distinct norm m) : Distinct norm (put norm m e) := by
  refine Distinct.concat (h.filter _) fun e' he' => ?_
  exact of_decide_eq_true (List.mem_filter.mp he').2

theorem Distinct.foldl (h : Distinct norm m) :
    Distinct norm (entries.foldl (Overrides.put norm) m) := by
  induction entries generalizing m with
  | nil => exact h
  | cons e entries ih => exact ih h.put

omit [DecidableEq N] in
/-- Entries with the same key are the same entry. -/
theorem Distinct.eq_of_mem (h : Distinct norm m) {e' : K × V} (he : e ∈ m) (he' : e' ∈ m)
    (heq : norm e.1 = norm e'.1) : e = e' := by
  by_contra hne
  have : Std.Symm fun e e' : K × V => norm e.1 ≠ norm e'.1 := ⟨fun _ _ hab => hab.symm⟩
  exact h.forall he he' hne heq

theorem value_isSome_iff : (value norm m key).isSome ↔ ∃ e ∈ m, norm e.1 = norm key := by
  unfold value
  rw [Option.isSome_map, List.find?_isSome]
  simp only [decide_eq_true_eq]

theorem value_append (m' : List (K × V)) :
    value norm (m ++ m') key = (value norm m key).or (value norm m' key) := by
  unfold value
  rw [List.find?_append, Option.map_or]

theorem value_singleton : value norm [e] key = if norm e.1 = norm key then some e.2 else none := by
  unfold value
  rw [List.find?_singleton]
  split <;> simp_all

theorem value_put :
    value norm (put norm m e) key =
      if norm e.1 = norm key then some e.2 else value norm m key := by
  unfold put
  rw [value_append, value_singleton]
  split
  next h =>
    have hnone : value norm (m.filter fun e' => norm e'.1 ≠ norm e.1) key = none := by
      rw [← Option.not_isSome_iff_eq_none, value_isSome_iff]
      rintro ⟨e', he', hkey⟩
      have hne := of_decide_eq_true (List.mem_filter.mp he').2
      exact hne (hkey.trans h.symm)
    rw [hnone, Option.none_or]
  next h =>
    unfold value
    rw [Option.or_none, List.find?_filter]
    -- what was dropped has another key
    have hkept : (fun e' : K × V => decide (decide (norm e'.1 ≠ norm e.1) = true ∧
        decide (norm e'.1 = norm key) = true)) = fun e' => decide (norm e'.1 = norm key) := by
      funext e'
      simp only [decide_eq_true_eq, decide_eq_decide, and_iff_right_iff_imp]
      intro hkey heq
      exact h (heq.symm.trans hkey)
    rw [hkept]

theorem lastValue_append (entries' : List (K × V)) :
    lastValue norm (entries ++ entries') key =
      (lastValue norm entries' key).or (lastValue norm entries key) := by
  rw [lastValue, List.reverse_append, value_append]
  rfl

/-- The last entry put wins. -/
theorem value_foldl :
    value norm (entries.foldl (put norm) m) key =
      (lastValue norm entries key).or (value norm m key) := by
  induction entries generalizing m with
  | nil => rfl
  | cons e entries ih =>
    rw [List.foldl_cons, ih, value_put, lastValue, lastValue, List.reverse_cons, value_append,
      value_singleton, Option.or_assoc]
    split <;> rfl

/-- Entries put in leave none of the keys out. -/
theorem exists_mem_foldl_iff :
    (∃ e ∈ entries.foldl (put norm) m, norm e.1 = norm key) ↔
      (∃ e ∈ m, norm e.1 = norm key) ∨ ∃ e ∈ entries, norm e.1 = norm key := by
  rw [← value_isSome_iff, value_foldl, Option.isSome_or, Bool.or_eq_true, lastValue,
    value_isSome_iff, value_isSome_iff, or_comm]
  simp only [List.mem_reverse]

/-! ## Ordered by key -/

section Sorted
variable {K : Type} [LinearOrder K] {m entries : List (K × V)} {e : K × V}

/-- Put an entry at its place, or in the place of one with its key. -/
def insertSorted (m : List (K × V)) (e : K × V) : List (K × V) :=
  match m with
  | [] => [e]
  | e' :: rest =>
    if e.1 < e'.1 then e :: e' :: rest
    else if e.1 = e'.1 then e :: rest
    else e' :: insertSorted rest e

def Sorted (m : List (K × V)) : Prop := m.Pairwise fun e e' => e.1 < e'.1

theorem mem_insertSorted {e' : K × V} (h : e' ∈ insertSorted m e) : e' = e ∨ e' ∈ m := by
  induction m with
  | nil => exact .inl (List.mem_singleton.mp h)
  | cons e'' rest ih =>
    unfold insertSorted at h
    split at h
    · exact List.mem_cons.mp h
    · split at h
      · exact (List.mem_cons.mp h).imp_right (List.mem_cons_of_mem _)
      · rcases List.mem_cons.mp h with rfl | h
        · exact .inr List.mem_cons_self
        · exact (ih h).imp_right (List.mem_cons_of_mem _)

theorem Sorted.insertSorted (h : Sorted m) : Sorted (insertSorted m e) := by
  induction m with
  | nil => exact List.pairwise_singleton _ _
  | cons e' rest ih =>
    obtain ⟨hhead, hrest⟩ := List.pairwise_cons.mp h
    unfold Overrides.insertSorted
    split
    next hlt =>
      refine List.pairwise_cons.mpr ⟨fun x hx => ?_, h⟩
      rcases List.mem_cons.mp hx with rfl | hx
      · exact hlt
      · exact lt_trans hlt (hhead x hx)
    next hle =>
      split
      next heq => exact List.pairwise_cons.mpr ⟨fun x hx => heq ▸ hhead x hx, hrest⟩
      next hne =>
        refine List.pairwise_cons.mpr ⟨fun x hx => ?_, ih hrest⟩
        rcases mem_insertSorted hx with rfl | hx
        · exact lt_of_le_of_ne (not_lt.mp hle) (Ne.symm hne)
        · exact hhead x hx

end Sorted

end Overrides
