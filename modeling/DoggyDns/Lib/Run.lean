import Mathlib.Tactic.Common

/-!
# Runs of a labelled transition system

`Run step s₀ ls s`: from `s₀` the steps labelled `ls`, oldest first, lead to
`s`. `Run.invariant` is the induction every safety result goes through, and
`Run.split` returns to the moment of one label.
-/

namespace Lts

variable {S L : Type} {step : S → L → S → Prop} {s₀ s : S} {ls : List L}

/-- A finite run. -/
inductive Run (step : S → L → S → Prop) (s₀ : S) : List L → S → Prop where
  | nil : Run step s₀ [] s₀
  | snoc {ls : List L} {s s' : S} {l : L} : Run step s₀ ls s → step s l s' →
    Run step s₀ (ls ++ [l]) s'

/-- What holds at the start and is kept by the steps of a run holds at its end. -/
theorem Run.invariant_on {I : S → Prop} {P : L → Prop} (h : Run step s₀ ls s)
    (hP : ∀ l ∈ ls, P l) (h0 : I s₀)
    (hstep : ∀ {s l s'}, P l → I s → step s l s' → I s') : I s := by
  induction h with
  | nil => exact h0
  | @snoc ls s s' l _ hs ih =>
    exact hstep (hP l (by simp)) (ih fun l' hl' => hP l' (by simp [hl'])) hs

/-- What holds at the start and is kept by every step holds along every run. -/
theorem Run.invariant {I : S → Prop} (h : Run step s₀ ls s) (h0 : I s₀)
    (hstep : ∀ {s l s'}, I s → step s l s' → I s') : I s :=
  h.invariant_on (P := fun _ => True) (fun _ _ => trivial) h0 fun _ => hstep

theorem Run.trans {ls' : List L} {s' : S} (h : Run step s₀ ls s) (h' : Run step s ls' s') :
    Run step s₀ (ls ++ ls') s' := by
  induction h' with
  | nil => rwa [List.append_nil]
  | snoc _ hs ih =>
    rw [← List.append_assoc]
    exact ih.snoc hs

/-- A run stops between any two labels. -/
theorem Run.of_append {ls' : List L} (h : Run step s₀ (ls ++ ls') s) :
    ∃ s₁, Run step s₀ ls s₁ ∧ Run step s₁ ls' s := by
  generalize hls : ls ++ ls' = all at h
  induction h generalizing ls' with
  | nil =>
    obtain ⟨rfl, rfl⟩ := List.append_eq_nil_iff.mp hls
    exact ⟨s₀, .nil, .nil⟩
  | snoc hr hs ih =>
    rcases List.eq_nil_or_concat ls' with rfl | ⟨ls', l, rfl⟩
    · rw [List.append_nil] at hls
      exact ⟨_, hls ▸ hr.snoc hs, .nil⟩
    · rw [List.concat_eq_append, ← List.append_assoc] at hls
      obtain ⟨hinit, hl⟩ := List.append_inj' hls rfl
      cases hl
      obtain ⟨s₁, h₁, h₂⟩ := ih hinit
      rw [List.concat_eq_append]
      exact ⟨s₁, h₁, h₂.snoc hs⟩

theorem Run.eq_of_nil (h : Run step s₀ [] s) : s = s₀ := by
  generalize hls : [] = all at h
  cases h with
  | nil => rfl
  | snoc => simp at hls

theorem Run.step_of_singleton {l : L} (h : Run step s₀ [l] s) : step s₀ l s := by
  rw [← List.nil_append [l]] at h
  generalize hls : [] ++ [l] = all at h
  cases h with
  | nil => cases hls
  | snoc hr hs =>
    obtain ⟨rfl, hl⟩ := List.append_inj' hls rfl
    cases hl
    cases hr.eq_of_nil
    exact hs

/-- The state before and after one label of a run. -/
theorem Run.split {pre post : List L} {l : L} (h : Run step s₀ (pre ++ l :: post) s) :
    ∃ s₁ s₂, Run step s₀ pre s₁ ∧ step s₁ l s₂ := by
  generalize hls : pre ++ l :: post = ls at h
  induction h generalizing post with
  | nil => simp at hls
  | snoc hr hs ih =>
    rcases List.eq_nil_or_concat post with rfl | ⟨post', l', rfl⟩
    · obtain ⟨rfl, hl⟩ := List.append_inj' hls rfl
      cases hl
      exact ⟨_, _, hr, hs⟩
    · rw [List.concat_eq_append, ← List.cons_append, ← List.append_assoc] at hls
      exact ih (List.append_inj' hls rfl).1

end Lts
