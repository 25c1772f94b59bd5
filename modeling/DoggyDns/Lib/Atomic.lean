import DoggyDns.Lib.Run

/-!
# Interleaved atomic operations

A `Prog` is a sequence of atomic operations on a shared state. A `System` runs
any number of calls, one operation of one of them at a time, and logs who did
what. `Follows` reads one call's program along such a log, and `Inv.of_run`
says that in every reachable system the shared state is the log replayed and
each call is its program read along it. What a call saw is then a question
about the log alone.
-/

namespace Atomic

open Lts

variable {S Op A B C : Type} {Result : C → Type}

/-- Each `op` is one atomic operation; `next` sees the state the operation found. -/
inductive Prog (S Op A : Type) where
  | ret (a : A)
  | op (o : Op) (next : S → Prog S Op A)

namespace Prog

def bind : Prog S Op A → (A → Prog S Op B) → Prog S Op B
  | ret a, f => f a
  | op o next, f => op o fun s => (next s).bind f

instance : Monad (Prog S Op) where
  pure := ret
  bind := bind

/-- One operation, and what it returns of the state it found. -/
def perform (o : Op) (result : S → A) : Prog S Op A := op o fun s => ret (result s)

@[simp] theorem perform_bind {o : Op} {result : S → A} {f : A → Prog S Op B} :
    (perform o result >>= f) = op o fun s => f (result s) := rfl

/-- The result of a call nobody interferes with. -/
def alone (exec : Op → S → S) : Prog S Op A → S → A × S
  | ret a, s => (a, s)
  | op o next, s => (next s).alone exec (exec o s)

end Prog

/-- The shared state, the calls so far and where each of them is, and who did what. -/
structure System (S Op : Type) (Result : C → Type) where
  shared : S
  calls : List ((c : C) × Prog S Op (Result c))
  log : List (Nat × Op)

/-- A call begins, or a call does its next operation. -/
inductive Label (C : Type) where
  | call (c : C)
  | exec (i : Nat)

section
variable (exec : Op → S → S) (body : (c : C) → Prog S Op (Result c))

def System.step (σ : System S Op Result) : Label C → Option (System S Op Result)
  | .call c => some { σ with calls := σ.calls ++ [⟨c, body c⟩] }
  | .exec i =>
    match σ.calls[i]? with
    | some ⟨c, .op o next⟩ =>
      some ⟨exec o σ.shared, σ.calls.set i ⟨c, next σ.shared⟩, σ.log ++ [(i, o)]⟩
    | _ => none

def System.Step (σ : System S Op Result) (l : Label C) (σ' : System S Op Result) : Prop :=
  σ.step exec body l = some σ'

/-- Where a schedule leads. -/
def System.steps (σ : System S Op Result) : List (Label C) → Option (System S Op Result)
  | [] => some σ
  | l :: ls => (σ.step exec body l).bind fun σ' => σ'.steps ls

/-- The state after the operations of a log. -/
def replay (s : S) (log : List (Nat × Op)) : S := log.foldl (fun s e => exec e.2 s) s

/-- From state `s` on, the operations of call `i` in the log take its program from `p` to `q`. -/
inductive Follows (i : Nat) : Prog S Op A → S → List (Nat × Op) → Prog S Op A → Prop where
  | nil {p : Prog S Op A} {s : S} : Follows i p s [] p
  | own {o : Op} {next : S → Prog S Op A} {s : S} {log : List (Nat × Op)} {q : Prog S Op A} :
    Follows i (next s) (exec o s) log q → Follows i (.op o next) s ((i, o) :: log) q
  | other {j : Nat} {o : Op} {p q : Prog S Op A} {s : S} {log : List (Nat × Op)} : j ≠ i →
    Follows i p (exec o s) log q → Follows i p s ((j, o) :: log) q

end

variable {exec : Op → S → S} {body : (c : C) → Prog S Op (Result c)}

@[simp] theorem replay_nil (s : S) : replay exec s [] = s := rfl

@[simp] theorem replay_cons (s : S) (e : Nat × Op) (log : List (Nat × Op)) :
    replay exec s (e :: log) = replay exec (exec e.2 s) log := rfl

theorem replay_append (s : S) (xs ys : List (Nat × Op)) :
    replay exec s (xs ++ ys) = replay exec (replay exec s xs) ys := List.foldl_append

/-! ## Reading a program along a log -/

namespace Follows

variable {i : Nat} {p q : Prog S Op A} {s : S} {log : List (Nat × Op)}

theorem trans {xs ys : List (Nat × Op)} {r : Prog S Op A} (h : Follows exec i p s xs r)
    (h' : Follows exec i r (replay exec s xs) ys q) : Follows exec i p s (xs ++ ys) q := by
  induction h with
  | nil => exact h'
  | own _ ih => exact .own (ih h')
  | other hj _ ih => exact .other hj (ih h')

theorem split {xs ys : List (Nat × Op)} (h : Follows exec i p s (xs ++ ys) q) :
    ∃ r, Follows exec i p s xs r ∧ Follows exec i r (replay exec s xs) ys q := by
  induction xs generalizing p s with
  | nil => exact ⟨p, .nil, h⟩
  | cons e xs ih =>
    cases h with
    | own h =>
      obtain ⟨r, hr, hq⟩ := ih h
      exact ⟨r, .own hr, hq⟩
    | other hj h =>
      obtain ⟨r, hr, hq⟩ := ih h
      exact ⟨r, .other hj hr, hq⟩

/-- A call that did nothing is where it began. -/
theorem of_absent (h : ∀ e ∈ log, e.1 ≠ i) : Follows exec i p s log p := by
  induction log generalizing s with
  | nil => exact .nil
  | cons e log ih =>
    exact .other (h e List.mem_cons_self) (ih fun e' he' => h e' (List.mem_cons_of_mem _ he'))

theorem eq_ret {a : A} (h : Follows exec i (.ret a) s log q) : q = .ret a := by
  induction log generalizing s with
  | nil => cases h; rfl
  | cons e log ih =>
    cases h with
    | other _ h => exact ih h

/-- A program that begins with `o` still stands there, or `o` is in the log. -/
theorem op_cases {o : Op} {next : S → Prog S Op A} (h : Follows exec i (.op o next) s log q) :
    q = .op o next ∨ ∃ pre post, log = pre ++ (i, o) :: post ∧
      Follows exec i (next (replay exec s pre)) (exec o (replay exec s pre)) post q := by
  induction log generalizing s with
  | nil =>
    cases h
    exact .inl rfl
  | cons e log ih =>
    cases h with
    | own h => exact .inr ⟨[], log, rfl, h⟩
    | @other j o' _ _ _ _ hj h =>
      rcases ih h with hq | ⟨pre, post, rfl, hpost⟩
      · exact .inl hq
      · exact .inr ⟨(j, o') :: pre, post, rfl, hpost⟩

/-- A program that stands elsewhere has left its first operation in the log. -/
theorem past_op {o : Op} {next : S → Prog S Op A} (h : Follows exec i (.op o next) s log q)
    (hq : q ≠ .op o next) :
    ∃ pre post, log = pre ++ (i, o) :: post ∧
      Follows exec i (next (replay exec s pre)) (exec o (replay exec s pre)) post q :=
  h.op_cases.resolve_left hq

/-- What call `i` was about to do when it did `o`. -/
theorem at_op {o : Op} {pre post : List (Nat × Op)}
    (h : Follows exec i p s (pre ++ (i, o) :: post) q) :
    ∃ next, Follows exec i p s pre (.op o next) ∧
      Follows exec i (next (replay exec s pre)) (exec o (replay exec s pre)) post q := by
  obtain ⟨r, hpre, hpost⟩ := h.split
  cases hpost with
  | own hpost => exact ⟨_, hpre, hpost⟩
  | other hj => exact absurd rfl hj

end Follows

/-! ## Reachable systems -/

/-- Shared state and calls are what the log makes of them. -/
structure Inv (exec : Op → S → S) (body : (c : C) → Prog S Op (Result c)) (s₀ : S)
    (σ : System S Op Result) : Prop where
  shared : σ.shared = replay exec s₀ σ.log
  known : ∀ e ∈ σ.log, e.1 < σ.calls.length
  follows : ∀ i c q, σ.calls[i]? = some ⟨c, q⟩ → Follows exec i (body c) s₀ σ.log q

theorem Inv.step {s₀ : S} {σ σ' : System S Op Result} {l : Label C} (hi : Inv exec body s₀ σ)
    (hs : σ.Step exec body l σ') : Inv exec body s₀ σ' := by
  unfold System.Step System.step at hs
  cases l with
  | call c =>
    cases hs
    refine ⟨hi.shared, fun e he => ?_, fun i c' q hq => ?_⟩
    · rw [List.length_append]
      exact Nat.lt_add_right _ (hi.known e he)
    · rcases Nat.lt_or_ge i σ.calls.length with hlt | hge
      · rw [List.getElem?_append_left hlt] at hq
        exact hi.follows i c' q hq
      · -- the new call: nobody logged anything in its name yet
        rw [List.getElem?_append_right hge] at hq
        obtain ⟨_, hget⟩ := List.getElem?_eq_some_iff.mp hq
        rw [List.getElem_singleton] at hget
        cases hget
        exact .of_absent fun e he => Nat.ne_of_lt (Nat.lt_of_lt_of_le (hi.known e he) hge)
  | exec i =>
    dsimp only at hs
    split at hs
    next c o next hcall =>
      cases hs
      have hlt : i < σ.calls.length := (List.getElem?_eq_some_iff.mp hcall).1
      refine ⟨?_, fun e he => ?_, fun j c' q hq => ?_⟩
      · rw [replay_append, ← hi.shared]
        rfl
      · rw [List.length_set]
        rcases List.mem_append.mp he with he | he
        · exact hi.known e he
        · rw [List.mem_singleton.mp he]
          exact hlt
      · by_cases hij : i = j
        · subst hij
          rw [List.getElem?_set_self hlt] at hq
          cases hq
          refine (hi.follows i c _ hcall).trans (.own ?_)
          rw [← hi.shared]
          exact .nil
        · rw [List.getElem?_set_ne hij] at hq
          exact (hi.follows j c' q hq).trans (.other hij .nil)
    next => cases hs

theorem run_of_steps {σ₀ σ : System S Op Result} {ls : List (Label C)}
    (h : σ₀.steps exec body ls = some σ) : Run (System.Step exec body) σ₀ ls σ := by
  have hrun : ∀ {pre ls : List (Label C)} {σ' : System S Op Result},
      Run (System.Step exec body) σ₀ pre σ' → σ'.steps exec body ls = some σ →
        Run (System.Step exec body) σ₀ (pre ++ ls) σ := by
    intro pre ls
    induction ls generalizing pre with
    | nil =>
      intro σ' hpre hls
      cases hls
      rwa [List.append_nil]
    | cons l ls ih =>
      intro σ' hpre hls
      obtain ⟨σ'', hstep, hls⟩ := Option.bind_eq_some_iff.mp hls
      rw [List.append_cons]
      exact ih (hpre.snoc hstep) hls
  exact hrun .nil h

theorem Inv.of_run {s₀ : S} {σ : System S Op Result} {ls : List (Label C)}
    (h : Run (System.Step exec body) ⟨s₀, [], []⟩ ls σ) : Inv exec body s₀ σ :=
  h.invariant ⟨rfl, by simp, by simp⟩ Inv.step

end Atomic
