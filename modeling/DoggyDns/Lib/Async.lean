import DoggyDns.Lib.Run

/-!
# Asynchronous fibers over shared state

A `Fiber` reads and updates a shared state, reads a clock, and suspends only at
its calls: `await` waits for the reply however long it takes, `timeout` for a
bounded time. A `Machine` runs any number of fibers from the same body, and
between two suspensions a fiber runs undisturbed.

Every thread carries what it saw: the state it started in and, for each ended
wait, how it ended and the shared state at that moment. `Fiber.Follows` reads a
fiber along such a log, and `followed_of_run` says that each thread of a
reachable machine is its body read along its log. The interleaving is then out
of the way: `Ends.of_bind` and `Waits.of_bind` take a fiber apart like a
sequential program.
-/

namespace Async

open Lts

variable {Call : Type} {Reply : Call → Type} {T σ ι α β : Type}

inductive Fiber (Call : Type) (Reply : Call → Type) (T σ α : Type) where
  | ret (a : α)
  | read (k : σ → Fiber Call Reply T σ α)
  | modify (f : σ → σ) (k : Fiber Call Reply T σ α)
  | clock (k : T → Fiber Call Reply T σ α)
  | await (c : Call) (k : Reply c → Fiber Call Reply T σ α)
  /-- `none`: the bound elapsed. -/
  | timeout (bound : Nat) (c : Call) (k : Option (Reply c) → Fiber Call Reply T σ α)

namespace Fiber

def bind : Fiber Call Reply T σ α → (α → Fiber Call Reply T σ β) → Fiber Call Reply T σ β
  | ret a, f => f a
  | read k, f => read fun s => (k s).bind f
  | modify g k, f => modify g (k.bind f)
  | clock k, f => clock fun t => (k t).bind f
  | await c k, f => await c fun r => (k r).bind f
  | timeout b c k, f => timeout b c fun r => (k r).bind f

instance : Monad (Fiber Call Reply T σ) where
  pure := ret
  bind := bind

def get : Fiber Call Reply T σ σ := read ret

def update (f : σ → σ) : Fiber Call Reply T σ Unit := modify f (ret ())

def now : Fiber Call Reply T σ T := clock ret

def call (c : Call) : Fiber Call Reply T σ (Reply c) := await c ret

/-- `none`: no reply within `bound`. -/
def callWithin (bound : Nat) (c : Call) : Fiber Call Reply T σ (Option (Reply c)) :=
  timeout bound c ret

@[simp] theorem get_bind {f : σ → Fiber Call Reply T σ β} :
    (get >>= f : Fiber Call Reply T σ β) = read f := rfl

@[simp] theorem update_bind {g : σ → σ} {f : Unit → Fiber Call Reply T σ β} :
    (update g >>= f) = modify g (f ()) := rfl

@[simp] theorem now_bind {f : T → Fiber Call Reply T σ β} : (now >>= f) = clock f := rfl

@[simp] theorem call_bind {c : Call} {f : Reply c → Fiber Call Reply T σ β} :
    (call c >>= f) = await c f := rfl

@[simp] theorem callWithin_bind {b : Nat} {c : Call}
    {f : Option (Reply c) → Fiber Call Reply T σ β} :
    (callWithin b c >>= f) = timeout b c f := rfl

/-- The call a suspended fiber waits for, with its bound. -/
def pending : Fiber Call Reply T σ α → Option (Option Nat × Call)
  | await c _ => some (none, c)
  | timeout b c _ => some (some b, c)
  | _ => none

/-- Runs to the next suspension. -/
def advance (now : T) : Fiber Call Reply T σ α → σ → Fiber Call Reply T σ α × σ
  | ret a, s => (ret a, s)
  | read k, s => (k s).advance now s
  | modify f k, s => k.advance now (f s)
  | clock k, s => (k now).advance now s
  | await c k, s => (await c k, s)
  | timeout b c k, s => (timeout b c k, s)

end Fiber

/-- How a wait ends. -/
inductive Event (Call : Type) (Reply : Call → Type) where
  | reply (bound : Option Nat) (c : Call) (r : Reply c)
  | elapsed (bound : Nat) (c : Call)

def Event.bound : Event Call Reply → Option Nat
  | reply b _ _ => b
  | elapsed b _ => some b

def Event.call : Event Call Reply → Call
  | reply _ c _ => c
  | elapsed _ c => c

/-- One ended wait, with the shared state and the time the fiber went on with. -/
structure Wake (Call : Type) (Reply : Call → Type) (T σ : Type) where
  before : σ
  now : T
  event : Event Call Reply

/-- The wait `t` is suspended at ends with `e`, and `t'` is to be run. -/
inductive Fiber.Resumes : Fiber Call Reply T σ α → Event Call Reply → Fiber Call Reply T σ α →
    Prop where
  | await (c k r) : Resumes (.await c k) (.reply none c r) (k r)
  | inTime (b c k r) : Resumes (.timeout b c k) (.reply (some b) c r) (k (some r))
  | elapsed (b c k) : Resumes (.timeout b c k) (.elapsed b c) (k none)

/-! ## The machine -/

structure Thread (Call : Type) (Reply : Call → Type) (T σ ι α : Type) where
  input : ι
  /-- The shared state the first segment read. -/
  seen : σ
  start : T
  log : List (Wake Call Reply T σ)
  fiber : Fiber Call Reply T σ α

structure Machine (Call : Type) (Reply : Call → Type) (T σ ι α : Type) where
  shared : σ
  threads : List (Thread Call Reply T σ ι α)

/-- The bounds of the waits the thread has begun, the pending one last. -/
def Thread.waits (th : Thread Call Reply T σ ι α) : List (Option Nat) :=
  th.log.map (·.event.bound) ++ (th.fiber.pending.map Prod.fst).toList

inductive Label (Call : Type) (Reply : Call → Type) (T ι : Type) where
  | spawn (input : ι) (now : T)
  | wake (thread : Nat) (event : Event Call Reply) (now : T)

inductive Step (body : ι → Fiber Call Reply T σ α) :
    Machine Call Reply T σ ι α → Label Call Reply T ι → Machine Call Reply T σ ι α → Prop where
  | spawn (m i now) :
    Step body m (.spawn i now)
      { shared := ((body i).advance now m.shared).2
        threads := m.threads ++ [⟨i, m.shared, now, [], ((body i).advance now m.shared).1⟩] }
  | wake (m : Machine Call Reply T σ ι α) (j th e t now) (hth : m.threads[j]? = some th)
      (hr : th.fiber.Resumes e t) :
    Step body m (.wake j e now)
      { shared := (t.advance now m.shared).2
        threads := m.threads.set j
          { th with log := th.log ++ [⟨m.shared, now, e⟩], fiber := (t.advance now m.shared).1 } }

/-! ## A fiber along its log -/

/-- From shared state `s` at `now` the fiber `t`, with its waits ending as in
`log`, gets to `u`, leaving `s'` at `now'`. -/
inductive Fiber.Follows : Fiber Call Reply T σ α → σ → T → List (Wake Call Reply T σ) →
    Fiber Call Reply T σ α → σ → T → Prop where
  | ret {a s n} : Follows (.ret a) s n [] (.ret a) s n
  | read {k s n log u s' n'} : Follows (k s) s n log u s' n' → Follows (.read k) s n log u s' n'
  | modify {f k s n log u s' n'} : Follows k (f s) n log u s' n' →
    Follows (.modify f k) s n log u s' n'
  | clock {k s n log u s' n'} : Follows (k n) s n log u s' n' → Follows (.clock k) s n log u s' n'
  | awaiting {c k s n} : Follows (.await c k) s n [] (.await c k) s n
  | bounded {b c k s n} : Follows (.timeout b c k) s n [] (.timeout b c k) s n
  | await {c k s n r s₁ n₁ log u s' n'} : Follows (k r) s₁ n₁ log u s' n' →
    Follows (.await c k) s n (⟨s₁, n₁, .reply none c r⟩ :: log) u s' n'
  | inTime {b c k s n r s₁ n₁ log u s' n'} : Follows (k (some r)) s₁ n₁ log u s' n' →
    Follows (.timeout b c k) s n (⟨s₁, n₁, .reply (some b) c r⟩ :: log) u s' n'
  | elapsed {b c k s n s₁ n₁ log u s' n'} : Follows (k none) s₁ n₁ log u s' n' →
    Follows (.timeout b c k) s n (⟨s₁, n₁, .elapsed b c⟩ :: log) u s' n'

theorem Fiber.follows_advance (t : Fiber Call Reply T σ α) (s : σ) (n : T) :
    t.Follows s n [] (t.advance n s).1 (t.advance n s).2 n := by
  induction t generalizing s with
  | ret a => exact .ret
  | read k ih => exact .read (ih s s)
  | modify f k ih => exact .modify (ih (f s))
  | clock k ih => exact .clock (ih n s)
  | await c k _ => exact .awaiting
  | timeout b c k _ => exact .bounded

theorem Fiber.Follows.wake {t u v : Fiber Call Reply T σ α} {s s' : σ} {n n' : T} {log e}
    (h : t.Follows s n log u s' n') (hr : u.Resumes e v) (s₁ : σ) (n₁ : T) :
    t.Follows s n (log ++ [⟨s₁, n₁, e⟩]) (v.advance n₁ s₁).1 (v.advance n₁ s₁).2 n₁ := by
  induction h with
  | ret => cases hr
  | read _ ih => exact .read (ih hr)
  | modify _ ih => exact .modify (ih hr)
  | clock _ ih => exact .clock (ih hr)
  | awaiting =>
    cases hr
    exact .await (Fiber.follows_advance _ _ _)
  | bounded =>
    cases hr with
    | inTime => exact .inTime (Fiber.follows_advance _ _ _)
    | elapsed => exact .elapsed (Fiber.follows_advance _ _ _)
  | await _ ih => exact .await (ih hr)
  | inTime _ ih => exact .inTime (ih hr)
  | elapsed _ ih => exact .elapsed (ih hr)

/-- Each thread is its body read along its log. -/
def Machine.Followed (body : ι → Fiber Call Reply T σ α) (m : Machine Call Reply T σ ι α) : Prop :=
  ∀ th ∈ m.threads, ∃ s' n', (body th.input).Follows th.seen th.start th.log th.fiber s' n'

theorem Machine.Followed.step {body : ι → Fiber Call Reply T σ α}
    {m m' : Machine Call Reply T σ ι α} {l}
    (h : m.Followed body) (hs : Step body m l m') : m'.Followed body := by
  intro th hth
  cases hs with
  | spawn i now =>
    rcases List.mem_append.1 hth with hth | hth
    · exact h th hth
    · obtain rfl := List.mem_singleton.1 hth
      exact ⟨_, _, Fiber.follows_advance _ _ _⟩
  | wake j th₀ e t now hj hr =>
    rcases List.mem_or_eq_of_mem_set hth with hth | rfl
    · exact h th hth
    · obtain ⟨_, _, h₀⟩ := h th₀ (List.mem_of_getElem? hj)
      exact ⟨_, _, h₀.wake hr _ _⟩

theorem followed_of_run {body : ι → Fiber Call Reply T σ α} {s₀ : σ}
    {m : Machine Call Reply T σ ι α} {ls}
    (h : Run (Step body) ⟨s₀, []⟩ ls m) : m.Followed body :=
  h.invariant (fun _ hth => absurd hth List.not_mem_nil) fun h hs => h.step hs

/-! ## Taking a fiber apart -/

/-- The fiber returns `a` after the waits of `log`. -/
def Fiber.Ends (t : Fiber Call Reply T σ α) (s : σ) (n : T) (log : List (Wake Call Reply T σ))
    (a : α)
    (s' : σ) (n' : T) : Prop :=
  t.Follows s n log (.ret a) s' n'

/-- After the waits of `log` the fiber waits for `c`, within `bound`. -/
def Fiber.Waits (t : Fiber Call Reply T σ α) (s : σ) (n : T) (log : List (Wake Call Reply T σ))
    (bound : Option Nat) (c : Call) : Prop :=
  ∃ u s' n', t.Follows s n log u s' n' ∧ u.pending = some (bound, c)

/-- A fiber read along a log has returned or waits. -/
theorem Fiber.Follows.ends_or_waits {t u : Fiber Call Reply T σ α} {s s' n n' log}
    (h : t.Follows s n log u s' n') :
    (∃ a, u = .ret a) ∨ ∃ bound c, u.pending = some (bound, c) ∧ t.Waits s n log bound c := by
  suffices hu : (∃ a, u = .ret a) ∨ ∃ w, u.pending = some w by
    rcases hu with hu | ⟨⟨bound, c⟩, hu⟩
    · exact .inl hu
    · exact .inr ⟨bound, c, hu, u, s', n', h, hu⟩
  induction h with
  | ret => exact .inl ⟨_, rfl⟩
  | awaiting | bounded => exact .inr ⟨_, rfl⟩
  | read _ ih | modify _ ih | clock _ ih | await _ ih | inTime _ ih | elapsed _ ih => exact ih

section
variable {s s' : σ} {n n' : T} {log : List (Wake Call Reply T σ)} {a : α} {bound : Option Nat}
    {c' : Call}

@[simp] theorem ends_ret {x : α} :
    (Fiber.ret x : Fiber Call Reply T σ α).Ends s n log a s' n' ↔
      log = [] ∧ x = a ∧ s' = s ∧ n' = n := by
  constructor
  · rintro ⟨⟩
    exact ⟨rfl, rfl, rfl, rfl⟩
  · rintro ⟨rfl, rfl, rfl, rfl⟩
    exact .ret

@[simp] theorem ends_read {k : σ → Fiber Call Reply T σ α} :
    (Fiber.read k).Ends s n log a s' n' ↔ (k s).Ends s n log a s' n' :=
  ⟨fun | .read h => h, .read⟩

@[simp] theorem ends_modify {f : σ → σ} {k : Fiber Call Reply T σ α} :
    (Fiber.modify f k).Ends s n log a s' n' ↔ k.Ends (f s) n log a s' n' :=
  ⟨fun | .modify h => h, .modify⟩

@[simp] theorem ends_clock {k : T → Fiber Call Reply T σ α} :
    (Fiber.clock k).Ends s n log a s' n' ↔ (k n).Ends s n log a s' n' :=
  ⟨fun | .clock h => h, .clock⟩

theorem ends_await {c : Call} {k : Reply c → Fiber Call Reply T σ α} :
    (Fiber.await c k).Ends s n log a s' n' ↔
      ∃ r s₁ n₁ rest, log = ⟨s₁, n₁, .reply none c r⟩ :: rest ∧ (k r).Ends s₁ n₁ rest a s' n' := by
  constructor
  · rintro (_ | _ | _ | _ | _ | _ | h)
    exact ⟨_, _, _, _, rfl, h⟩
  · rintro ⟨r, s₁, n₁, rest, rfl, h⟩
    exact .await h

theorem ends_timeout {b : Nat} {c : Call} {k : Option (Reply c) → Fiber Call Reply T σ α} :
    (Fiber.timeout b c k).Ends s n log a s' n' ↔
      (∃ r s₁ n₁ rest, log = ⟨s₁, n₁, .reply (some b) c r⟩ :: rest ∧
        (k (some r)).Ends s₁ n₁ rest a s' n') ∨
      ∃ s₁ n₁ rest, log = ⟨s₁, n₁, .elapsed b c⟩ :: rest ∧ (k none).Ends s₁ n₁ rest a s' n' := by
  constructor
  · rintro (_ | _ | _ | _ | _ | _ | _ | h | h)
    · exact .inl ⟨_, _, _, _, rfl, h⟩
    · exact .inr ⟨_, _, _, rfl, h⟩
  · rintro (⟨r, s₁, n₁, rest, rfl, h⟩ | ⟨s₁, n₁, rest, rfl, h⟩)
    · exact .inTime h
    · exact .elapsed h

@[simp] theorem not_waits_ret {x : α} :
    ¬(Fiber.ret x : Fiber Call Reply T σ α).Waits s n log bound c' := by
  rintro ⟨u, s', n', ⟨⟩, hu⟩
  cases hu

@[simp] theorem waits_read {k : σ → Fiber Call Reply T σ α} :
    (Fiber.read k).Waits s n log bound c' ↔ (k s).Waits s n log bound c' :=
  ⟨fun ⟨u, s', n', .read h, hu⟩ => ⟨u, s', n', h, hu⟩,
    fun ⟨u, s', n', h, hu⟩ => ⟨u, s', n', .read h, hu⟩⟩

@[simp] theorem waits_modify {f : σ → σ} {k : Fiber Call Reply T σ α} :
    (Fiber.modify f k).Waits s n log bound c' ↔ k.Waits (f s) n log bound c' :=
  ⟨fun ⟨u, s', n', .modify h, hu⟩ => ⟨u, s', n', h, hu⟩,
    fun ⟨u, s', n', h, hu⟩ => ⟨u, s', n', .modify h, hu⟩⟩

@[simp] theorem waits_clock {k : T → Fiber Call Reply T σ α} :
    (Fiber.clock k).Waits s n log bound c' ↔ (k n).Waits s n log bound c' :=
  ⟨fun ⟨u, s', n', .clock h, hu⟩ => ⟨u, s', n', h, hu⟩,
    fun ⟨u, s', n', h, hu⟩ => ⟨u, s', n', .clock h, hu⟩⟩

theorem waits_await {c : Call} {k : Reply c → Fiber Call Reply T σ α} :
    (Fiber.await c k).Waits s n log bound c' ↔
      (log = [] ∧ bound = none ∧ c' = c) ∨
      ∃ r s₁ n₁ rest, log = ⟨s₁, n₁, .reply none c r⟩ :: rest ∧
        (k r).Waits s₁ n₁ rest bound c' := by
  constructor
  · rintro ⟨u, s', n', h, hu⟩
    cases h with
    | awaiting =>
      cases hu
      exact .inl ⟨rfl, rfl, rfl⟩
    | await h => exact .inr ⟨_, _, _, _, rfl, u, s', n', h, hu⟩
  · rintro (⟨rfl, rfl, rfl⟩ | ⟨r, s₁, n₁, rest, rfl, u, s', n', h, hu⟩)
    · exact ⟨_, _, _, .awaiting, rfl⟩
    · exact ⟨u, s', n', .await h, hu⟩

theorem waits_timeout {b : Nat} {c : Call} {k : Option (Reply c) → Fiber Call Reply T σ α} :
    (Fiber.timeout b c k).Waits s n log bound c' ↔
      (log = [] ∧ bound = some b ∧ c' = c) ∨
      (∃ r s₁ n₁ rest, log = ⟨s₁, n₁, .reply (some b) c r⟩ :: rest ∧
        (k (some r)).Waits s₁ n₁ rest bound c') ∨
      ∃ s₁ n₁ rest, log = ⟨s₁, n₁, .elapsed b c⟩ :: rest ∧ (k none).Waits s₁ n₁ rest bound c' := by
  constructor
  · rintro ⟨u, s', n', h, hu⟩
    cases h with
    | bounded =>
      cases hu
      exact .inl ⟨rfl, rfl, rfl⟩
    | inTime h => exact .inr (.inl ⟨_, _, _, _, rfl, u, s', n', h, hu⟩)
    | elapsed h => exact .inr (.inr ⟨_, _, _, rfl, u, s', n', h, hu⟩)
  · rintro (⟨rfl, rfl, rfl⟩ | ⟨r, s₁, n₁, rest, rfl, u, s', n', h, hu⟩ |
      ⟨s₁, n₁, rest, rfl, u, s', n', h, hu⟩)
    · exact ⟨_, _, _, .bounded, rfl⟩
    · exact ⟨u, s', n', .inTime h, hu⟩
    · exact ⟨u, s', n', .elapsed h, hu⟩

end

/-! ## Sequencing -/

section
variable {s s' : σ} {n n' : T} {log : List (Wake Call Reply T σ)} {t : Fiber Call Reply T σ α}
  {f : α → Fiber Call Reply T σ β}

/-- `bind` is suspended in its first fiber, or past it. -/
theorem Fiber.Follows.of_bind {u : Fiber Call Reply T σ β}
    (h : (t.bind f).Follows s n log u s' n') :
    (∃ v, t.Follows s n log v s' n' ∧ v.pending = u.pending ∧ u.pending ≠ none) ∨
    ∃ log₁ log₂ a s₁ n₁, log = log₁ ++ log₂ ∧ t.Ends s n log₁ a s₁ n₁ ∧
      (f a).Follows s₁ n₁ log₂ u s' n' := by
  induction t generalizing s n log with
  | ret a => exact .inr ⟨[], log, a, s, n, rfl, .ret, h⟩
  | read k ih =>
    cases h with
    | read h =>
      rcases ih s h with ⟨v, hv, hp⟩ | ⟨log₁, log₂, a, s₁, n₁, hlog, h₁, h₂⟩
      · exact .inl ⟨v, .read hv, hp⟩
      · exact .inr ⟨log₁, log₂, a, s₁, n₁, hlog, .read h₁, h₂⟩
  | modify g k ih =>
    cases h with
    | modify h =>
      rcases ih h with ⟨v, hv, hp⟩ | ⟨log₁, log₂, a, s₁, n₁, hlog, h₁, h₂⟩
      · exact .inl ⟨v, .modify hv, hp⟩
      · exact .inr ⟨log₁, log₂, a, s₁, n₁, hlog, .modify h₁, h₂⟩
  | clock k ih =>
    cases h with
    | clock h =>
      rcases ih n h with ⟨v, hv, hp⟩ | ⟨log₁, log₂, a, s₁, n₁, hlog, h₁, h₂⟩
      · exact .inl ⟨v, .clock hv, hp⟩
      · exact .inr ⟨log₁, log₂, a, s₁, n₁, hlog, .clock h₁, h₂⟩
  | await c k ih =>
    cases h with
    | awaiting => exact .inl ⟨_, .awaiting, rfl, by simp [pending]⟩
    | await h =>
      rcases ih _ h with ⟨v, hv, hp⟩ | ⟨log₁, log₂, a, s₁, n₁, rfl, h₁, h₂⟩
      · exact .inl ⟨v, .await hv, hp⟩
      · exact .inr ⟨_ :: log₁, log₂, a, s₁, n₁, rfl, .await h₁, h₂⟩
  | timeout b c k ih =>
    cases h with
    | bounded => exact .inl ⟨_, .bounded, rfl, by simp [pending]⟩
    | inTime h =>
      rcases ih _ h with ⟨v, hv, hp⟩ | ⟨log₁, log₂, a, s₁, n₁, rfl, h₁, h₂⟩
      · exact .inl ⟨v, .inTime hv, hp⟩
      · exact .inr ⟨_ :: log₁, log₂, a, s₁, n₁, rfl, .inTime h₁, h₂⟩
    | elapsed h =>
      rcases ih _ h with ⟨v, hv, hp⟩ | ⟨log₁, log₂, a, s₁, n₁, rfl, h₁, h₂⟩
      · exact .inl ⟨v, .elapsed hv, hp⟩
      · exact .inr ⟨_ :: log₁, log₂, a, s₁, n₁, rfl, .elapsed h₁, h₂⟩

theorem Fiber.Ends.of_bind {b : β} (h : (t >>= f).Ends s n log b s' n') :
    ∃ log₁ log₂ a s₁ n₁, log = log₁ ++ log₂ ∧ t.Ends s n log₁ a s₁ n₁ ∧
      (f a).Ends s₁ n₁ log₂ b s' n' := by
  rcases Fiber.Follows.of_bind h with ⟨_, _, _, hne⟩ | h
  · exact absurd rfl hne
  · exact h

theorem Fiber.Waits.of_bind {bound : Option Nat} {c : Call} (h : (t >>= f).Waits s n log bound c) :
    t.Waits s n log bound c ∨
    ∃ log₁ log₂ a s₁ n₁, log = log₁ ++ log₂ ∧ t.Ends s n log₁ a s₁ n₁ ∧
      (f a).Waits s₁ n₁ log₂ bound c := by
  obtain ⟨u, s', n', h, hu⟩ := h
  rcases Fiber.Follows.of_bind h with ⟨v, hv, hp, _⟩ | ⟨log₁, log₂, a, s₁, n₁, hlog, h₁, h₂⟩
  · exact .inl ⟨v, s', n', hv, hp.trans hu⟩
  · exact .inr ⟨log₁, log₂, a, s₁, n₁, hlog, h₁, u, s', n', h₂, hu⟩

/-- A fiber that returns right after `t` waits where `t` waits. -/
theorem Fiber.Ends.of_bind_ret {g : α → β} {b : β}
    (h : (t >>= fun a => .ret (g a)).Ends s n log b s' n') :
    ∃ a, t.Ends s n log a s' n' ∧ g a = b := by
  obtain ⟨log₁, log₂, a, s₁, n₁, rfl, h₁, h₂⟩ := Fiber.Ends.of_bind h
  obtain ⟨rfl, rfl, rfl, rfl⟩ := ends_ret.1 h₂
  rw [List.append_nil]
  exact ⟨a, h₁, rfl⟩

theorem Fiber.Waits.of_bind_ret {g : α → β} {bound : Option Nat} {c : Call}
    (h : (t >>= fun a => .ret (g a)).Waits s n log bound c) : t.Waits s n log bound c := by
  rcases Fiber.Waits.of_bind h with h | ⟨_, _, _, _, _, _, _, h⟩
  · exact h
  · exact absurd h not_waits_ret

end

/-! ## Invariants of the shared state -/

section
variable (I : σ → Prop) (ok : (c : Call) → Reply c → Prop)

/-- As long as replies are `ok` the fiber's updates keep `I`, whatever it reads. -/
def Fiber.Preserves : Fiber Call Reply T σ α → Prop
  | ret _ => True
  | read k => ∀ s, (k s).Preserves
  | modify f k => (∀ s, I s → I (f s)) ∧ k.Preserves
  | clock k => ∀ t, (k t).Preserves
  | await c k => ∀ r, ok c r → (k r).Preserves
  | timeout _ c k => (∀ r, ok c r → (k (some r)).Preserves) ∧ (k none).Preserves

def Event.Ok : Event Call Reply → Prop
  | reply _ c r => ok c r
  | elapsed _ _ => True

def Label.Ok : Label Call Reply T ι → Prop
  | spawn _ _ => True
  | wake _ e _ => e.Ok ok

/-- What the threads have left to run keeps `I`. -/
def Machine.Preserves (m : Machine Call Reply T σ ι α) : Prop :=
  ∀ th ∈ m.threads, th.fiber.Preserves I ok

/-- Every wake so far found `I`. -/
def Machine.Logged (m : Machine Call Reply T σ ι α) : Prop :=
  ∀ th ∈ m.threads, ∀ w ∈ th.log, I w.before ∧ w.event.Ok ok

end

section
variable {I : σ → Prop} {ok : (c : Call) → Reply c → Prop}

theorem Fiber.Preserves.bind {t : Fiber Call Reply T σ α} {f : α → Fiber Call Reply T σ β}
    (ht : t.Preserves I ok) (hf : ∀ a, (f a).Preserves I ok) : (t.bind f).Preserves I ok := by
  induction t with
  | ret a => exact hf a
  | read k ih => exact fun s => ih s (ht s)
  | modify g k ih => exact ⟨ht.1, ih ht.2⟩
  | clock k ih => exact fun t => ih t (ht t)
  | await c k ih => exact fun r hr => ih r (ht r hr)
  | timeout b c k ih => exact ⟨fun r hr => ih _ (ht.1 r hr), ih _ ht.2⟩

theorem Fiber.Preserves.advance {t : Fiber Call Reply T σ α} (ht : t.Preserves I ok) (s : σ)
    (n : T) : (t.advance n s).1.Preserves I ok ∧ (I s → I (t.advance n s).2) := by
  induction t generalizing s with
  | ret a => exact ⟨ht, id⟩
  | read k ih => exact ih s (ht s) s
  | modify g k ih => exact ⟨(ih ht.2 (g s)).1, fun hs => (ih ht.2 (g s)).2 (ht.1 s hs)⟩
  | clock k ih => exact ih n (ht n) s
  | await c k _ => exact ⟨ht, id⟩
  | timeout b c k _ => exact ⟨ht, id⟩

theorem Fiber.Preserves.resumes {u v : Fiber Call Reply T σ α} {e : Event Call Reply}
    (hu : u.Preserves I ok) (hr : u.Resumes e v) (he : e.Ok ok) : v.Preserves I ok := by
  cases hr with
  | await c k r => exact hu r he
  | inTime b c k r => exact hu.1 r he
  | elapsed b c k => exact hu.2

variable {body : ι → Fiber Call Reply T σ α} {m m' : Machine Call Reply T σ ι α}

theorem Machine.Preserves.step (hbody : ∀ i, (body i).Preserves I ok) {l} (hl : l.Ok ok)
    (h : m.Preserves I ok) (hs : Step body m l m') :
    m'.Preserves I ok ∧ (I m.shared → I m'.shared) := by
  cases hs with
  | spawn i now =>
    obtain ⟨hfiber, hshared⟩ := (hbody i).advance m.shared now
    refine ⟨fun th hth => ?_, hshared⟩
    rcases List.mem_append.1 hth with hth | hth
    · exact h th hth
    · obtain rfl := List.mem_singleton.1 hth
      exact hfiber
  | wake j th₀ e t now hj hr =>
    obtain ⟨hfiber, hshared⟩ :=
      ((h th₀ (List.mem_of_getElem? hj)).resumes hr hl).advance m.shared now
    refine ⟨fun th hth => ?_, hshared⟩
    rcases List.mem_or_eq_of_mem_set hth with hth | rfl
    · exact h th hth
    · exact hfiber

theorem Machine.Logged.step {l} (hl : l.Ok ok) (h : m.Logged I ok) (hI : I m.shared)
    (hs : Step body m l m') : m'.Logged I ok := by
  intro th hth w hw
  cases hs with
  | spawn i now =>
    rcases List.mem_append.1 hth with hth | hth
    · exact h th hth w hw
    · obtain rfl := List.mem_singleton.1 hth
      exact absurd hw List.not_mem_nil
  | wake j th₀ e t now hj hr =>
    rcases List.mem_or_eq_of_mem_set hth with hth | rfl
    · exact h th hth w hw
    · rcases List.mem_append.1 hw with hw | hw
      · exact h th₀ (List.mem_of_getElem? hj) w hw
      · obtain rfl := List.mem_singleton.1 hw
        exact ⟨hI, hl⟩

theorem preserves_of_run (hbody : ∀ i, (body i).Preserves I ok) {s₀ : σ} {ls}
    (hls : ∀ l ∈ ls, l.Ok ok) (hrun : Run (Step body) ⟨s₀, []⟩ ls m) : m.Preserves I ok :=
  hrun.invariant_on hls (fun _ hth => absurd hth List.not_mem_nil)
    fun hl h hs => (h.step hbody hl hs).1

/-- From a state with `I` on, a run keeps it. -/
theorem Machine.Preserves.run (hbody : ∀ i, (body i).Preserves I ok) {ls}
    (hls : ∀ l ∈ ls, l.Ok ok) (h : m.Preserves I ok) (hI : I m.shared)
    (hrun : Run (Step body) m ls m') : I m'.shared := by
  have hinv : m'.Preserves I ok ∧ I m'.shared := by
    refine hrun.invariant_on (I := fun m => m.Preserves I ok ∧ I m.shared) hls ⟨h, hI⟩
      fun hl hi hs => ?_
    obtain ⟨hfibers, hshared⟩ := hi.1.step hbody hl hs
    exact ⟨hfibers, hshared hi.2⟩
  exact hinv.2

theorem logged_of_run (hbody : ∀ i, (body i).Preserves I ok) {s₀ : σ} (h0 : I s₀) {ls}
    (hls : ∀ l ∈ ls, l.Ok ok) (hrun : Run (Step body) ⟨s₀, []⟩ ls m) :
    I m.shared ∧ m.Logged I ok := by
  have hinv : m.Preserves I ok ∧ I m.shared ∧ m.Logged I ok := by
    refine hrun.invariant_on (I := fun m => m.Preserves I ok ∧ I m.shared ∧ m.Logged I ok) hls ?_
      fun hl hi hs => ?_
    · exact ⟨fun _ hth => absurd hth List.not_mem_nil, h0,
        fun _ hth => absurd hth List.not_mem_nil⟩
    · obtain ⟨hfibers, hshared⟩ := hi.1.step hbody hl hs
      exact ⟨hfibers, hshared hi.2.1, hi.2.2.step hl hi.2.1 hs⟩
  exact hinv.2

end

/-! ## Alone -/

/-- The fiber with nobody beside it, its calls answered out of a state of its callee's. -/
def Fiber.alone {W : Type} (answer : (c : Call) → W → Reply c × W) (now : T) :
    Fiber Call Reply T σ α → σ → W → α × σ × W
  | ret a, s, w => (a, s, w)
  | read k, s, w => (k s).alone answer now s w
  | modify f k, s, w => k.alone answer now (f s) w
  | clock k, s, w => (k now).alone answer now s w
  | await c k, s, w => (k (answer c w).1).alone answer now s (answer c w).2
  | timeout _ c k, s, w => (k (some (answer c w).1)).alone answer now s (answer c w).2

theorem Fiber.alone_bind {W : Type} {answer : (c : Call) → W → Reply c × W} {now : T}
    (t : Fiber Call Reply T σ α) (f : α → Fiber Call Reply T σ β) (s : σ) (w : W) :
    (t.bind f).alone answer now s w =
      (f (t.alone answer now s w).1).alone answer now (t.alone answer now s w).2.1
        (t.alone answer now s w).2.2 := by
  induction t generalizing s w with
  | ret a => rfl
  | read k ih => exact ih s s w
  | modify g k ih => exact ih (g s) w
  | clock k ih => exact ih now s w
  | await c k ih => exact ih _ s _
  | timeout b c k ih => exact ih _ s _

/-! ## What a reply leaves behind -/

section
variable (E : (c : Call) → Reply c → σ → Prop) (P : Option Nat → Call → Prop)

/-- Whenever a call is answered, the fiber runs on to a state with `E`. -/
def Fiber.Delivers : Fiber Call Reply T σ α → Prop
  | ret _ => True
  | read k => ∀ s, (k s).Delivers
  | modify _ k => k.Delivers
  | clock k => ∀ t, (k t).Delivers
  | await c k => ∀ r, (∀ n s, E c r ((k r).advance n s).2) ∧ (k r).Delivers
  | timeout _ c k =>
    (∀ r, (∀ n s, E c r ((k (some r)).advance n s).2) ∧ (k (some r)).Delivers) ∧
      (k none).Delivers

/-- All the fiber's calls, with their bounds, are among `P`. -/
def Fiber.Calls : Fiber Call Reply T σ α → Prop
  | ret _ => True
  | read k => ∀ s, (k s).Calls
  | modify _ k => k.Calls
  | clock k => ∀ t, (k t).Calls
  | await c k => P none c ∧ ∀ r, (k r).Calls
  | timeout b c k => P (some b) c ∧ ∀ r, (k r).Calls

end

section
variable {E : (c : Call) → Reply c → σ → Prop} {P : Option Nat → Call → Prop}

theorem Fiber.Delivers.advance {t : Fiber Call Reply T σ α} (ht : t.Delivers E) (s : σ) (n : T) :
    (t.advance n s).1.Delivers E := by
  induction t generalizing s with
  | ret a => exact ht
  | read k ih => exact ih s (ht s) s
  | modify g k ih => exact ih ht (g s)
  | clock k ih => exact ih n (ht n) s
  | await c k _ => exact ht
  | timeout b c k _ => exact ht

theorem Fiber.Delivers.resumes {u v : Fiber Call Reply T σ α} {e : Event Call Reply}
    (hu : u.Delivers E) (hr : u.Resumes e v) :
    v.Delivers E ∧ ∀ bound c r, e = .reply bound c r → ∀ n s, E c r (v.advance n s).2 := by
  cases hr with
  | await c k r =>
    refine ⟨(hu r).2, fun bound c' r' he => ?_⟩
    cases he
    exact (hu r).1
  | inTime b c k r =>
    refine ⟨(hu.1 r).2, fun bound c' r' he => ?_⟩
    cases he
    exact (hu.1 r).1
  | elapsed b c k => exact ⟨hu.2, fun _ _ _ he => nomatch he⟩

/-- What holds where `t` suspends or returns still holds where `t.bind f` does. -/
theorem Fiber.Preserves.advance_bind {I : σ → Prop} {ok : (c : Call) → Reply c → Prop}
    {f : α → Fiber Call Reply T σ β} (hf : ∀ a, (f a).Preserves I ok)
    {t : Fiber Call Reply T σ α} {s : σ} {n : T} (h : I (t.advance n s).2) :
    I ((t.bind f).advance n s).2 := by
  induction t generalizing s with
  | ret a => exact ((hf a).advance s n).2 h
  | read k ih => exact ih s h
  | modify g k ih => exact ih h
  | clock k ih => exact ih n h
  | await c k _ => exact h
  | timeout b c k _ => exact h

theorem Fiber.Delivers.bind {t : Fiber Call Reply T σ α}
    {f : α → Fiber Call Reply T σ β} (ht : t.Delivers E) (hf : ∀ a, (f a).Delivers E)
    (hkept : ∀ c r a, (f a).Preserves (E c r) fun _ _ => True) : (t.bind f).Delivers E := by
  induction t with
  | ret a => exact hf a
  | read k ih => exact fun s => ih s (ht s)
  | modify g k ih => exact ih ht
  | clock k ih => exact fun t => ih t (ht t)
  | await c k ih =>
    exact fun r => ⟨fun n s => Fiber.Preserves.advance_bind (hkept c r) ((ht r).1 n s),
      ih r (ht r).2⟩
  | timeout b c k ih =>
    exact ⟨fun r => ⟨fun n s => Fiber.Preserves.advance_bind (hkept c r) ((ht.1 r).1 n s),
      ih _ (ht.1 r).2⟩, ih _ ht.2⟩

theorem Fiber.Delivers.bind_ret {t : Fiber Call Reply T σ α} (ht : t.Delivers E) (g : α → β) :
    (t.bind fun a => .ret (g a)).Delivers E :=
  ht.bind (fun _ => trivial) fun _ _ _ => trivial

theorem Fiber.Calls.advance {t : Fiber Call Reply T σ α} (ht : t.Calls P) (s : σ) (n : T) :
    (t.advance n s).1.Calls P := by
  induction t generalizing s with
  | ret a => exact ht
  | read k ih => exact ih s (ht s) s
  | modify g k ih => exact ih ht (g s)
  | clock k ih => exact ih n (ht n) s
  | await c k _ => exact ht
  | timeout b c k _ => exact ht

theorem Fiber.Calls.bind {t : Fiber Call Reply T σ α} {f : α → Fiber Call Reply T σ β}
    (ht : t.Calls P) (hf : ∀ a, (f a).Calls P) : (t.bind f).Calls P := by
  induction t with
  | ret a => exact hf a
  | read k ih => exact fun s => ih s (ht s)
  | modify g k ih => exact ih ht
  | clock k ih => exact fun t => ih t (ht t)
  | await c k ih => exact ⟨ht.1, fun r => ih r (ht.2 r)⟩
  | timeout b c k ih => exact ⟨ht.1, fun r => ih r (ht.2 r)⟩

/-- The call a resumed fiber had made, and those it has left. -/
theorem Fiber.Calls.resumes {u v : Fiber Call Reply T σ α} {e : Event Call Reply}
    (hu : u.Calls P) (hr : u.Resumes e v) : P e.bound e.call ∧ v.Calls P := by
  cases hr with
  | await c k r => exact ⟨hu.1, hu.2 r⟩
  | inTime b c k r => exact ⟨hu.1, hu.2 (some r)⟩
  | elapsed b c k => exact ⟨hu.1, hu.2 none⟩

theorem Fiber.Calls.pending {u : Fiber Call Reply T σ α} (hu : u.Calls P) {bound : Option Nat}
    {c : Call} (h : u.pending = some (bound, c)) : P bound c := by
  cases u with
  | ret | read | modify | clock => cases h
  | await | timeout =>
    cases h
    exact hu.1

variable {body : ι → Fiber Call Reply T σ α} {m m' : Machine Call Reply T σ ι α}

/-- The calls of every thread are among those its start allows. -/
def Machine.CallsWithin (P : ι → σ → T → Option Nat → Call → Prop)
    (m : Machine Call Reply T σ ι α) : Prop :=
  ∀ th ∈ m.threads, th.fiber.Calls (P th.input th.seen th.start) ∧
    ∀ x ∈ th.log, P th.input th.seen th.start x.event.bound x.event.call

theorem Machine.CallsWithin.step {P : ι → σ → T → Option Nat → Call → Prop}
    (hbody : ∀ i s n, ((body i).advance n s).1.Calls (P i s n)) {l} (h : m.CallsWithin P)
    (hs : Step body m l m') : m'.CallsWithin P := by
  intro th hth
  cases hs with
  | spawn i now =>
    rcases List.mem_append.1 hth with hth | hth
    · exact h th hth
    · obtain rfl := List.mem_singleton.1 hth
      exact ⟨hbody _ _ _, List.forall_mem_nil _⟩
  | wake j th₀ e t now hj hr =>
    rcases List.mem_or_eq_of_mem_set hth with hth | rfl
    · exact h th hth
    · obtain ⟨hfiber, hlog⟩ := h th₀ (List.mem_of_getElem? hj)
      obtain ⟨hcall, hrest⟩ := hfiber.resumes hr
      refine ⟨hrest.advance _ _, fun x hx => ?_⟩
      rcases List.mem_append.1 hx with hx | hx
      · exact hlog x hx
      · obtain rfl := List.mem_singleton.1 hx
        exact hcall

theorem calls_of_run {P : ι → σ → T → Option Nat → Call → Prop}
    (hbody : ∀ i s n, ((body i).advance n s).1.Calls (P i s n)) {s₀ : σ} {ls}
    (hrun : Run (Step body) ⟨s₀, []⟩ ls m) : m.CallsWithin P :=
  hrun.invariant (fun _ hth => absurd hth List.not_mem_nil) fun h hs => h.step hbody hs

/-- What every thread has left to run delivers. -/
def Machine.Delivers (E : (c : Call) → Reply c → σ → Prop) (m : Machine Call Reply T σ ι α) :
    Prop :=
  ∀ th ∈ m.threads, th.fiber.Delivers E

theorem Machine.Delivers.step (hbody : ∀ i, (body i).Delivers E) {l}
    (h : m.Delivers E) (hs : Step body m l m') :
    m'.Delivers E ∧ ∀ j bound c r now, l = .wake j (.reply bound c r) now → E c r m'.shared := by
  cases hs with
  | spawn i now =>
    refine ⟨fun th hth => ?_, fun _ _ _ _ _ hl => nomatch hl⟩
    rcases List.mem_append.1 hth with hth | hth
    · exact h th hth
    · obtain rfl := List.mem_singleton.1 hth
      exact (hbody i).advance m.shared now
  | wake j th₀ e t now hj hr =>
    obtain ⟨hfiber, hdeliver⟩ := (h th₀ (List.mem_of_getElem? hj)).resumes hr
    refine ⟨fun th hth => ?_, fun j' bound c r now' hl => ?_⟩
    · rcases List.mem_or_eq_of_mem_set hth with hth | rfl
      · exact h th hth
      · exact hfiber.advance m.shared now
    · cases hl
      exact hdeliver bound c r rfl now m.shared

/-- What a reply left behind is still there at the end of the run, if no fiber takes it away. -/
theorem delivered_of_run (hbody : ∀ i, (body i).Delivers E)
    (hkept : ∀ c r i, (body i).Preserves (E c r) fun _ _ => True) {s₀ : σ} {ls}
    (hrun : Run (Step body) ⟨s₀, []⟩ ls m) {j : Nat} {bound : Option Nat} {c : Call} {r : Reply c}
    {now : T} (hl : .wake j (.reply bound c r) now ∈ ls) : E c r m.shared := by
  have hok : ∀ ls : List (Label Call Reply T ι), ∀ l ∈ ls, l.Ok fun _ _ => True := by
    intro ls l _
    cases l with
    | spawn i now => trivial
    | wake j e now => cases e <;> trivial
  obtain ⟨pre, post, rfl⟩ := List.append_of_mem hl
  rw [← List.singleton_append, ← List.append_assoc] at hrun
  obtain ⟨m₂, hpre, hpost⟩ := hrun.of_append
  obtain ⟨m₁, hpre₁, hstep⟩ := hpre.of_append
  have hdelivers : m₁.Delivers E :=
    hpre₁.invariant (fun _ hth => absurd hth List.not_mem_nil) fun h hs => (h.step hbody hs).1
  have hnow : E c r m₂.shared :=
    (hdelivers.step hbody hstep.step_of_singleton).2 j bound c r now rfl
  have hpres := preserves_of_run (hkept c r) (hok _) hpre
  exact hpres.run (hkept c r) (hok _) hnow hpost

end

end Async
