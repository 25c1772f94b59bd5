import DoggyDns.Basic.Toml

/-!
# Environment references

`expand_env` copies a text and replaces each `$`-brace reference by the value
of the variable it names; a malformed or unset reference is an error. A text
is a sequence of `Segment`s, and expanding it renders them. Looked-up values
are not scanned again.

An error is the chain of messages `anyhow` reports, outermost first.
-/

namespace DoggyDns

open Toml

/-- The messages of an `anyhow::Error`. -/
abbrev Error := List String

/-- `anyhow::ensure!`. -/
def ensure (condition : Bool) (message : String) : Except Error Unit :=
  if condition then .ok () else .error [message]

/-- `Context::context` of a `Result`. -/
def context {α : Type} (message : String) : Except Error α → Except Error α
  | .ok a => .ok a
  | .error e => .error (message :: e)

/-- `Context::context` of an `Option`. -/
def required {α : Type} (message : String) : Option α → Except Error α
  | some a => .ok a
  | none => .error [message]

/-! ## Scanning -/

/-- The text splits before and behind the first `sep`. -/
def splitOnce (sep : Char) : Text → Option (Text × Text)
  | [] => none
  | c :: rest =>
    if c = sep then some ([], rest)
    else (splitOnce sep rest).map fun (before, after) => (c :: before, after)

/-- The text splits before and behind the first dollar-brace. -/
def findReference : Text → Option (Text × Text)
  | [] => none
  | c :: rest =>
    if c = '$' ∧ rest.head? = some '\x7b' then some ([], rest.tail)
    else (findReference rest).map fun (literal, after) => (c :: literal, after)

/-- The two characters that open a reference. -/
def opening : Text := ['$', '\x7b']

theorem splitOnce_eq_some {sep : Char} {t before after : Text} :
    splitOnce sep t = some (before, after) ↔ t = before ++ sep :: after ∧ sep ∉ before := by
  induction t generalizing before with
  | nil => simp [splitOnce]
  | cons c rest ih =>
    unfold splitOnce
    split
    next hc =>
      subst hc
      cases before with
      | nil => simp
      | cons b before => simp +contextual [eq_comm]
    next hc =>
      cases before with
      | nil => simp [hc]
      | cons b before =>
        simp only [Option.map_eq_some_iff, Prod.mk.injEq, Prod.exists, List.cons.injEq,
          List.cons_append, List.mem_cons, not_or]
        constructor
        · rintro ⟨x, y, hxy, ⟨rfl, rfl⟩, rfl⟩
          obtain ⟨rfl, hx⟩ := ih.mp hxy
          exact ⟨⟨rfl, rfl⟩, Ne.symm hc, hx⟩
        · rintro ⟨⟨rfl, rfl⟩, -, hb⟩
          exact ⟨before, after, ih.mpr ⟨rfl, hb⟩, ⟨rfl, rfl⟩, rfl⟩

theorem opening_prefix_iff {c : Char} {rest : Text} :
    opening <+: c :: rest ↔ c = '$' ∧ rest.head? = some '\x7b' := by
  cases rest <;> simp [opening, eq_comm]

theorem findReference_eq_none {t : Text} : findReference t = none ↔ ¬ opening <:+: t := by
  induction t with
  | nil => simp [findReference, opening]
  | cons c rest ih =>
    unfold findReference
    rw [List.infix_cons_iff, not_or, ← ih, opening_prefix_iff]
    split
    next h => simp [h]
    next h => simp [h]

theorem findReference_eq_some {t literal after : Text} :
    findReference t = some (literal, after) ↔
      t = literal ++ opening ++ after ∧ ¬ opening <:+: literal := by
  induction t generalizing literal with
  | nil => simp [findReference, opening]
  | cons c rest ih =>
    unfold findReference
    split
    next h =>
      obtain ⟨rfl, hhead⟩ := h
      obtain ⟨rest, rfl⟩ : ∃ r, rest = '\x7b' :: r := by
        cases rest with
        | nil => cases hhead
        | cons d rest => exact ⟨rest, by rw [Option.some.inj hhead]⟩
      cases literal with
      | nil => simp [opening]
      | cons b literal =>
        refine iff_of_false (by simp) ?_
        rintro ⟨ht, hlit⟩
        obtain ⟨rfl, hrest⟩ := List.cons.inj ht
        -- the earlier opening would lie inside the literal
        cases literal with
        | nil => simp [opening] at hrest
        | cons d literal =>
          obtain ⟨rfl, -⟩ := List.cons.inj hrest
          exact hlit (List.infix_cons_iff.mpr (.inl (opening_prefix_iff.mpr ⟨rfl, rfl⟩)))
    next h =>
      cases literal with
      | nil =>
        refine iff_of_false (by simp) ?_
        rintro ⟨ht, -⟩
        obtain ⟨rfl, rfl⟩ := List.cons.inj ht
        exact h ⟨rfl, rfl⟩
      | cons b literal =>
        simp only [Option.map_eq_some_iff, Prod.mk.injEq, Prod.exists, List.cons.injEq,
          List.cons_append, List.infix_cons_iff, not_or]
        constructor
        · rintro ⟨x, y, hxy, ⟨rfl, rfl⟩, rfl⟩
          obtain ⟨rfl, hx⟩ := ih.mp hxy
          refine ⟨⟨rfl, rfl⟩, fun hp => h ?_, hx⟩
          obtain ⟨rfl, hd⟩ := opening_prefix_iff.mp hp
          exact ⟨rfl, by simp [List.head?_append, hd]⟩
        · rintro ⟨⟨rfl, rfl⟩, -, hx⟩
          exact ⟨literal, after, ih.mpr ⟨rfl, hx⟩, ⟨rfl, rfl⟩, rfl⟩

/-! ## Expansion -/

def UNTERMINATED : String := "unterminated $\x7b...\x7d environment reference"

theorem findReference_length {t literal after : Text}
    (h : findReference t = some (literal, after)) : after.length < t.length := by
  rw [(findReference_eq_some.mp h).1]
  simp [opening]
  omega

theorem splitOnce_length {sep : Char} {t before after : Text}
    (h : splitOnce sep t = some (before, after)) : after.length < t.length := by
  rw [(splitOnce_eq_some.mp h).1]
  simp
  omega

section
variable (lookup : Text → Option Text)

/-- The loop of `expand_env`: `output` so far, `rest` to scan. -/
def expandLoop (output rest : Text) : Except Error Text :=
  match _h : findReference rest with
  | none => .ok (output ++ rest)
  | some (literal, after) =>
    match _h' : splitOnce '\x7d' after with
    | none => .error [UNTERMINATED]
    | some (name, rest') =>
      if name.isEmpty then .error ["empty environment reference"]
      else
        match lookup name with
        | none => .error ["environment variable " ++ String.ofList name ++ " is not set"]
        | some resolved => expandLoop (output ++ literal ++ resolved) rest'
  termination_by rest.length
  decreasing_by exact Nat.lt_trans (splitOnce_length _h') (findReference_length _h)

/-- Expand every reference in `value`. -/
def expandEnv (value : Text) : Except Error Text := expandLoop lookup [] value

mutual

def expandValue : Value → Text → Except Error Value
  | .string text, path =>
    (context ("in configuration value " ++ String.ofList path) (expandEnv lookup text)).map .string
  | .table entries, path => (expandEntries entries path).map .table
  | .array items, path => (expandItems items path 0).map .array
  | value, _ => .ok value
  termination_by structural value => value

def expandEntries : List (Text × Value) → Text → Except Error (List (Text × Value))
  | [], _ => .ok []
  | (key, child) :: rest, path => do
    let child ← expandValue child (childPath path key)
    let rest ← expandEntries rest path
    .ok ((key, child) :: rest)
  termination_by structural entries => entries

def expandItems : List Value → Text → Nat → Except Error (List Value)
  | [], _, _ => .ok []
  | item :: rest, path, i => do
    let item ← expandValue item (itemPath path i)
    let rest ← expandItems rest path (i + 1)
    .ok (item :: rest)
  termination_by structural items => items

end

/-- Expand the references in every string of a document. -/
def expandEnvInValue (value : Value) : Except Error Value := expandValue lookup value []

end

/-! ## What an expansion is -/

inductive Segment where
  | literal (text : Text)
  | reference (name : Text)
  deriving DecidableEq, Repr

/-- The text, scanned from the left, is this sequence of literals and references. -/
inductive Splits : Text → List Segment → Prop where
  | literal {t : Text} : ¬ opening <:+: t → Splits t [.literal t]
  | reference {literal name rest : Text} {segments : List Segment} :
    ¬ opening <:+: literal → name ≠ [] → '\x7d' ∉ name → Splits rest segments →
    Splits (literal ++ opening ++ (name ++ '\x7d' :: rest))
      (.literal literal :: .reference name :: segments)

/-- The segments put together, each reference replaced by its variable's value. -/
def render (lookup : Text → Option Text) : List Segment → Option Text
  | [] => some []
  | .literal t :: segments => (render lookup segments).map (t ++ ·)
  | .reference name :: segments => do
    let value ← lookup name
    let rest ← render lookup segments
    some (value ++ rest)

section
variable {lookup : Text → Option Text}

theorem expandLoop_none {output rest : Text} (h : findReference rest = none) :
    expandLoop lookup output rest = .ok (output ++ rest) := by
  unfold expandLoop
  split
  next => rfl
  next h' => cases h.symm.trans h'

theorem expandLoop_some {output rest literal after : Text}
    (h : findReference rest = some (literal, after)) :
    expandLoop lookup output rest =
      match splitOnce '\x7d' after with
      | none => .error [UNTERMINATED]
      | some (name, rest') =>
        if name.isEmpty then .error ["empty environment reference"]
        else
          match lookup name with
          | none => .error ["environment variable " ++ String.ofList name ++ " is not set"]
          | some resolved => expandLoop lookup (output ++ literal ++ resolved) rest' := by
  rw [expandLoop]
  split
  next h' => cases h.symm.trans h'
  next h' =>
    obtain ⟨rfl, rfl⟩ := Prod.mk.inj (Option.some.inj (h.symm.trans h'))
    split
    next hb => rw [hb]
    next hb => rw [hb]

/-- A text whose references are all set expands to its segments put together. -/
theorem expandLoop_of_splits {rest : Text} {segments : List Segment} (hs : Splits rest segments)
    {output text : Text} (hr : render lookup segments = some text) :
    expandLoop lookup output rest = .ok (output ++ text) := by
  induction hs generalizing output text with
  | literal h =>
    obtain rfl : _ = text := by simpa [render] using hr
    exact expandLoop_none (findReference_eq_none.mpr h)
  | reference hlit hname hbrace _ ih =>
    simp only [render, Option.map_eq_some_iff, Option.bind_eq_bind, Option.bind_eq_some_iff,
      Option.some.injEq] at hr
    obtain ⟨_, ⟨value, hv, rest, hrest, rfl⟩, rfl⟩ := hr
    rw [expandLoop_some (findReference_eq_some.mpr ⟨rfl, hlit⟩),
      splitOnce_eq_some.mpr ⟨rfl, hbrace⟩]
    simp only [List.isEmpty_iff, hname, if_false, hv, ih hrest, List.append_assoc]

/-- Nothing else expands. -/
theorem splits_of_expandLoop {output rest out : Text}
    (h : expandLoop lookup output rest = .ok out) :
    ∃ segments text, Splits rest segments ∧ render lookup segments = some text ∧
      out = output ++ text := by
  induction hn : rest.length using Nat.strongRecOn generalizing output rest with
  | _ n ih =>
    cases hf : findReference rest with
    | none =>
      rw [expandLoop_none hf] at h
      exact ⟨[.literal rest], rest, .literal (findReference_eq_none.mp hf), by simp [render],
        (Except.ok.inj h).symm⟩
    | some p =>
      obtain ⟨literal, after⟩ := p
      rw [expandLoop_some hf] at h
      obtain ⟨hrest, hlit⟩ := findReference_eq_some.mp hf
      cases hb : splitOnce '\x7d' after with
      | none => simp [hb] at h
      | some q =>
        obtain ⟨name, rest'⟩ := q
        have hlt : rest'.length < n :=
          hn ▸ Nat.lt_trans (splitOnce_length hb) (findReference_length hf)
        simp only [hb, List.isEmpty_iff] at h
        split at h
        next => cases h
        next hname =>
          cases hv : lookup name with
          | none => simp [hv] at h
          | some value =>
            simp only [hv] at h
            obtain ⟨segments, text, hs, hr, rfl⟩ := ih _ hlt h rfl
            obtain ⟨rfl, hbrace⟩ := splitOnce_eq_some.mp hb
            refine ⟨.literal literal :: .reference name :: segments, literal ++ (value ++ text),
              ?_, by simp [render, hv, hr], by simp⟩
            rw [hrest]
            exact .reference hlit hname hbrace hs

/-- `expand_env` succeeds exactly on texts that split into literals and set references, and
returns them put together. -/
theorem expandEnv_eq_ok {value out : Text} :
    expandEnv lookup value = .ok out ↔
      ∃ segments, Splits value segments ∧ render lookup segments = some out := by
  constructor
  · intro h
    obtain ⟨segments, text, hs, hr, rfl⟩ := splits_of_expandLoop h
    exact ⟨segments, hs, hr⟩
  · rintro ⟨segments, hs, hr⟩
    exact expandLoop_of_splits hs hr

/-- A text is its own expansion in every environment exactly when it opens no reference. -/
theorem expandEnv_eq_self_iff {value : Text} :
    (∀ lookup, expandEnv lookup value = .ok value) ↔ ¬ opening <:+: value := by
  constructor
  · intro h
    obtain ⟨segments, hs, hr⟩ := expandEnv_eq_ok.mp (h fun _ => none)
    cases hs with
    | literal hno => exact hno
    | reference => simp [render] at hr
  · intro hno lookup
    exact expandLoop_none (findReference_eq_none.mpr hno)

/-! ## Expanded documents -/

theorem map_eq_ok {α β : Type} {f : α → β} {x : Except Error α} {b : β} (h : x.map f = .ok b) :
    ∃ a, x = .ok a ∧ f a = b := by
  cases x with
  | error => cases h
  | ok a => exact ⟨a, rfl, Except.ok.inj h⟩

theorem bind_eq_ok {α β : Type} {x : Except Error α} {f : α → Except Error β} {b : β}
    (h : x >>= f = .ok b) : ∃ a, x = .ok a ∧ f a = .ok b := by
  cases x with
  | error => cases h
  | ok a => exact ⟨a, rfl, h⟩

theorem ensure_eq_ok {condition : Bool} {message : String} :
    ensure condition message = .ok () ↔ condition = true := by
  cases condition <;> simp [ensure]

theorem ensure_bind_eq_ok {β : Type} {condition : Bool} {message : String}
    {f : Unit → Except Error β} {b : β} :
    (ensure condition message >>= f) = .ok b ↔ condition = true ∧ f () = .ok b := by
  cases condition <;> simp [ensure, bind, Except.bind]

theorem context_eq_ok {α : Type} {message : String} {x : Except Error α} {a : α} :
    context message x = .ok a ↔ x = .ok a := by
  cases x <;> simp [context]

mutual

/-- An expanded document differs in its strings, each the expansion of the one it was. -/
theorem stringsRel_of_expandValue : ∀ (v w : Value) (path : Text),
    expandValue lookup v path = .ok w → v.StringsRel (fun t u => expandEnv lookup t = .ok u) w
  | .string t, w, path, h => by
    obtain ⟨u, hu, rfl⟩ := map_eq_ok h
    exact context_eq_ok.mp hu
  | .array xs, w, path, h => by
    obtain ⟨ys, hys, rfl⟩ := map_eq_ok h
    exact itemsRel_of_expandItems xs ys path 0 hys
  | .table es, w, path, h => by
    obtain ⟨fs, hfs, rfl⟩ := map_eq_ok h
    exact entriesRel_of_expandEntries es fs path hfs
  | .integer _, w, _, h | .float _, w, _, h | .boolean _, w, _, h | .datetime _, w, _, h => by
    cases h
    rfl

theorem itemsRel_of_expandItems : ∀ (xs ys : List Value) (path : Text) (i : Nat),
    expandItems lookup xs path i = .ok ys → ItemsRel (fun t u => expandEnv lookup t = .ok u) xs ys
  | [], ys, _, _, h => by
    cases h
    trivial
  | x :: xs, ys, path, i, h => by
    obtain ⟨y, hy, h⟩ := bind_eq_ok h
    obtain ⟨ys', hys, h⟩ := bind_eq_ok h
    cases h
    exact ⟨stringsRel_of_expandValue x y _ hy, itemsRel_of_expandItems xs ys' path _ hys⟩

theorem entriesRel_of_expandEntries : ∀ (es fs : List (Text × Value)) (path : Text),
    expandEntries lookup es path = .ok fs →
      EntriesRel (fun t u => expandEnv lookup t = .ok u) es fs
  | [], fs, _, h => by
    cases h
    trivial
  | (k, v) :: es, fs, path, h => by
    obtain ⟨w, hw, h⟩ := bind_eq_ok h
    obtain ⟨fs', hfs, h⟩ := bind_eq_ok h
    cases h
    exact ⟨rfl, stringsRel_of_expandValue v w _ hw, entriesRel_of_expandEntries es fs' path hfs⟩

end

end

end DoggyDns
