import Mathlib.Data.Char
import Mathlib.Data.List.Lex
import Mathlib.Data.List.Sort
import DoggyDns.Basic.Env

/-!
# Loading the `[observability]` credentials

`parse_config`, for the part of the configuration the OTLP exporters
authenticate with. Expansion runs on the document, before it is deserialised;
a `BTreeMap` holds its entries in key order. The `toml` parser, the text of a
deserialisation error, and the checks of everything else in the document
(`validate_config` among them) are parameters: they can only reject.
-/

namespace DoggyDns

open Toml

structure BasicAuthConfig where
  username : Text
  password : Text
  deriving DecidableEq, Repr

structure ObservabilityConfig where
  headers : List (Text × Text) := []
  basicAuth : Option BasicAuthConfig := none
  deriving DecidableEq, Repr

/-- `BTreeMap` order. -/
def KeyLe {β : Type} (a b : Text × β) : Prop := a.1 ≤ b.1

instance {β : Type} : DecidableRel (KeyLe (β := β)) :=
  fun a b => inferInstanceAs (Decidable (a.1 ≤ b.1))

def stringEntries : List (Text × Value) → Option (List (Text × Text))
  | [] => some []
  | (key, value) :: rest => do
    let text ← value.asString
    let rest ← stringEntries rest
    some ((key, text) :: rest)

def deserializeHeaders : Option Value → Option (List (Text × Text))
  | none => some []
  | some (.table entries) => (stringEntries entries).map (List.insertionSort KeyLe)
  | some _ => none

def deserializeBasicAuth : Option Value → Option (Option BasicAuthConfig)
  | none => some none
  | some value => do
    let username ← (value.field "username".toList 0).bind Value.asString
    let password ← (value.field "password".toList 1).bind Value.asString
    some (some ⟨username, password⟩)

/-- The `[observability]` credentials of a document. -/
def deserializeObservability (document : Value) : Option ObservabilityConfig :=
  match document.field "observability".toList 4 with
  | none => some {}
  | some config => do
    let headers ← deserializeHeaders (config.field "headers".toList 7)
    let basicAuth ← deserializeBasicAuth (config.field "basic_auth".toList 8)
    some ⟨headers, basicAuth⟩

section
variable (fromStr : Text → Except Error Value) (serdeError : Value → Error)
  (validate : Value → Except Error Unit)

/-- Parse, expand, deserialise and validate. -/
def parseConfig (env : Text → Option Text) (content : Text) :
    Except Error ObservabilityConfig := do
  let document ← fromStr content
  let document ← expandEnvInValue env document
  match deserializeObservability document with
  | none => .error (serdeError document)
  | some config => do
    validate document
    .ok config

end

/-! ## What was written and what is loaded -/

/-- Entry by entry the same key, and a text that expands to the other. -/
def ExpandsTo (env : Text → Option Text) (written loaded : Text × Text) : Prop :=
  written.1 = loaded.1 ∧ expandEnv env written.2 = .ok loaded.2

/-- Each credential of `loaded` is the expansion of the one in `written`. -/
structure LoadedFrom (env : Text → Option Text) (written loaded : ObservabilityConfig) : Prop where
  headers : List.Forall₂ (ExpandsTo env) written.headers loaded.headers
  basicAuth : Option.Rel (fun w l => expandEnv env w.username = .ok l.username ∧
    expandEnv env w.password = .ok l.password) written.basicAuth loaded.basicAuth

section
variable {env : Text → Option Text}

theorem orderedInsert_expandsTo {a b : Text × Text} {xs ys : List (Text × Text)}
    (hab : ExpandsTo env a b) (h : List.Forall₂ (ExpandsTo env) xs ys) :
    List.Forall₂ (ExpandsTo env) (xs.orderedInsert KeyLe a) (ys.orderedInsert KeyLe b) := by
  induction h with
  | nil => exact .cons hab .nil
  | @cons x y xs ys hxy h ih =>
    have hle : KeyLe a x ↔ KeyLe b y := by
      unfold KeyLe
      rw [hab.1, hxy.1]
    unfold List.orderedInsert
    by_cases hb : KeyLe b y
    · rw [if_pos hb, if_pos (hle.mpr hb)]
      exact .cons hab (.cons hxy h)
    · rw [if_neg hb, if_neg (mt hle.mp hb)]
      exact .cons hxy ih

theorem insertionSort_expandsTo {xs ys : List (Text × Text)}
    (h : List.Forall₂ (ExpandsTo env) xs ys) :
    List.Forall₂ (ExpandsTo env) (xs.insertionSort KeyLe) (ys.insertionSort KeyLe) := by
  induction h with
  | nil => exact .nil
  | cons hxy _ ih => exact orderedInsert_expandsTo hxy ih

/-- `R` of the document layer: a string and its expansion. -/
abbrev Expansion (env : Text → Option Text) (t u : Text) : Prop := expandEnv env t = .ok u

theorem stringEntries_rel {es fs : List (Text × Value)} {loaded : List (Text × Text)}
    (h : EntriesRel (Expansion env) es fs) (hl : stringEntries fs = some loaded) :
    ∃ written, stringEntries es = some written ∧
      List.Forall₂ (ExpandsTo env) written loaded := by
  induction es generalizing fs loaded with
  | nil =>
    cases fs with
    | nil =>
      cases hl
      exact ⟨[], rfl, .nil⟩
    | cons => exact h.elim
  | cons e es ih =>
    cases fs with
    | nil => exact h.elim
    | cons f fs =>
      obtain ⟨k, v⟩ := e
      obtain ⟨l, w⟩ := f
      obtain ⟨rfl, hv, hrest⟩ := h
      simp only [stringEntries, Option.bind_eq_bind, Option.bind_eq_some_iff] at hl
      obtain ⟨u, hu, rest, hr, hl⟩ := hl
      cases hl
      obtain ⟨t, ht, htu⟩ := hv.asString hu
      obtain ⟨written, hw, hrel⟩ := ih hrest hr
      refine ⟨(k, t) :: written, ?_, .cons ⟨rfl, htu⟩ hrel⟩
      simp [stringEntries, ht, hw]

theorem deserializeHeaders_rel {v w : Option Value} {loaded : List (Text × Text)}
    (h : Option.Rel (Value.StringsRel (Expansion env)) v w)
    (hl : deserializeHeaders w = some loaded) :
    ∃ written, deserializeHeaders v = some written ∧
      List.Forall₂ (ExpandsTo env) written loaded := by
  cases h with
  | none =>
    cases hl
    exact ⟨[], rfl, .nil⟩
  | @some v w h =>
    cases w with
    | table fs =>
      cases v with
      | table es =>
        obtain ⟨sorted, hs, rfl⟩ := Option.map_eq_some_iff.mp hl
        obtain ⟨written, hw, hrel⟩ := stringEntries_rel h hs
        exact ⟨_, congrArg (Option.map _) hw, insertionSort_expandsTo hrel⟩
      | _ => cases h
    | _ => cases hl

/-- A required string field. -/
theorem stringField_rel {v w : Value} (h : v.StringsRel (Expansion env) w) (name : Text)
    (index : Nat) {u : Text} (hu : (w.field name index).bind Value.asString = some u) :
    ∃ t, (v.field name index).bind Value.asString = some t ∧ expandEnv env t = .ok u := by
  have hf := h.field name index
  generalize v.field name index = v' at hf ⊢
  generalize w.field name index = w' at hf hu
  cases hf with
  | none => cases hu
  | some h => exact h.asString hu

theorem deserializeBasicAuth_rel {v w : Option Value} {loaded : Option BasicAuthConfig}
    (h : Option.Rel (Value.StringsRel (Expansion env)) v w)
    (hl : deserializeBasicAuth w = some loaded) :
    ∃ written, deserializeBasicAuth v = some written ∧
      Option.Rel (fun w l => expandEnv env w.username = .ok l.username ∧
        expandEnv env w.password = .ok l.password) written loaded := by
  cases h with
  | none =>
    cases hl
    exact ⟨none, rfl, .none⟩
  | some h =>
    simp only [deserializeBasicAuth, Option.bind_eq_bind, Option.bind_eq_some_iff] at hl
    obtain ⟨username, hu, password, hp, hl⟩ := hl
    cases hl
    obtain ⟨u, hu, hru⟩ := stringField_rel h _ _ (Option.bind_eq_some_iff.mpr hu)
    obtain ⟨p, hp, hrp⟩ := stringField_rel h _ _ (Option.bind_eq_some_iff.mpr hp)
    refine ⟨some ⟨u, p⟩, ?_, .some ⟨hru, hrp⟩⟩
    rw [deserializeBasicAuth, hu, hp]
    rfl

theorem deserializeObservability_rel {v w : Value} {loaded : ObservabilityConfig}
    (h : v.StringsRel (Expansion env) w) (hl : deserializeObservability w = some loaded) :
    ∃ written, deserializeObservability v = some written ∧ LoadedFrom env written loaded := by
  have hf := h.field "observability".toList 4
  unfold deserializeObservability at hl ⊢
  generalize v.field "observability".toList 4 = v' at hf ⊢
  generalize w.field "observability".toList 4 = w' at hf hl
  cases hf with
  | none =>
    cases hl
    exact ⟨_, rfl, ⟨.nil, .none⟩⟩
  | some hf =>
    simp only [Option.bind_eq_bind, Option.bind_eq_some_iff] at hl
    obtain ⟨headers, hh, basicAuth, ha, hl⟩ := hl
    cases hl
    obtain ⟨headers', hh', hrh⟩ := deserializeHeaders_rel (hf.field _ _) hh
    obtain ⟨basicAuth', ha', hra⟩ := deserializeBasicAuth_rel (hf.field _ _) ha
    refine ⟨⟨headers', basicAuth'⟩, ?_, ⟨hrh, hra⟩⟩
    simp only [hh', ha']
    rfl

variable {fromStr : Text → Except Error Value} {serdeError : Value → Error}
  {validate : Value → Except Error Unit}

/-- What an accepted file has written, and that it was loaded with one expansion. -/
theorem loadedFrom_of_parseConfig {content : Text} {loaded : ObservabilityConfig}
    (h : parseConfig fromStr serdeError validate env content = .ok loaded) :
    ∃ document written, fromStr content = .ok document ∧
      deserializeObservability document = some written ∧ LoadedFrom env written loaded := by
  obtain ⟨document, hparse, h⟩ := bind_eq_ok h
  obtain ⟨expanded, hexp, h⟩ := bind_eq_ok h
  cases hd : deserializeObservability expanded with
  | none => simp [hd] at h
  | some config =>
    simp only [hd] at h
    obtain ⟨-, -, h⟩ := bind_eq_ok h
    cases h
    obtain ⟨written, hw, hrel⟩ :=
      deserializeObservability_rel (stringsRel_of_expandValue document expanded [] hexp) hd
    exact ⟨document, written, hparse, hw, hrel⟩

end

end DoggyDns
