import Mathlib.Data.List.Nodup
import Mathlib.Data.List.Forall2

/-!
# Interning tables

A `Table` holds entries in the order they were first asked for and a map from
keys to their positions, stored as an index of some machine type. An
`Indexing` says how a position is stored: below its bound the position can be
read back.

`Table.Ok` is the agreement of the two: every key of the map leads to the entry
made from it, and every entry but the one in front was put there for a key.
Tables only grow, and what an index leads to stays.
-/

namespace Intern

/-- Positions stored in `I`: those below `bound` can be read back. -/
structure Indexing (I : Type) where
  cast : Nat → I
  read : I → Option Nat
  bound : Nat
  read_cast : ∀ {n : Nat}, n < bound → read (cast n) = some n

structure Table (I K E : Type) where
  entries : List E
  /-- A hash map, newest entry first. -/
  lookup : List (K × I)

/-! ### Reading lists -/

section
variable {α β : Type} {f g : α → Option β} {as : List α} {bs : List β}

theorem mapM_eq_some_iff :
    as.mapM f = some bs ↔ List.Forall₂ (fun a b => f a = some b) as bs := by
  induction as generalizing bs with
  | nil =>
    rw [List.mapM_nil, List.forall₂_nil_left_iff]
    exact ⟨fun h => (Option.some.inj h).symm, fun h => congrArg some h.symm⟩
  | cons a as ih =>
    rw [List.mapM_cons, List.forall₂_cons_left_iff]
    constructor
    · intro h
      obtain ⟨b, hb, h⟩ := Option.bind_eq_some_iff.mp h
      obtain ⟨bs', hbs, h⟩ := Option.bind_eq_some_iff.mp h
      exact ⟨b, bs', hb, ih.mp hbs, (Option.some.inj h).symm⟩
    · rintro ⟨b, bs', hb, hbs, rfl⟩
      rw [hb, ih.mpr hbs]
      rfl

theorem mapM_mono (h : ∀ a b, f a = some b → g a = some b) (hf : as.mapM f = some bs) :
    as.mapM g = some bs :=
  mapM_eq_some_iff.mpr ((mapM_eq_some_iff.mp hf).imp h)

theorem exists_of_mapM (h : as.mapM f = some bs) : ∀ a ∈ as, ∃ b, f a = some b := by
  induction mapM_eq_some_iff.mp h with
  | nil => exact nofun
  | cons hb hbs ih => exact List.forall_mem_cons.mpr ⟨⟨_, hb⟩, ih (mapM_eq_some_iff.mpr hbs)⟩

end

/-! ### Tables -/

variable {I K E : Type} (ix : Indexing I)

namespace Indexing

/-- The entry at an index. -/
def get (entries : List E) (i : I) : Option E := (ix.read i).bind (entries[·]?)

variable {ix} {entries more : List E} {i : I} {e : E}

theorem get_cast {n : Nat} (hn : n < ix.bound) : ix.get entries (ix.cast n) = entries[n]? := by
  rw [get, ix.read_cast hn, Option.bind_some]

/-- Growing a list moves none of its entries. -/
theorem get_mono (h : entries <+: more) (hi : ix.get entries i = some e) :
    ix.get more i = some e := by
  obtain ⟨n, hn, hget⟩ := Option.bind_eq_some_iff.mp hi
  obtain ⟨rest, rfl⟩ := h
  refine Option.bind_eq_some_iff.mpr ⟨n, hn, ?_⟩
  rw [List.getElem?_append_left (List.getElem?_eq_some_iff.mp hget).1, hget]

end Indexing

namespace Table

/-- The index of `key`; a new key is entered as `entry` at the end. -/
def intern [DecidableEq K] (t : Table I K E) (key : K) (entry : E) : I × Table I K E :=
  match t.lookup.lookup key with
  | some index => (index, t)
  | none =>
    let index := ix.cast t.entries.length
    (index, ⟨t.entries ++ [entry], (key, index) :: t.lookup⟩)

/-- Map and entries agree; `enc` makes the entry of a key. -/
structure Ok [DecidableEq K] (enc : K → E) (t : Table I K E) : Prop where
  sound : ∀ {key index}, t.lookup.lookup key = some index →
    ∃ n, index = ix.cast n ∧ t.entries[n]? = some (enc key)
  complete : ∀ {n e}, 1 ≤ n → t.entries[n]? = some e →
    ∃ key, e = enc key ∧ t.lookup.lookup key = some (ix.cast n)

variable {ix} [DecidableEq K] {enc : K → E} {t : Table I K E}

theorem intern_grows (key : K) (entry : E) : t.entries <+: (t.intern ix key entry).2.entries := by
  unfold intern
  split
  · exact List.prefix_rfl
  · exact List.prefix_append _ _

/-- Interning enters the key's entry, or nothing. -/
theorem forall_mem_intern {P : E → Prop} {key : K} {entry : E} (hP : P entry) :
    ∀ e ∈ (t.intern ix key entry).2.entries, e ∈ t.entries ∨ P e := by
  intro e he
  unfold intern at he
  split at he
  · exact .inl he
  · rcases List.mem_append.mp he with he | he
    · exact .inl he
    · obtain rfl := List.mem_singleton.mp he
      exact .inr hP

theorem Ok.intern (h : t.Ok ix enc) (key : K) : (t.intern ix key (enc key)).2.Ok ix enc := by
  unfold Table.intern
  cases hkey : t.lookup.lookup key with
  | some index => exact h
  | none =>
    refine ⟨fun {k index} hk => ?_, fun {n e} hn he => ?_⟩
    · rw [List.lookup_cons] at hk
      split at hk
      next heq =>
        cases hk
        refine ⟨t.entries.length, rfl, ?_⟩
        rw [List.getElem?_concat_length, beq_iff_eq.mp heq]
      next =>
        obtain ⟨n, rfl, hget⟩ := h.sound hk
        refine ⟨n, rfl, ?_⟩
        rw [List.getElem?_append_left (List.getElem?_eq_some_iff.mp hget).1, hget]
    · by_cases hlt : n < t.entries.length
      · rw [List.getElem?_append_left hlt] at he
        obtain ⟨k, rfl, hk⟩ := h.complete hn he
        refine ⟨k, rfl, ?_⟩
        have hne : (k == key) = false := by
          rw [beq_eq_false_iff_ne]
          rintro rfl
          rw [hkey] at hk
          cases hk
        rw [List.lookup_cons, hne, hk]
      · -- the entry just put at the end
        have hlen := (List.getElem?_eq_some_iff.mp he).1
        rw [List.length_append, List.length_singleton] at hlen
        obtain rfl : n = t.entries.length := by omega
        rw [List.getElem?_concat_length] at he
        cases he
        exact ⟨key, rfl, by rw [List.lookup_cons, beq_self_eq_true]⟩

/-- A table with only its front, whatever stands there. -/
theorem Ok.front (ix : Indexing I) (enc : K → E) {entries : List E} (h : entries.length ≤ 1) :
    (⟨entries, []⟩ : Table I K E).Ok ix enc := by
  refine ⟨nofun, fun {n e} hn he => ?_⟩
  have hlt : n < entries.length := (List.getElem?_eq_some_iff.mp he).1
  omega

/-- The index interning returns leads to the key's entry. -/
theorem Ok.get_intern (h : t.Ok ix enc) (key : K)
    (hbound : (t.intern ix key (enc key)).2.entries.length ≤ ix.bound) :
    ix.get (t.intern ix key (enc key)).2.entries (t.intern ix key (enc key)).1 =
      some (enc key) := by
  unfold Table.intern at hbound ⊢
  cases hkey : t.lookup.lookup key with
  | some index =>
    rw [hkey] at hbound
    obtain ⟨n, rfl, hget⟩ := h.sound hkey
    have hlt := (List.getElem?_eq_some_iff.mp hget).1
    exact (Indexing.get_cast (Nat.lt_of_lt_of_le hlt hbound)).trans hget
  | none =>
    rw [hkey] at hbound
    have hlen : (t.entries ++ [enc key]).length ≤ ix.bound := hbound
    rw [List.length_append, List.length_singleton] at hlen
    exact (Indexing.get_cast hlen).trans List.getElem?_concat_length

/-- Behind the front no entry stands twice. -/
theorem Ok.nodup (h : t.Ok ix enc) (henc : Function.Injective enc)
    (hbound : t.entries.length ≤ ix.bound) : (t.entries.drop 1).Nodup := by
  rw [List.nodup_iff_getElem?_ne_getElem?]
  intro i j hij hj heq
  rw [List.getElem?_drop, List.getElem?_drop] at heq
  rw [List.length_drop] at hj
  have hlt : 1 + j < t.entries.length := by omega
  have he := List.getElem?_eq_getElem hlt
  obtain ⟨k, hk, hki⟩ := h.complete (Nat.le_add_right 1 j) he
  obtain ⟨k', hk', hki'⟩ := h.complete (Nat.le_add_right 1 i) (heq.trans he)
  obtain rfl := henc (hk.symm.trans hk')
  rw [hki] at hki'
  have hread := congrArg ix.read (Option.some.inj hki')
  rw [ix.read_cast (by omega), ix.read_cast (by omega)] at hread
  have := Option.some.inj hread
  omega

end Table

end Intern
