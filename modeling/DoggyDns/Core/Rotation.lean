import Mathlib.Tactic.Ring
import Mathlib.Data.List.Perm.Subperm
import Mathlib.Data.List.Nodup
import DoggyDns.Core.Handler

/-!
# Answer rotation under mixed traffic

One cursor serves all names, and each name reduces it modulo the length of its
own answer. `serve` is a schedule of `apply` calls; `offsets` are the cursor
values a name sees along it. A name's first records walk its list without
repeating exactly when those values stay apart modulo its length, and what
moves them is every rotated response in between, whatever its name.
-/

namespace DoggyDns

variable {α : Type} [DecidableEq α]

/-- The responses to a schedule of queries, where `table` holds the answer of each name. -/
def serve (table : α → List Record) : AnswerRotation → List α → List (α × List Record)
  | _, [] => []
  | r, q :: qs =>
    let (records, r') := r.apply (table q)
    (q, records) :: serve table r' qs

/-- The responses for one name, in order. -/
def responsesFor (table : α → List Record) (r : AnswerRotation) (qs : List α) (a : α) :
    List (List Record) :=
  ((serve table r qs).filter fun p => p.1 = a).map Prod.snd

/-- In any `n` consecutive responses for a name with `n` records, each of them is first once. -/
def FairFor (table : α → List Record) (r : AnswerRotation) (qs : List α) (a : α) : Prop :=
  ∀ start, start + (table a).length ≤ (responsesFor table r qs a).length →
    ((((responsesFor table r qs a).drop start).take (table a).length).map List.head?).Perm
      ((table a).map some)

/-- A name whose responses move the cursor. -/
def Rotates (table : α → List Record) (q : α) : Bool := 2 ≤ (table q).length

/-- From one response for `a` up to any of the next `n - 1` for it, the number of rotated
responses, of all names, is no multiple of `n`. -/
def Spread (table : α → List Record) (qs : List α) (a : α) : Prop :=
  (table a).length ≤ qs.count a → ∀ pre mid post, qs = pre ++ a :: mid ++ a :: post →
    mid.count a + 1 < (table a).length → ¬ (table a).length ∣ (a :: mid).countP (Rotates table)

/-! ## The cursor along a schedule -/

/-- The cursor values at which `a` is answered, from `c` on. -/
def offsets (table : α → List Record) (a : α) : Nat → List α → List Nat
  | _, [] => []
  | c, q :: qs =>
    let rest := offsets table a (if Rotates table q then c + 1 else c) qs
    if q = a then c :: rest else rest

section
variable {table : α → List Record} {a : α}

variable (table) in
omit [DecidableEq α] in
/-- One call of `apply` that does not wrap. -/
theorem apply_cursor {r : AnswerRotation} (hen : r.enabled = true)
    (hc : r.cursor.toNat + 1 < 2 ^ 64) (q : α) :
    (r.apply (table q)).2.enabled = true ∧
    (r.apply (table q)).2.cursor.toNat =
      (if Rotates table q then r.cursor.toNat + 1 else r.cursor.toNat) ∧
    (Rotates table q →
      (r.apply (table q)).1 = (table q).rotate (r.cursor.toNat % (table q).length)) := by
  unfold AnswerRotation.apply Rotates
  by_cases hlen : (table q).length < 2
  · simp [hen, hlen, show ¬ 2 ≤ (table q).length by omega]
  · have h2 : 2 ≤ (table q).length := by omega
    simp only [hen, hlen, Bool.not_true, Bool.false_or, decide_false, Bool.false_eq_true, if_false,
      h2, decide_true, if_true, true_and, UInt64.toNat_add, forall_const, and_true]
    exact Nat.mod_eq_of_lt hc

/-- The responses for a name are its list, rotated by the cursor values it saw. -/
theorem responsesFor_eq {r : AnswerRotation} {qs : List α} (hen : r.enabled = true)
    (hc : r.cursor.toNat + qs.length < 2 ^ 64) (ha : Rotates table a) :
    responsesFor table r qs a = (offsets table a r.cursor.toNat qs).map fun o =>
      (table a).rotate (o % (table a).length) := by
  induction qs generalizing r with
  | nil => rfl
  | cons q qs ih =>
    rw [List.length_cons] at hc
    obtain ⟨hen', hcur, hrot⟩ := apply_cursor table hen (by omega) q
    have hrest := ih hen' (by rw [hcur]; split <;> omega)
    rw [hcur] at hrest
    unfold responsesFor at hrest ⊢
    unfold serve offsets
    by_cases hq : q = a
    · subst hq
      simp only [decide_true, List.filter_cons_of_pos, List.map_cons, if_true, hrest, hrot ha]
    · simp only [hq, decide_false, Bool.false_eq_true, not_false_eq_true,
        List.filter_cons_of_neg, if_false, hrest]

theorem offsets_append (c : Nat) (xs ys : List α) :
    offsets table a c (xs ++ ys) =
      offsets table a c xs ++ offsets table a (c + xs.countP (Rotates table)) ys := by
  induction xs generalizing c with
  | nil => rfl
  | cons q xs ih =>
    simp only [List.cons_append, offsets, List.countP_cons]
    rw [ih]
    have harg : (if Rotates table q then c + 1 else c) + xs.countP (Rotates table) =
        c + (xs.countP (Rotates table) + if Rotates table q then 1 else 0) := by
      split <;> omega
    rw [harg]
    split <;> rfl

variable (table a) in
theorem length_offsets (c : Nat) (qs : List α) : (offsets table a c qs).length = qs.count a := by
  induction qs generalizing c with
  | nil => rfl
  | cons q qs ih =>
    unfold offsets
    by_cases hq : q = a
    · simp [hq, ih]
    · simp [hq, ih]

variable (table a) in
/-- The cursor value at a given response, from what the schedule served before it. -/
theorem offsets_getElem? (c : Nat) (pre post : List α) :
    (offsets table a c (pre ++ a :: post))[pre.count a]? =
      some (c + pre.countP (Rotates table)) := by
  rw [offsets_append, ← length_offsets table a c pre, List.getElem?_append_right le_rfl,
    Nat.sub_self, offsets, if_pos rfl]
  rfl

/-- Where in the schedule a cursor value was seen. -/
theorem exists_of_offsets {c o i : Nat} {qs : List α} (h : (offsets table a c qs)[i]? = some o) :
    ∃ pre post, qs = pre ++ a :: post ∧ pre.count a = i ∧ o = c + pre.countP (Rotates table) := by
  induction qs generalizing c i with
  | nil => simp [offsets] at h
  | cons q qs ih =>
    unfold offsets at h
    by_cases hq : q = a
    · subst hq
      rw [if_pos rfl] at h
      cases i with
      | zero => exact ⟨[], qs, rfl, rfl, (Option.some.inj h).symm⟩
      | succ i =>
        obtain ⟨pre, post, rfl, rfl, rfl⟩ := ih h
        refine ⟨q :: pre, post, rfl, by simp, ?_⟩
        rw [List.countP_cons]
        split <;> omega
    · rw [if_neg hq] at h
      obtain ⟨pre, post, rfl, rfl, rfl⟩ := ih h
      refine ⟨q :: pre, post, rfl, by simp [hq], ?_⟩
      rw [List.countP_cons]
      split <;> omega

/-- Two cursor values of a name, and the schedule between them. -/
theorem offsets_between {c o o' i j : Nat} {qs : List α} (hij : i < j)
    (hi : (offsets table a c qs)[i]? = some o) (hj : (offsets table a c qs)[j]? = some o') :
    ∃ pre mid post, qs = pre ++ a :: mid ++ a :: post ∧ mid.count a + 1 = j - i ∧
      o' = o + (a :: mid).countP (Rotates table) := by
  obtain ⟨pre, post, rfl, rfl, rfl⟩ := exists_of_offsets hi
  obtain ⟨pre', post', hqs, rfl, rfl⟩ := exists_of_offsets hj
  rcases List.append_eq_append_iff.mp hqs with ⟨mid, rfl, hmid⟩ | ⟨mid, rfl, -⟩
  · cases mid with
    | nil => simp at hij
    | cons b mid =>
      obtain ⟨rfl, rfl⟩ := List.cons.inj hmid
      refine ⟨pre, mid, post', by simp, ?_, by rw [List.countP_append, Nat.add_assoc]⟩
      rw [List.count_append, List.count_cons_self]
      omega
  · rw [List.count_append] at hij
    omega

/-! ## Fairness -/

/-- The cursor values of any `n` consecutive responses for a name are distinct modulo `n`. -/
def OffsetsApart (table : α → List Record) (a : α) (os : List Nat) : Prop :=
  ∀ start, start + (table a).length ≤ os.length →
    (((os.drop start).take (table a).length).map (· % (table a).length)).Nodup

theorem map_getElem?_range (t : List Record) : (List.range t.length).map (t[·]?) = t.map some := by
  refine List.ext_getElem (by simp) fun i h _ => ?_
  simp only [List.length_map, List.length_range] at h
  simp [h]

/-- `n` indices below `n` without repetition are all of them. -/
theorem perm_range_of_nodup {ks : List Nat} {n : Nat} (hnd : ks.Nodup) (hlt : ∀ k ∈ ks, k < n)
    (hlen : n ≤ ks.length) : ks.Perm (List.range n) :=
  (hnd.subperm fun k hk => List.mem_range.mpr (hlt k hk)).perm_of_length_le (by simpa using hlen)

section
variable {r : AnswerRotation} {qs : List α}

omit [DecidableEq α] in
theorem length_pos_of_rotates (ha : Rotates table a) : 0 < (table a).length := by
  simp only [Rotates, decide_eq_true_eq] at ha
  omega

/-- The first records of some consecutive responses, from the offsets they were rotated by. -/
theorem heads_eq (hen : r.enabled = true) (hc : r.cursor.toNat + qs.length < 2 ^ 64)
    (ha : Rotates table a) (start len : Nat) :
    (((responsesFor table r qs a).drop start).take len).map List.head? =
      ((((offsets table a r.cursor.toNat qs).drop start).take len).map
        (· % (table a).length)).map ((table a)[·]?) := by
  rw [responsesFor_eq hen hc ha, ← List.map_drop, ← List.map_take, List.map_map, List.map_map]
  exact List.map_congr_left fun o _ => List.head?_rotate (Nat.mod_lt o (length_pos_of_rotates ha))

theorem fairFor_of_apart (hen : r.enabled = true) (hc : r.cursor.toNat + qs.length < 2 ^ 64)
    (ha : Rotates table a) (hapart : OffsetsApart table a (offsets table a r.cursor.toNat qs)) :
    FairFor table r qs a := by
  intro start hstart
  rw [responsesFor_eq hen hc ha, List.length_map] at hstart
  rw [heads_eq hen hc ha, ← map_getElem?_range]
  refine (perm_range_of_nodup (hapart start hstart) (fun k hk => ?_) ?_).map _
  · obtain ⟨o, -, rfl⟩ := List.mem_map.mp hk
    exact Nat.mod_lt o (length_pos_of_rotates ha)
  · rw [List.length_map, List.length_take, List.length_drop]
    omega

theorem apart_of_fairFor (hen : r.enabled = true) (hc : r.cursor.toNat + qs.length < 2 ^ 64)
    (ha : Rotates table a) (hnd : (table a).Nodup) (hfair : FairFor table r qs a) :
    OffsetsApart table a (offsets table a r.cursor.toNat qs) := by
  intro start hstart
  have hperm := hfair start (by rwa [responsesFor_eq hen hc ha, List.length_map])
  rw [heads_eq hen hc ha] at hperm
  -- distinct first records come from distinct offsets
  exact (hperm.nodup_iff.mpr (hnd.map fun _ _ => Option.some.inj)).of_map _

end

/-- Cursor values of `n` consecutive responses, two of them `n` or more rotations apart. -/
theorem apart_of_spread (c : Nat) {qs : List α} (hspread : Spread table qs a) :
    OffsetsApart table a (offsets table a c qs) := by
  intro start hstart
  have hcount : (table a).length ≤ qs.count a := by
    rw [length_offsets] at hstart
    omega
  rw [List.Nodup, List.pairwise_map, List.pairwise_iff_getElem]
  intro i j hi hj hij heq
  rw [List.length_take, List.length_drop] at hj
  rw [List.getElem_take, List.getElem_drop, List.getElem_take, List.getElem_drop] at heq
  obtain ⟨pre, mid, post, hqs, hmid, ho⟩ := offsets_between
    (show start + i < start + j by omega)
    (List.getElem?_eq_getElem (show start + i < (offsets table a c qs).length by omega))
    (List.getElem?_eq_getElem (show start + j < (offsets table a c qs).length by omega))
  refine hspread hcount pre mid post hqs (by omega) ?_
  rw [ho] at heq
  have hmod := Nat.sub_mod_eq_zero_of_mod_eq heq.symm
  rw [Nat.add_sub_cancel_left] at hmod
  exact Nat.dvd_of_mod_eq_zero hmod

theorem spread_of_apart {c : Nat} {qs : List α}
    (hapart : OffsetsApart table a (offsets table a c qs)) : Spread table qs a := by
  rintro hcount pre mid post rfl hmid hdvd
  have hi := offsets_getElem? table a c pre (mid ++ a :: post)
  have hj := offsets_getElem? table a c (pre ++ a :: mid) post
  have hqs : pre ++ a :: (mid ++ a :: post) = pre ++ a :: mid ++ a :: post := by simp
  rw [hqs] at hi
  rw [List.count_append, List.count_cons_self, List.countP_append] at hj
  obtain ⟨hi', hoi⟩ := List.getElem?_eq_some_iff.mp hi
  obtain ⟨hj', hoj⟩ := List.getElem?_eq_some_iff.mp hj
  rw [← length_offsets table a c] at hcount
  -- a window of n responses that holds both
  obtain ⟨start, hle, hend, hwin⟩ : ∃ start, start ≤ pre.count a ∧
      start + (table a).length ≤ (offsets table a c (pre ++ a :: mid ++ a :: post)).length ∧
      pre.count a + (mid.count a + 1) < start + (table a).length := by
    refine ⟨min (pre.count a)
      ((offsets table a c (pre ++ a :: mid ++ a :: post)).length - (table a).length), ?_⟩
    omega
  have hnd := hapart start hend
  rw [List.Nodup, List.pairwise_map, List.pairwise_iff_getElem] at hnd
  refine hnd (pre.count a - start) (pre.count a + (mid.count a + 1) - start) ?_ ?_ ?_ ?_
  · rw [List.length_take, List.length_drop]
    omega
  · rw [List.length_take, List.length_drop]
    omega
  · omega
  · simp only [List.getElem_take, List.getElem_drop, Nat.add_sub_cancel' hle,
      Nat.add_sub_cancel' (hle.trans (Nat.le_add_right _ _)), hoi, hoj]
    obtain ⟨k, hk⟩ := hdvd
    rw [hk, ← Nat.add_assoc, Nat.add_mul_mod_self_left]

end

/-- **Rotated responses are cyclic permutations, and fair to a name exactly when the rotated
responses of all names keep its cursor values apart.** -/
theorem rotation_fair_iff_spread (table : α → List Record) {r : AnswerRotation} {qs : List α}
    (a : α) (hen : r.enabled = true) (hc : r.cursor.toNat < 2 ^ 64 - qs.length)
    (hn : 2 ≤ (table a).length) :
    (∀ records ∈ responsesFor table r qs a, records ~r table a) ∧
    (Spread table qs a → FairFor table r qs a) ∧
    ((table a).Nodup → FairFor table r qs a → Spread table qs a) := by
  have hc' : r.cursor.toNat + qs.length < 2 ^ 64 := by omega
  have ha : Rotates table a := by simpa [Rotates] using hn
  refine ⟨fun records hrec => ?_, fun hs => fairFor_of_apart hen hc' ha (apart_of_spread _ hs),
    fun hnd hf => spread_of_apart (apart_of_fairFor hen hc' ha hnd hf)⟩
  rw [responsesFor_eq hen hc' ha] at hrec
  obtain ⟨o, -, rfl⟩ := List.mem_map.mp hrec
  exact List.IsRotated.forall (table a) _

/-- A name queried alone is spread. -/
theorem spread_alone {table : α → List Record} {a : α} (hn : 2 ≤ (table a).length) (n : Nat) :
    Spread table (List.replicate n a) a := by
  intro _ pre mid post hqs hmid hdvd
  have hall : ∀ q ∈ mid, q = a := by
    intro q hq
    refine List.eq_of_mem_replicate (n := n) ?_
    rw [hqs]
    simp [hq]
  have hcount : mid.count a = mid.length := List.count_eq_length.mpr fun q hq => (hall q hq).symm
  have hrot : (a :: mid).countP (Rotates table) = mid.length + 1 := by
    refine List.countP_eq_length.mpr fun q hq => ?_
    rcases List.mem_cons.mp hq with rfl | hq
    · simpa [Rotates] using hn
    · simpa [Rotates, hall q hq] using hn
  have hle := Nat.le_of_dvd (by omega) hdvd
  omega

/-- Two names with two addresses each. -/
def twoNames (_ : Bool) : List Record := [⟨.root, 30, .a 1⟩, ⟨.root, 30, .a 2⟩]

theorem rotation_fair_alone : FairFor twoNames ⟨true, 7⟩ (List.replicate 5 true) true :=
  (rotation_fair_iff_spread twoNames true rfl (by decide) (by decide)).2.1
    (spread_alone (by decide) 5)

/-- Queried in turns, each name starts with the same record every time. -/
theorem rotation_unfair_alternating :
    ¬ FairFor twoNames ⟨true, 0⟩ [true, false, true, false] true := by
  intro hfair
  have hperm := hfair 0 (by decide)
  exact absurd hperm (by decide)

end DoggyDns
