import DoggyDns.Plugin.Chain

/-!
# Whom a query consults

`resolve` taken apart at the first handler that does not skip, and the lookups
it makes on the way. To see the lookups, `logged` gives every handler of a
chain a backend that also records who was asked for what. Recording changes
nothing else (`resolve_logged`), so the log of the recording chain is the list
of lookups of the chain itself.
-/

namespace DoggyDns

/-- One lookup: the entry asked, by its place in the chain, and the question. -/
structure Asked where
  index : Nat
  name : Name
  rtype : RecordType
  deriving DecidableEq

section
variable {W : Type}

/-- The handler, recording its lookups under an index. -/
def ZoneHandler.logged (h : ZoneHandler W) (i : Nat) : ZoneHandler (W × List Asked) where
  zoneType := h.zoneType
  origin := h.origin
  lookup name rtype s :=
    let (result, w) := h.lookup name rtype s.1
    (result, w, s.2 ++ [⟨i, name, rtype⟩])

def NamedHandler.logged (entry : NamedHandler W) (i : Nat) : NamedHandler (W × List Asked) :=
  ⟨entry.name, entry.handler.logged i, entry.apexSoa⟩

/-- A chain that records its lookups, its first entry under index `i`. -/
def logged : Nat → List (NamedHandler W) → List (NamedHandler (W × List Asked))
  | _, [] => []
  | i, entry :: handlers => entry.logged i :: logged (i + 1) handlers

variable (name : Name) (rtype : RecordType)

/-- The lookups `resolve` makes, in order. -/
def asked (chain : List (NamedHandler W)) (w : W) : List Asked :=
  (resolve name rtype (logged 0 chain) (w, [])).2.2.2

/-- The backends after every handler of a list skipped; `none` when one did not. -/
def skipAll : List (NamedHandler W) → W → Option W
  | [], w => some w
  | entry :: handlers, w =>
    match entry.handler.lookup name rtype w with
    | (.skip, w) => skipAll handlers w
    | _ => none

variable {name rtype} {pre post chain : List (NamedHandler W)} {entry : NamedHandler W}
  {w w' : W}

/-! ## The first answer -/

theorem resolve_of_skipAll (h : skipAll name rtype chain w = some w') :
    resolve name rtype chain w = (⟨.skip, none, false, none⟩, chain, w') := by
  induction chain generalizing w with
  | nil => cases h; rfl
  | cons entry handlers ih =>
    unfold skipAll at h
    unfold resolve
    split at h
    · next hl => rw [hl]; simp only [ih h]
    · cases h

/-- Handlers that skip leave the question to the rest. -/
theorem resolve_append (h : skipAll name rtype pre w = some w') (rest : List (NamedHandler W)) :
    resolve name rtype (pre ++ rest) w =
      ((resolve name rtype rest w').1, pre ++ (resolve name rtype rest w').2.1,
        (resolve name rtype rest w').2.2) := by
  induction pre generalizing w with
  | nil => cases h; rfl
  | cons entry handlers ih =>
    unfold skipAll at h
    rw [List.cons_append, resolve]
    split at h
    · next hl => rw [hl]; simp only [ih h, List.cons_append]
    · cases h

theorem resolve_answer (h : (entry.handler.lookup name rtype w).1 ≠ .skip) :
    resolve name rtype (entry :: post) w =
      (let lookup := entry.handler.lookup name rtype w
       let attached := attachSoa entry lookup.1 lookup.2
       (⟨lookup.1, some attached.2.1.name, attached.2.1.handler.authoritative, attached.1⟩,
        attached.2.1 :: post, attached.2.2)) := by
  rw [resolve]
  cases hl : entry.handler.lookup name rtype w with
  | mk result w₁ =>
    rw [hl] at h
    cases result with
    | skip => exact absurd rfl h
    | «continue» r | «break» r => rfl

/-- Attaching an SOA only ever fills the entry's memo. -/
theorem attachSoa_entry (entry : NamedHandler W) (result : LookupControlFlow) (w : W) :
    (attachSoa entry result w).2.1.name = entry.name ∧
    (attachSoa entry result w).2.1.handler = entry.handler := by
  unfold attachSoa
  split
  · split
    · exact ⟨rfl, rfl⟩
    · simp only
      split <;> exact ⟨rfl, rfl⟩
  · exact ⟨rfl, rfl⟩

/-- Every handler of a chain skips, or there is a first one that does not. -/
theorem exists_responder (chain : List (NamedHandler W)) (w : W) :
    (∃ w', skipAll name rtype chain w = some w') ∨
    ∃ pre entry post w', chain = pre ++ entry :: post ∧ skipAll name rtype pre w = some w' ∧
      (entry.handler.lookup name rtype w').1 ≠ .skip := by
  induction chain generalizing w with
  | nil => exact .inl ⟨w, rfl⟩
  | cons entry handlers ih =>
    cases hl : entry.handler.lookup name rtype w with
    | mk result w₁ =>
      cases result with
      | skip =>
        rcases ih w₁ with ⟨w', h⟩ | ⟨pre, e, post, w', rfl, hpre, he⟩
        · exact .inl ⟨w', by rw [skipAll, hl]; exact h⟩
        · exact .inr ⟨entry :: pre, e, post, w', rfl, by rw [skipAll, hl]; exact hpre, he⟩
      | «continue» r | «break» r =>
        exact .inr ⟨[], entry, handlers, w, rfl, rfl, by rw [hl]; simp⟩

/-- What a chain answers is what its first handler that does not skip answers. -/
theorem resolve_of_responder (hpre : skipAll name rtype pre w = some w')
    (he : (entry.handler.lookup name rtype w').1 ≠ .skip) (post : List (NamedHandler W)) :
    (resolve name rtype (pre ++ entry :: post) w).1 =
      ⟨(entry.handler.lookup name rtype w').1, some entry.name, entry.handler.authoritative,
        (attachSoa entry (entry.handler.lookup name rtype w').1
          (entry.handler.lookup name rtype w').2).1⟩ := by
  obtain ⟨hname, hhandler⟩ := attachSoa_entry entry (entry.handler.lookup name rtype w').1
    (entry.handler.lookup name rtype w').2
  rw [resolve_append hpre, resolve_answer he]
  simp only [hname, hhandler]

/-! ## The lookups made -/

section
variable (log : List Asked) (i : Nat)

theorem ZoneHandler.lookup_logged (h : ZoneHandler W) :
    (h.logged i).lookup name rtype (w, log) =
      ((h.lookup name rtype w).1, (h.lookup name rtype w).2, log ++ [⟨i, name, rtype⟩]) := rfl

theorem apexSoa_logged (h : ZoneHandler W) :
    apexSoa (h.logged i) (w, log) =
      ((apexSoa h w).1, (apexSoa h w).2, log ++ [⟨i, h.origin, RecordType.SOA⟩]) := by
  have horigin : (h.logged i).origin = h.origin := rfl
  unfold apexSoa
  rw [horigin, ZoneHandler.lookup_logged]
  rcases h.lookup h.origin RecordType.SOA w with ⟨⟨r⟩ | ⟨r⟩ | _, w₁⟩
  · cases r <;> rfl
  · cases r <;> rfl
  · rfl

/-- Fetching the apex SOA asks the entry itself, once, or nobody. -/
theorem attachSoa_logged (entry : NamedHandler W) (result : LookupControlFlow) :
    ∃ soa, (soa = [] ∨ soa = [⟨i, entry.handler.origin, RecordType.SOA⟩]) ∧
      attachSoa (entry.logged i) result (w, log) =
        ((attachSoa entry result w).1, (attachSoa entry result w).2.1.logged i,
          (attachSoa entry result w).2.2, log ++ soa) := by
  have hauth : (entry.logged i).handler.authoritative = entry.handler.authoritative := rfl
  have happly : (entry.logged i).handler = entry.handler.logged i := rfl
  unfold attachSoa
  rw [hauth]
  by_cases hneg : (entry.handler.authoritative && result.isErr) = true
  · rw [if_pos hneg, if_pos hneg]
    cases hmemo : entry.apexSoa with
    | some cached =>
      refine ⟨[], .inl rfl, ?_⟩
      simp only [NamedHandler.logged, hmemo, List.append_nil]
    | none =>
      refine ⟨_, .inr rfl, ?_⟩
      simp only [happly, apexSoa_logged]
      simp only [NamedHandler.logged, hmemo]
      split
      · rfl
      · rw [hmemo]
  · rw [if_neg hneg, if_neg hneg]
    exact ⟨[], .inl rfl, by rw [List.append_nil]⟩

theorem skipAll_logged (h : skipAll name rtype chain w = some w') :
    skipAll name rtype (logged i chain) (w, log) =
      some (w', log ++ (List.range' i chain.length).map fun j => ⟨j, name, rtype⟩) := by
  induction chain generalizing w i log with
  | nil => cases h; simp [skipAll, logged]
  | cons entry handlers ih =>
    unfold skipAll at h
    split at h
    · next w₁ hl =>
      have hstep : (entry.logged i).handler.lookup name rtype (w, log) =
          (.skip, w₁, log ++ [⟨i, name, rtype⟩]) := by
        simp only [NamedHandler.logged, ZoneHandler.logged, hl]
      rw [logged, skipAll, hstep]
      simp only [ih _ _ h, List.append_assoc, List.length_cons, List.range'_succ, List.map_cons,
        List.cons_append, List.nil_append]
    · cases h

theorem logged_append (xs ys : List (NamedHandler W)) :
    logged i (xs ++ ys) = logged i xs ++ logged (i + xs.length) ys := by
  induction xs generalizing i with
  | nil => rfl
  | cons x xs ih =>
    rw [List.cons_append, logged, ih, logged, List.cons_append, List.length_cons,
      Nat.add_right_comm, Nat.add_assoc]

/-- The answer of the recording chain, and its log. -/
theorem resolve_logged_answer (hpre : skipAll name rtype pre w = some w')
    (he : (entry.handler.lookup name rtype w').1 ≠ .skip) (post : List (NamedHandler W)) :
    ∃ soa, (soa = [] ∨ soa = [⟨pre.length, entry.handler.origin, RecordType.SOA⟩]) ∧
      (resolve name rtype (logged 0 (pre ++ entry :: post)) (w, [])).1 =
        (resolve name rtype (pre ++ entry :: post) w).1 ∧
      asked name rtype (pre ++ entry :: post) w =
        ((List.range (pre.length + 1)).map fun j => ⟨j, name, rtype⟩) ++ soa := by
  have hlogged := skipAll_logged [] 0 hpre
  rw [List.nil_append, ← List.range_eq_range'] at hlogged
  have hlookup : (entry.logged pre.length).handler.lookup name rtype
      (w', (List.range pre.length).map fun j => ⟨j, name, rtype⟩) =
      ((entry.handler.lookup name rtype w').1, (entry.handler.lookup name rtype w').2,
        (List.range (pre.length + 1)).map fun j => ⟨j, name, rtype⟩) := by
    simp only [NamedHandler.logged, ZoneHandler.logged, List.range_succ, List.map_append,
      List.map_cons, List.map_nil]
  obtain ⟨soa, hsoa, hattach⟩ := attachSoa_logged (w := (entry.handler.lookup name rtype w').2)
    ((List.range (pre.length + 1)).map fun j => ⟨j, name, rtype⟩) pre.length entry
    (entry.handler.lookup name rtype w').1
  refine ⟨soa, hsoa, ?_⟩
  unfold asked
  rw [resolve_of_responder hpre he, logged_append, Nat.zero_add, logged,
    resolve_append hlogged, resolve_answer (by rw [hlookup]; exact he)]
  simp only [hlookup, hattach]
  obtain ⟨hname, hhandler⟩ := attachSoa_entry entry (entry.handler.lookup name rtype w').1
    (entry.handler.lookup name rtype w').2
  refine ⟨?_, trivial⟩
  simp only [NamedHandler.logged, hname, hhandler]
  rfl

/-- Nobody behind the answering entry is asked. -/
theorem index_le_of_asked {n : Nat} {origin : Name} {log soa : List Asked} {q : Asked}
    (hsoa : soa = [] ∨ soa = [⟨n, origin, RecordType.SOA⟩])
    (hlog : log = ((List.range (n + 1)).map fun j => ⟨j, name, rtype⟩) ++ soa) (hq : q ∈ log) :
    q.index ≤ n := by
  rw [hlog] at hq
  rcases List.mem_append.mp hq with hq | hq
  · obtain ⟨j, hj, rfl⟩ := List.mem_map.mp hq
    have := List.mem_range.mp hj
    simp only
    omega
  · rcases hsoa with rfl | rfl
    · cases hq
    · exact Nat.le_of_eq (congrArg Asked.index (List.mem_singleton.mp hq))

end

/-- Recording the lookups changes nothing else. -/
theorem resolve_logged (chain : List (NamedHandler W)) (w : W) :
    (resolve name rtype (logged 0 chain) (w, [])).1 = (resolve name rtype chain w).1 := by
  rcases exists_responder chain w with ⟨w', h⟩ | ⟨pre, entry, post, w', rfl, hpre, he⟩
  · rw [resolve_of_skipAll h, resolve_of_skipAll (skipAll_logged [] 0 h)]
  · obtain ⟨-, -, hres, -⟩ := resolve_logged_answer hpre he post
    exact hres

end

end DoggyDns
