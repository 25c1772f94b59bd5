import DoggyDns.Nacos.Authority
import DoggyDns.Plugin.Consult

/-!
# Names of a zone stay in it

A `NacosAuthority` skips exactly the names outside its zone, so a name inside
never reaches the handlers behind it, whatever the catalog says and however
malformed the name is: no later handler is asked, and none can change the
answer.
-/

namespace DoggyDns

/-- The name is the zone's apex or stands below it. -/
def InZone (zone name : Name) : Prop := ∃ labels, name.labels = labels ++ zone.labels

theorem zoneOf_iff {zone name : Name} : zone.zoneOf name = true ↔ InZone zone name := by
  unfold Name.zoneOf InZone
  rw [List.isSuffixOf_iff_suffix]
  exact ⟨fun ⟨ls, h⟩ => ⟨ls, h.symm⟩, fun ⟨ls, h⟩ => ⟨ls, h.symm⟩⟩

section
variable {W : Type} {name : Name} {rtype : RecordType} {w : W}

theorem NacosAuthority.lookup_eq_skip_iff_inZone (a : NacosAuthority W) :
    (a.lookup name rtype w).1 = .skip ↔ ¬ InZone a.origin name := by
  rw [a.lookup_eq_skip_iff, ← zoneOf_iff, Bool.not_eq_true]

/-- Outside the zone no catalog is consulted: the backends stay as they are, whichever
catalog the authority has. -/
theorem NacosAuthority.lookup_of_notInZone (a : NacosAuthority W) (h : ¬ InZone a.origin name) :
    a.lookup name rtype w = (.skip, w) := by
  rw [← zoneOf_iff, Bool.not_eq_true] at h
  unfold NacosAuthority.lookup
  rw [h]
  rfl

/-- Where a chain holds a handler that does not skip, nobody behind it is asked. -/
theorem index_le_of_not_skip {pre post : List (NamedHandler W)} {entry : NamedHandler W}
    (h : ∀ w, (entry.handler.lookup name rtype w).1 ≠ .skip) {q : Asked}
    (hq : q ∈ asked name rtype (pre ++ entry :: post) w) : q.index ≤ pre.length := by
  rcases exists_responder pre w with ⟨w', hpre⟩ | ⟨pre₁, e, post₁, w', rfl, hpre, he⟩
  · obtain ⟨soa, hsoa, -, hasked⟩ := resolve_logged_answer hpre (h w') post
    exact index_le_of_asked hsoa hasked hq
  · rw [List.append_assoc, List.cons_append] at hq
    obtain ⟨soa, hsoa, -, hasked⟩ := resolve_logged_answer hpre he (post₁ ++ entry :: post)
    have := index_le_of_asked hsoa hasked hq
    rw [List.length_append]
    omega

/-- Where a chain holds a handler that does not skip, those behind it do not matter. -/
theorem resolve_congr_of_not_skip {pre : List (NamedHandler W)} {entry : NamedHandler W}
    (h : ∀ w, (entry.handler.lookup name rtype w).1 ≠ .skip) (post post' : List (NamedHandler W)) :
    (resolve name rtype (pre ++ entry :: post) w).1 =
      (resolve name rtype (pre ++ entry :: post') w).1 := by
  rcases exists_responder pre w with ⟨w', hpre⟩ | ⟨pre₁, e, post₁, w', rfl, hpre, he⟩
  · rw [resolve_of_responder hpre (h w'), resolve_of_responder hpre (h w')]
  · rw [List.append_assoc, List.append_assoc, List.cons_append, List.cons_append,
      resolve_of_responder hpre he, resolve_of_responder hpre he]

variable (name rtype w) in
/-- **Internal names never leak past their zone.** A chain answers with its first handler that
does not skip and asks nobody behind it; the authority skips exactly outside its zone; so a
name of the zone is answered the same whatever stands behind the authority. -/
theorem zone_never_leaks :
    (∀ chain : List (NamedHandler W),
      (resolve name rtype (logged 0 chain) (w, [])).1 = (resolve name rtype chain w).1 ∧
      ((∃ w', skipAll name rtype chain w = some w' ∧
          (resolve name rtype chain w).1 = ⟨.skip, none, false, none⟩) ∨
        ∃ pre entry post w', chain = pre ++ entry :: post ∧
          skipAll name rtype pre w = some w' ∧
          (entry.handler.lookup name rtype w').1 ≠ .skip ∧
          (resolve name rtype chain w).1.outcome = (entry.handler.lookup name rtype w').1 ∧
          (resolve name rtype chain w).1.handlerName = some entry.name ∧
          ∀ q ∈ asked name rtype chain w, q.index ≤ pre.length)) ∧
    (∀ a : NacosAuthority W, ((a.lookup name rtype w).1 = .skip ↔ ¬ InZone a.origin name) ∧
      (¬ InZone a.origin name → a.lookup name rtype w = (.skip, w))) ∧
    ∀ (a : NacosAuthority W) (pre post post' : List (NamedHandler W)) (entry : NamedHandler W),
      entry.handler = a.handler → InZone a.origin name →
      (∀ q ∈ asked name rtype (pre ++ entry :: post) w, q.index ≤ pre.length) ∧
      (resolve name rtype (pre ++ entry :: post) w).1 =
        (resolve name rtype (pre ++ entry :: post') w).1 := by
  refine ⟨fun chain => ⟨resolve_logged chain w, ?_⟩, fun a => ?_, ?_⟩
  · rcases exists_responder chain w with ⟨w', h⟩ | ⟨pre, entry, post, w', rfl, hpre, he⟩
    · exact .inl ⟨w', h, by rw [resolve_of_skipAll h]⟩
    · obtain ⟨soa, hsoa, -, hasked⟩ := resolve_logged_answer hpre he post
      refine .inr ⟨pre, entry, post, w', rfl, hpre, he, ?_, ?_, fun q hq => ?_⟩
      · rw [resolve_of_responder hpre he]
      · rw [resolve_of_responder hpre he]
      · exact index_le_of_asked hsoa hasked hq
  · exact ⟨a.lookup_eq_skip_iff_inZone, a.lookup_of_notInZone⟩
  · intro a pre post post' entry hentry hzone
    have hanswers : ∀ w, (entry.handler.lookup name rtype w).1 ≠ .skip := by
      intro w hskip
      rw [hentry] at hskip
      exact a.lookup_eq_skip_iff_inZone.mp hskip hzone
    exact ⟨fun q hq => index_le_of_not_skip hanswers hq, resolve_congr_of_not_skip hanswers _ _⟩

end

end DoggyDns
