import DoggyDns.Core.Cached
import DoggyDns.Plugin.Builtin
import DoggyDns.Nacos.Authority

/-!
# Where an NXDOMAIN comes from

For a chain of nacos, native and forward plugins, the response code a client
sees against what the consulted backends reported. Without a report that the
name does not exist, NXDOMAIN has two sources: every handler declined, which a
native handler does whenever its resolver gave no answer, or the first handler
that did not is a nacos handler under whose naming scheme the name stands for no
service, and which says so without asking its catalog.
-/

namespace DoggyDns

/-- An enabled plugin. -/
inductive Plugin (W : Type) where
  | nacos (a : NacosAuthority W)
  | native (resolver : Resolver W)
  | forward (resolver : Resolver W)

/-- What a backend said about a name. -/
inductive Report where
  | answers
  | nodata
  | nonexistent
  | failed
  deriving DecidableEq, Repr

/-- The report of a resolver lookup. -/
def reportOf : Except NetError (List Record) → Report
  | .ok answers => if answers.isEmpty then .nodata else .answers
  | .error e =>
    if e.isNxDomain ∨ e = .responseCode .nxDomain then .nonexistent
    else if e.isNoRecordsFound then .nodata else .failed

section
variable {W : Type}

def Plugin.handler : Plugin W → ZoneHandler W
  | .nacos a => a.handler
  | .native resolver => nativeAuthority resolver
  | .forward resolver => forwardAuthority resolver

/-- What the plugin's backend reports when the plugin is consulted. A nacos plugin asks its
catalog for service names only: not outside its zone, not at the apex, and not for a name of
the zone that its naming scheme makes no service of. -/
def Plugin.report (p : Plugin W) (name : Name) (rtype : RecordType) (w : W) : Option Report :=
  match p with
  | .nacos a =>
    if !a.origin.zoneOf name then none
    else if name.labels.length = a.origin.labels.length then none
    else
      match serviceNameFromName name a.origin a.group a.namespace with
      | none => none
      | some service =>
        match (a.catalog service w).1 with
        | .instances instances => some (if instances.isEmpty then .nodata else .answers)
        | .unknown => some .nonexistent
        | .unavailable => some .failed
  | .native resolver => some (reportOf (resolver name rtype w).1)
  | .forward resolver => some (reportOf (resolver name rtype w).1)

/-- When a plugin leaves a name to the next one. -/
def Plugin.Declines (p : Plugin W) (name : Name) (rtype : RecordType) (w : W) : Prop :=
  match p with
  | .nacos a => a.origin.zoneOf name = false
  | .native resolver => ∀ answers, (resolver name rtype w).1 = .ok answers → answers = []
  | .forward _ => False

/-- A name of a nacos plugin's zone, below the apex, that stands for no service. -/
def Plugin.Unmapped (p : Plugin W) (name : Name) : Prop :=
  match p with
  | .nacos a => a.origin.zoneOf name = true ∧ name.labels.length ≠ a.origin.labels.length ∧
      serviceNameFromName name a.origin a.group a.namespace = none
  | .native _ | .forward _ => False

section
variable (name : Name) (rtype : RecordType)

/-- The reports of the handlers a query consults: up to the first that does not skip. -/
def reports : List (Plugin W) → W → List Report
  | [], _ => []
  | p :: ps, w =>
    let (result, w') := p.handler.lookup name rtype w
    (p.report name rtype w).toList ++ if result = .skip then reports ps w' else []

/-- Every plugin of the chain declines. -/
def AllDecline : List (Plugin W) → W → Prop
  | [], _ => True
  | p :: ps, w => p.Declines name rtype w ∧ AllDecline ps (p.handler.lookup name rtype w).2

/-- The first plugin that does not decline is a nacos plugin to which the name stands for no
service. -/
def MeetsUnmapped : List (Plugin W) → W → Prop
  | [], _ => False
  | p :: ps, w => p.Unmapped name ∨
      p.Declines name rtype w ∧ MeetsUnmapped ps (p.handler.lookup name rtype w).2

end

/-! ## One plugin -/

section
variable {name : Name} {rtype : RecordType} {w : W}

theorem lookup_eq_skip_iff (p : Plugin W) :
    (p.handler.lookup name rtype w).1 = .skip ↔ p.Declines name rtype w := by
  cases p with
  | nacos a => exact a.lookup_eq_skip_iff name rtype w
  | native resolver =>
    simp only [Plugin.handler, nativeAuthority, nativeLookup, Plugin.Declines]
    rcases resolver name rtype w with ⟨_ | answers, w'⟩
    · simp
    · cases answers <;> simp
  | forward resolver =>
    simp only [Plugin.handler, forwardAuthority, forwardLookup, Plugin.Declines, iff_false]
    rcases resolver name rtype w with ⟨_ | answers, w'⟩
    · simp
    · cases answers <;> simp

/-- An error reply with code NXDOMAIN. -/
def LookupControlFlow.IsNxDomain (r : LookupControlFlow) : Prop :=
  ∃ e, r.result? = some (.error e) ∧ responseCodeForLookupError e = .nxDomain

theorem classifyError_nxDomain {e : NetError}
    (h : responseCodeForLookupError (classifyError e).2 = .nxDomain) :
    e.isNxDomain ∨ e = .responseCode .nxDomain := by
  cases e with
  | noRecordsFound code =>
    by_cases hc : code = .nxDomain
    · exact .inl (by simp [NetError.isNxDomain, hc])
    · simp [classifyError, NetError.isNxDomain, hc, NetError.isNoRecordsFound,
        responseCodeForLookupError] at h
  | responseCode code =>
    refine .inr ?_
    simpa [classifyError, NetError.isNxDomain, NetError.isNoRecordsFound,
      responseCodeForLookupError] using h
  | other =>
    simp [classifyError, NetError.isNxDomain, NetError.isNoRecordsFound,
      responseCodeForLookupError] at h

theorem NacosAuthority.answer_not_isNxDomain (a : NacosAuthority W)
    (instances : List CachedInstance) :
    ¬ (a.answer name instances rtype).IsNxDomain := by
  rintro ⟨e, hres, hcode⟩
  unfold NacosAuthority.answer at hres
  split at hres
  · cases hres
    cases hcode
  · simp only at hres
    split at hres
    · cases hres
      cases hcode
    · cases hres

/-- A nacos plugin's own NXDOMAIN, made without its catalog. -/
theorem unmapped_isNxDomain (p : Plugin W) (h : p.Unmapped name) :
    (p.handler.lookup name rtype w).1.IsNxDomain := by
  cases p with
  | nacos a =>
    obtain ⟨hzone, hbelow, hservice⟩ := h
    have hlookup : a.lookup name rtype w = (nxdomain, w) := by
      unfold NacosAuthority.lookup
      rw [hzone, hservice, if_neg (by decide), if_neg hbelow]
    show (a.lookup name rtype w).1.IsNxDomain
    rw [hlookup]
    exact ⟨_, rfl, rfl⟩
  | native | forward => exact h.elim

/-- A plugin answers NXDOMAIN only where its backend reported that the name does not exist, or of
its own for a name that stands for no service. -/
theorem report_of_isNxDomain (p : Plugin W) (h : (p.handler.lookup name rtype w).1.IsNxDomain) :
    p.report name rtype w = some .nonexistent ∨ p.Unmapped name := by
  cases p with
  | nacos a =>
    simp only [Plugin.handler, NacosAuthority.handler, NacosAuthority.lookup] at h
    simp only [Plugin.report, Plugin.Unmapped]
    split at h
    · obtain ⟨e, hres, -⟩ := h
      cases hres
    next hz =>
    rw [if_neg hz]
    split at h
    · obtain ⟨e, hres, hcode⟩ := h
      simp only at hres
      split at hres
      · cases hres
      · cases hres
        cases hcode
    next hapex =>
    rw [if_neg hapex]
    cases hs : serviceNameFromName name a.origin a.group a.namespace with
    | none => exact .inr ⟨by simpa using hz, hapex, rfl⟩
    | some service =>
      refine .inl ?_
      simp only [hs] at h ⊢
      split at h
      · exact absurd h (a.answer_not_isNxDomain _)
      · next hc => rw [hc]
      · obtain ⟨e, hres, hcode⟩ := h
        cases hres
        cases hcode
  | native resolver =>
    obtain ⟨e, hres, -⟩ := h
    simp only [Plugin.handler, nativeAuthority, nativeLookup] at hres
    split at hres
    · simp only at hres
      split at hres <;> cases hres
    · simp only [ite_self] at hres
      cases hres
  | forward resolver =>
    obtain ⟨e, hres, hcode⟩ := h
    simp only [Plugin.handler, forwardAuthority, forwardLookup] at hres
    simp only [Plugin.report]
    split at hres
    · simp only at hres
      split at hres
      · cases hres
        cases hcode
      · cases hres
    · next e' w' hr =>
      cases hres
      exact .inl (by rw [hr, reportOf, if_pos (classifyError_nxDomain hcode)])

end

/-! ## The chain -/

/-- The chain skips exactly when every plugin declines. Otherwise it answers what the first one
that does not decline answers: NXDOMAIN where that one's backend reported it, or of its own. -/
theorem resolve_outcome (name : Name) (rtype : RecordType) :
    ∀ {plugins : List (Plugin W)} {chain : List (NamedHandler W)} (w : W),
      chain.map NamedHandler.handler = plugins.map Plugin.handler →
      ((resolve name rtype chain w).1.outcome = .skip ↔ AllDecline name rtype plugins w) ∧
      ((resolve name rtype chain w).1.outcome.IsNxDomain →
        .nonexistent ∈ reports name rtype plugins w ∨ MeetsUnmapped name rtype plugins w) ∧
      (MeetsUnmapped name rtype plugins w → (resolve name rtype chain w).1.outcome.IsNxDomain)
  | [], [], w, _ => by
    refine ⟨by simp [resolve, AllDecline], ?_, False.elim⟩
    rintro ⟨e, hres, -⟩
    cases hres
  | [], _ :: _, _, h => by cases h
  | _ :: _, [], _, h => by cases h
  | p :: ps, entry :: chain, w, h => by
    simp only [List.map_cons, List.cons.injEq] at h
    obtain ⟨hp, hps⟩ := h
    have hskip : (p.handler.lookup name rtype w).1 = .skip ↔ p.Declines name rtype w :=
      lookup_eq_skip_iff p
    have hnx : (p.handler.lookup name rtype w).1.IsNxDomain →
        p.report name rtype w = some .nonexistent ∨ p.Unmapped name :=
      report_of_isNxDomain p
    have hown : p.Unmapped name → (p.handler.lookup name rtype w).1.IsNxDomain :=
      unmapped_isNxDomain p
    unfold resolve
    rw [reports, AllDecline, MeetsUnmapped, hp]
    cases hl : p.handler.lookup name rtype w with
    | mk result w' =>
      rw [hl] at hskip hnx hown
      obtain ⟨ih1, ih2, ih3⟩ := resolve_outcome name rtype w' hps
      cases result with
      | skip =>
        simp only [↓reduceIte, true_iff] at hskip ⊢
        refine ⟨by rw [ih1]; exact ⟨fun h => ⟨hskip, h⟩, fun h => h.2⟩, fun h => ?_, ?_⟩
        · exact (ih2 h).imp (List.mem_append_right _) fun hmeets => .inr ⟨hskip, hmeets⟩
        · rintro (hunmapped | ⟨-, hmeets⟩)
          · obtain ⟨e, hres, -⟩ := hown hunmapped
            cases hres
          · exact ih3 hmeets
      | «continue» r | «break» r =>
        refine ⟨iff_of_false (by simp) fun h => ?_, fun h => ?_, ?_⟩
        · exact absurd (hskip.mpr h.1) (by simp)
        · exact (hnx h).imp (fun hreport => by simp [hreport]) .inl
        · rintro (hunmapped | ⟨hdeclines, -⟩)
          · exact hown hunmapped
          · exact absurd (hskip.mpr hdeclines) (by simp)

/-! ## The reply -/

/-- A reply carries NXDOMAIN exactly when the chain skipped or answered it. -/
theorem respond_nxDomain_iff {hk : Hickory} {xdpEnabled : Bool} {rotation : AnswerRotation}
    {request : Request} {send : Send} {result : ResolveResult} :
    (∃ m ok, (m, ok) ∈ (respond hk xdpEnabled rotation request send result).sent ∧
      m.metadata.responseCode = .nxDomain) ↔
    result.outcome = .skip ∨ result.outcome.IsNxDomain := by
  -- without answers, one message goes out, with the code it was built for
  have herr : ∀ {code authoritative soa}, (∃ m ok, (m, ok) ∈
      [(sendError hk send 0 request code authoritative soa).2] ∧
        m.metadata.responseCode = .nxDomain) ↔
      code = .nxDomain := by
    intro code authoritative soa
    constructor
    · rintro ⟨m, ok, hm, hc⟩
      have := congrArg Prod.fst (List.mem_singleton.mp hm)
      rw [sendError_sent] at this
      subst this
      exact hc
    · intro hc
      exact ⟨_, _, List.mem_singleton_self _, by rw [sendError_sent]; exact hc⟩
  have hans : ∀ lookup, ¬ ∃ m ok, (m, ok) ∈
      (respondAnswers hk xdpEnabled rotation request send result lookup).sent ∧
      m.metadata.responseCode = .nxDomain := by
    rintro lookup ⟨m, ok, hm, hc⟩
    unfold respondAnswers at hm
    simp only at hm
    split at hm
    · cases List.mem_singleton.mp hm
      cases hc
    · rcases List.mem_cons.mp hm with hm | hm
      · cases hm
        cases hc
      · have := congrArg Prod.fst (List.mem_singleton.mp hm)
        rw [sendError_sent] at this
        subst this
        cases hc
  unfold respond LookupControlFlow.IsNxDomain
  cases result.outcome with
  | skip => exact iff_of_true (herr.mpr rfl) (.inl rfl)
  | «continue» r | «break» r =>
    cases r with
    | ok lookup => exact iff_of_false (hans lookup) (by simp [LookupControlFlow.result?])
    | error e => exact herr.trans (by simp [LookupControlFlow.result?])

/-- **When nobody reported that the name does not exist, the client is told NXDOMAIN exactly when
every plugin of the chain declined, or the first that did not is a nacos plugin to which the name
stands for no service.** -/
theorem nxDomain_sent_iff_allDecline {hk : Hickory} {h : DoggyDnsHandler W} {w : W}
    {request : Request}
    {send : Send} {plugins : List (Plugin W)} {query : Query}
    (hchain : h.authorityChain.map NamedHandler.handler = plugins.map Plugin.handler)
    (hbefore : (runBefore request h.middlewares 0).2 = false)
    (hquery : request.requestInfo = some query)
    (hreports : .nonexistent ∉ reports query.name query.queryType plugins w) :
    (∃ m ok, Event.sent m ok ∈ (handleRequest hk h w request send).events ∧
      m.metadata.responseCode = .nxDomain) ↔
    AllDecline query.name query.queryType plugins w ∨
      MeetsUnmapped query.name query.queryType plugins w := by
  have he : (handleRequest hk h w request send).events =
      (runBefore request h.middlewares 0).1 ++
        sentEvents (chainReply hk h w request send query).sent ++
        finish h.middlewares (chainReply hk h w request send query).outcome := by
    simp [handleRequest, chainReply, hbefore, hquery]
  obtain ⟨hskip, hnx, hown⟩ := resolve_outcome query.name query.queryType w hchain
  simp only [he, sent_mem_iff]
  unfold chainReply
  rw [respond_nxDomain_iff, hskip]
  exact or_congr_right ⟨fun hbad => (hnx hbad).resolve_left hreports, hown⟩

end

/-- A chain of plugins behind one middleware. -/
def pluginsHandler (plugins : List (Plugin Unit)) : DoggyDnsHandler Unit :=
  ⟨[⟨fun _ => .continue⟩], plugins.map fun p => ⟨"plugin", p.handler, none⟩, true, ⟨true, 0⟩⟩

/-- An upstream where the name exists without records of the queried type. -/
def nodataResolver : Resolver Unit := fun _ _ w => (.error (.noRecordsFound .noError), w)

/-- An upstream that cannot be reached. -/
def failingResolver : Resolver Unit := fun _ _ w => (.error .other, w)

/-- A nacos plugin that has every name in its zone; without a group and a namespace in front of
it, a name stands for no service. -/
def rootAuthority : NacosAuthority Unit :=
  { sampleAuthority (.instances []) with origin := Name.root }

/-- An upstream's NODATA is no NXDOMAIN; behind a resolver that failed, a name that stands for no
service is one. -/
theorem forward_nodata_not_nxDomain :
    (¬ ∃ m ok, Event.sent m ok ∈
        (handleRequest .plain (pluginsHandler [.forward nodataResolver])
          () sampleRequest sendOk).events ∧
      m.metadata.responseCode = .nxDomain) ∧
    ∃ m ok, Event.sent m ok ∈
        (handleRequest .plain (pluginsHandler [.native failingResolver, .nacos rootAuthority])
          () sampleRequest sendOk).events ∧
      m.metadata.responseCode = .nxDomain := by
  have hquery : sampleRequest.requestInfo =
    some ⟨⟨[[0x61]], by decide, by decide⟩, RecordType.A, 1⟩ := by
    decide +kernel
  have hforward : .nonexistent ∉
      reports ⟨[[0x61]], by decide, by decide⟩ RecordType.A [.forward nodataResolver] () := by
    decide +kernel
  have hnacos : .nonexistent ∉ reports ⟨[[0x61]], by decide, by decide⟩ RecordType.A
      [.native failingResolver, .nacos rootAuthority] () := by
    decide +kernel
  constructor
  · intro hs
    rcases (nxDomain_sent_iff_allDecline rfl rfl hquery hforward).mp hs with h | h | h
    · exact h.1
    · exact h
    · exact h.1
  · refine (nxDomain_sent_iff_allDecline rfl rfl hquery hnacos).mpr (.inr (.inr ⟨?_, .inl ?_⟩))
    · exact fun _ h => (nomatch h)
    · exact ⟨by decide +kernel, by decide +kernel, by decide +kernel⟩

theorem native_nodata_nxDomain :
    reports ⟨[[0x61]], by decide, by decide⟩ RecordType.A [.native nodataResolver] () = [.nodata] ∧
    ∃ m ok, Event.sent m ok ∈
        (handleRequest .plain (pluginsHandler [.native nodataResolver])
          () sampleRequest sendOk).events ∧
      m.metadata.responseCode = .nxDomain := by
  refine ⟨by decide +kernel, ?_⟩
  refine ⟨_, true, List.mem_cons_of_mem _ List.mem_cons_self, rfl⟩

end DoggyDns
