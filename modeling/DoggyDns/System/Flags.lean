import DoggyDns.Core.Reply
import DoggyDns.Lib.Run
import DoggyDns.System.Negative

/-!
# AA, RA and the SOA of a reply

The chain decides from the shape of a result which reply is authoritative and
which one carries the zone's SOA, and the handler applies both to whatever code
the result maps to. The two notions of a negative answer differ on one outcome:
the chain attaches the SOA to every error, while a Nacos catalog that cannot
answer makes the error a SERVFAIL.

The SOA comes out of a memo, so the law is stated for every handler that a
freshly built one can become by serving requests.
-/

namespace DoggyDns

open Lts

/-- `AuthorityChain::new`: no SOA has been fetched yet. -/
def AuthorityChain.new {W : Type} (handlers : List (String × ZoneHandler W)) :
    List (NamedHandler W) :=
  handlers.map fun (name, handler) => ⟨name, handler, none⟩

section
variable {W : Type}

/-- The plugin that answers a query, with the backends it was asked in. -/
def responder (name : Name) (rtype : RecordType) : List (Plugin W) → W → Option (Plugin W × W)
  | [], _ => none
  | p :: ps, w =>
    match p.handler.lookup name rtype w with
    | (.skip, w') => responder name rtype ps w'
    | _ => some (p, w)

/-- The zone's SOA, when the answering handler owns its zone and its apex lookup succeeds. -/
def apexOf (name : Name) (rtype : RecordType) : Option (Plugin W × W) → Option Record
  | some (p, w) =>
    if p.handler.authoritative then (apexSoa p.handler (p.handler.lookup name rtype w).2).1
    else none
  | none => none

/-- An NXDOMAIN or a NODATA. -/
def Message.IsNegative (m : Message) : Prop :=
  m.metadata.responseCode = .nxDomain ∨ (m.metadata.responseCode = .noError ∧ m.answers = [])

instance (m : Message) : Decidable m.IsNegative := inferInstanceAs (Decidable (_ ∨ _))

def Message.authoritySection (m : Message) : List Record := m.nameServers ++ m.soa

/-- The law of a reply's flags and authority section, given who answered. -/
structure FlagLaw (name : Name) (rtype : RecordType) (r : Option (Plugin W × W))
    (m : Message) : Prop where
  aa : m.metadata.authoritative = r.any fun (p, _) => p.handler.authoritative
  ra : m.metadata.recursionAvailable = !m.metadata.authoritative
  soa : m.authoritySection = if m.IsNegative then (apexOf name rtype r).toList else []
  failure : m.metadata.responseCode = .servFail ∨ m.metadata.responseCode = .refused →
    m.authoritySection = []

/-- The catalog cannot answer for the service the name stands for. -/
def NacosAuthority.Down (a : NacosAuthority W) (name : Name) (w : W) : Prop :=
  ∃ service, serviceNameFromName name a.origin a.group a.namespace = some service ∧
    (a.catalog service w).1 = .unavailable

/-- The answering plugin is a nacos plugin without a working catalog. -/
def CatalogDown (name : Name) : Option (Plugin W × W) → Prop
  | some (.nacos a, w) => a.Down name w
  | _ => False

/-! ## One plugin -/

/-- A zone's SOA is always there: its own record, from no backend. -/
theorem apexSoa_nacos (a : NacosAuthority W) (w : W) :
    apexSoa a.handler w = (some a.apexSoa, w) := by
  have hzone : a.origin.zoneOf a.origin = true := by
    unfold Name.zoneOf
    exact List.isSuffixOf_iff_suffix.mpr List.suffix_rfl
  have hlookup : a.handler.lookup a.handler.origin RecordType.SOA w =
      (.continue (.ok (.section [a.apexSoa])), w) := by
    simp only [NacosAuthority.handler, NacosAuthority.lookup, hzone, Bool.not_true,
      Bool.false_eq_true, ↓reduceIte]
  unfold apexSoa
  rw [hlookup]
  rfl

/-- The records a plugin puts into negative answers. -/
def Plugin.apex : Plugin W → Option Record
  | .nacos a => some a.apexSoa
  | _ => none

theorem Plugin.authoritative_eq (p : Plugin W) : p.handler.authoritative = p.apex.isSome := by
  cases p <;> rfl

theorem Plugin.apexSoa_eq (p : Plugin W) (h : p.handler.authoritative = true) (w : W) :
    (apexSoa p.handler w).1 = p.apex := by
  cases p with
  | nacos a => exact congrArg Prod.fst (apexSoa_nacos a w)
  | native resolver | forward resolver => cases h

theorem apexOf_some (name : Name) (rtype : RecordType) (p : Plugin W) (w : W) :
    apexOf name rtype (some (p, w)) = p.apex := by
  unfold apexOf
  simp only
  split
  · next hauth => exact p.apexSoa_eq hauth _
  · next hauth =>
    rw [p.authoritative_eq, Bool.not_eq_true, Option.isSome_eq_false_iff] at hauth
    exact (Option.isNone_iff_eq_none.mp hauth).symm

/-- A chain entry for a plugin, whose memo holds nothing but the zone's own SOA. -/
structure EntryOf (p : Plugin W) (entry : NamedHandler W) : Prop where
  handler : entry.handler = p.handler
  memo : ∀ soa, entry.apexSoa = some soa → p.apex = some soa

/-- What an answer of the plugin carries, and that the memo stays sound. -/
theorem EntryOf.attachSoa {p : Plugin W} {entry : NamedHandler W} (h : EntryOf p entry)
    (result : LookupControlFlow) (w : W) :
    (attachSoa entry result w).1 = (if result.isErr then p.apex else none) ∧
    EntryOf p (DoggyDns.attachSoa entry result w).2.1 := by
  unfold DoggyDns.attachSoa
  rw [h.handler]
  by_cases hauth : p.handler.authoritative = true
  · rw [hauth, Bool.true_and]
    cases result.isErr with
    | false => exact ⟨rfl, h⟩
    | true =>
      simp only [↓reduceIte]
      cases hm : entry.apexSoa with
      | some cached => exact ⟨(h.memo cached hm).symm, h⟩
      | none =>
        refine ⟨p.apexSoa_eq hauth w, ?_⟩
        simp only
        split
        · exact ⟨rfl, fun soa hs => by rw [← p.apexSoa_eq hauth w]; exact hs⟩
        · exact h
  · have hnone : p.apex = none := by
      rw [p.authoritative_eq, Bool.not_eq_true, Option.isSome_eq_false_iff] at hauth
      exact Option.isNone_iff_eq_none.mp hauth
    rw [Bool.not_eq_true] at hauth
    rw [hauth, hnone]
    exact ⟨by simp, h⟩

/-- What a nacos plugin answers inside its zone: SERVFAIL exactly when its catalog is down. -/
theorem NacosAuthority.lookup_outcome (a : NacosAuthority W) {name : Name} {rtype : RecordType}
    {w : W} (h : (a.lookup name rtype w).1 ≠ .skip) :
    (¬ a.Down name w ∧
      ((∃ records, records ≠ [] ∧
          (a.lookup name rtype w).1 = .continue (.ok (.section records))) ∨
        (a.lookup name rtype w).1 = .continue (.error .nameExists) ∨
        (a.lookup name rtype w).1 = nxdomain)) ∨
    (a.Down name w ∧ (a.lookup name rtype w).1 = servfail) := by
  unfold NacosAuthority.Down
  unfold NacosAuthority.lookup at h ⊢
  split at h
  · exact absurd rfl h
  next hzone =>
  rw [if_neg hzone]
  by_cases hapex : name.labels.length = a.origin.labels.length
  · have hnone : serviceNameFromName name a.origin a.group a.namespace = none := by
      unfold serviceNameFromName
      exact if_pos (by omega)
    rw [if_pos hapex, hnone]
    refine .inl ⟨by simp, ?_⟩
    simp only
    split
    · exact .inl ⟨[a.apexSoa], by simp, rfl⟩
    · exact .inr (.inl rfl)
  rw [if_neg hapex]
  cases hs : serviceNameFromName name a.origin a.group a.namespace with
  | none => exact .inl ⟨by simp, .inr (.inr rfl)⟩
  | some service =>
    simp only [Option.some.injEq]
    have hup : (a.catalog service w).1 ≠ .unavailable →
        ¬ ∃ service', service = service' ∧ (a.catalog service' w).1 = .unavailable := by
      rintro hne ⟨_, rfl, hdown⟩
      exact hne hdown
    cases hc : a.catalog service w with
    | mk answer w' =>
      rw [hc] at hup
      cases answer with
      | unavailable => exact .inr ⟨⟨service, rfl, by rw [hc]⟩, rfl⟩
      | unknown => exact .inl ⟨hup (by simp), .inr (.inr rfl)⟩
      | instances instances =>
        refine .inl ⟨hup (by simp), ?_⟩
        simp only [NacosAuthority.answer]
        split
        · exact .inr (.inl rfl)
        · split
          · exact .inr (.inl rfl)
          · next hne => exact .inl ⟨_, by simpa using hne, rfl⟩

/-! ## The chain -/

section
variable {name : Name} {rtype : RecordType}

variable (name rtype) in
/-- The chain answers what the responder answers, and every memo stays sound. -/
theorem resolve_responder {plugins : List (Plugin W)} {chain : List (NamedHandler W)}
    (h : List.Forall₂ EntryOf plugins chain) (w : W) :
    List.Forall₂ EntryOf plugins (resolve name rtype chain w).2.1 ∧
    (responder name rtype plugins w = none →
      (resolve name rtype chain w).1 = ⟨.skip, none, false, none⟩) ∧
    ∀ p w', responder name rtype plugins w = some (p, w') →
      (p.handler.lookup name rtype w').1 ≠ .skip ∧
      ∃ label, (resolve name rtype chain w).1 =
        ⟨(p.handler.lookup name rtype w').1, label, p.handler.authoritative,
          if (p.handler.lookup name rtype w').1.isErr then p.apex else none⟩ := by
  induction h generalizing w with
  | nil => exact ⟨.nil, fun _ => rfl, fun _ _ hr => by cases hr⟩
  | @cons p entry plugins chain hp hps ih =>
    unfold resolve responder
    rw [hp.handler]
    cases hl : p.handler.lookup name rtype w with
    | mk result w₁ =>
      cases result with
      | skip =>
        obtain ⟨hchain, hnone, hsome⟩ := ih w₁
        exact ⟨.cons hp hchain, hnone, hsome⟩
      | «continue» r | «break» r =>
        obtain ⟨hsoa, hentry⟩ := hp.attachSoa (p.handler.lookup name rtype w).1 w₁
        rw [hl] at hsoa hentry
        refine ⟨.cons hentry hps, fun hr => (by cases hr), ?_⟩
        rintro _ _ ⟨⟩
        rw [hl]
        refine ⟨by simp, ?_⟩
        rw [← hsoa, ← hentry.handler]
        exact ⟨_, rfl⟩

/-! ## The reply -/

/-- The message built for a chain result. -/
def replyMessage (hk : Hickory) (request : Request) (rotation : AnswerRotation)
    (result : ResolveResult) : Message :=
  Message.build request (errorMetadata hk request result.code result.aa)
    (result.answers rotation) [] result.authority []

theorem length_apply (rotation : AnswerRotation) (records : List Record) :
    (rotation.apply records).1.length = records.length := by
  unfold AnswerRotation.apply
  split
  · rfl
  · simp

variable {hk : Hickory} {request : Request} {rotation : AnswerRotation}

/-- An answer without a zone behind it: no AA, no SOA. -/
theorem flagLaw_external {r : Option (Plugin W × W)} {outcome : LookupControlFlow}
    {label : Option String} (hauth : r.any (fun (p, _) => p.handler.authoritative) = false)
    (hapex : apexOf name rtype r = none) :
    FlagLaw name rtype r (replyMessage hk request rotation ⟨outcome, label, false, none⟩) := by
  have haa : ResolveResult.aa ⟨outcome, label, false, none⟩ = false := by
    unfold ResolveResult.aa
    split <;> rfl
  have hsoa : ResolveResult.authority ⟨outcome, label, false, none⟩ = [] := by
    unfold ResolveResult.authority
    split <;> rfl
  have hsection : (replyMessage hk request rotation
      ⟨outcome, label, false, none⟩).authoritySection = [] := hsoa
  exact {
    aa := by rw [hauth]; exact haa
    ra := rfl
    soa := by rw [hsection, hapex]; simp
    failure := fun _ => hsection }

theorem flagLaw_nacos {a : NacosAuthority W} {w : W} {label : Option String}
    (hskip : (a.lookup name rtype w).1 ≠ .skip) :
    FlagLaw name rtype (some (.nacos a, w)) (replyMessage hk request rotation
      ⟨(a.lookup name rtype w).1, label, true,
        if (a.lookup name rtype w).1.isErr then some a.apexSoa else none⟩) ↔
    ¬ a.Down name w := by
  have hapex : apexOf name rtype (some (Plugin.nacos a, w)) = some a.apexSoa :=
    apexOf_some name rtype (.nacos a) w
  have hany : (some (Plugin.nacos a, w)).any (fun (p, _) => p.handler.authoritative) = true := rfl
  rcases a.lookup_outcome hskip with ⟨hup, ⟨records, hne, hl⟩ | hl | hl⟩ | ⟨hdown, hl⟩
  · refine iff_of_true ?_ hup
    rw [hl]
    have hans : (rotation.apply records).1 ≠ [] := by
      rw [← List.length_pos_iff, length_apply]
      exact List.length_pos_iff.mpr hne
    have hneg : ¬ (replyMessage hk request rotation
        ⟨.continue (.ok (.section records)), label, true, none⟩).IsNegative := by
      rintro (hc | ⟨-, hc⟩)
      · cases hc
      · exact hans hc
    exact {
      aa := hany.symm
      ra := rfl
      soa := (if_neg hneg).symm
      failure := fun _ => rfl }
  · refine iff_of_true ?_ hup
    rw [hl]
    have hneg : (replyMessage hk request rotation
        ⟨.continue (.error .nameExists), label, true, some a.apexSoa⟩).IsNegative :=
      .inr ⟨rfl, rfl⟩
    exact {
      aa := hany.symm
      ra := rfl
      soa := by rw [hapex]; exact (if_pos hneg).symm
      failure := fun hc => by rcases hc with hc | hc <;> cases hc }
  · refine iff_of_true ?_ hup
    rw [hl]
    have hneg : (replyMessage hk request rotation
        ⟨nxdomain, label, true, some a.apexSoa⟩).IsNegative := .inl rfl
    exact {
      aa := hany.symm
      ra := rfl
      soa := by rw [hapex]; exact (if_pos hneg).symm
      failure := fun hc => by rcases hc with hc | hc <;> cases hc }
  · refine iff_of_false (fun hlaw => ?_) (fun hup => hup hdown)
    rw [hl] at hlaw
    have hempty := hlaw.failure (.inl rfl)
    cases hempty

/-- The law holds of the reply to any chain result exactly when the catalog behind it is up. -/
theorem flagLaw_replyMessage {plugins : List (Plugin W)} {chain : List (NamedHandler W)}
    (h : List.Forall₂ EntryOf plugins chain) (w : W) :
    FlagLaw name rtype (responder name rtype plugins w)
      (replyMessage hk request rotation (resolve name rtype chain w).1) ↔
    ¬ CatalogDown name (responder name rtype plugins w) := by
  obtain ⟨-, hnone, hsome⟩ := resolve_responder name rtype h w
  cases hr : responder name rtype plugins w with
  | none =>
    rw [hnone hr]
    exact iff_of_true (flagLaw_external rfl rfl) id
  | some pw =>
    obtain ⟨p, w'⟩ := pw
    obtain ⟨hskip, label, hres⟩ := hsome p w' hr
    rw [hres]
    cases p with
    | nacos a => exact flagLaw_nacos hskip
    | native resolver | forward resolver =>
      refine iff_of_true ?_ id
      have hsoa : ∀ b : Bool, (if b = true then (none : Option Record) else none) = none := by simp
      simp only [Plugin.apex, hsoa]
      exact flagLaw_external rfl rfl

end

/-! ## Over a run -/

/-- A request as it comes in: its backends and its socket are the environment's choice. -/
structure Exchange (W : Type) where
  world : W
  request : Request
  send : Send

/-- Serving one request. -/
def Serve (hk : Hickory) (h : DoggyDnsHandler W) (x : Exchange W) (h' : DoggyDnsHandler W) : Prop :=
  h' = (handleRequest hk h x.world x.request x.send).handler

theorem Serve.entries {hk : Hickory} {h h' : DoggyDnsHandler W} {x : Exchange W}
    {plugins : List (Plugin W)} (hs : Serve hk h x h')
    (he : List.Forall₂ EntryOf plugins h.authorityChain) :
    List.Forall₂ EntryOf plugins h'.authorityChain := by
  cases hs
  unfold handleRequest
  simp only
  split
  · exact he
  · split
    · exact he
    · exact (resolve_responder _ _ he _).1

theorem entryOf_new (plugins : List (String × Plugin W)) :
    List.Forall₂ EntryOf (plugins.map Prod.snd)
      (AuthorityChain.new (plugins.map fun (name, p) => (name, p.handler))) := by
  induction plugins with
  | nil => exact .nil
  | cons np plugins ih => exact .cons ⟨rfl, fun _ hs => by cases hs⟩ ih

/-- **AA, RA and the SOA are as the answering handler demands, unless it is a nacos plugin
whose catalog cannot answer.** Whatever follows a reply on the socket is a bare SERVFAIL. -/
theorem flagLaw_iff_catalog_up {hk : Hickory} {plugins : List (String × Plugin W)}
    {h₀ h : DoggyDnsHandler W} {ls : List (Exchange W)}
    (hfresh : h₀.authorityChain =
      AuthorityChain.new (plugins.map fun (name, p) => (name, p.handler)))
    (hrun : Run (Serve hk) h₀ ls h) (w : W) {request : Request} (send : Send) {query : Query}
    (hbefore : (runBefore request h.middlewares 0).2 = false)
    (hquery : request.requestInfo = some query) :
    ∃ m rest, sentMessages (handleRequest hk h w request send).events = m :: rest ∧
      (FlagLaw query.name query.queryType
          (responder query.name query.queryType (plugins.map Prod.snd) w) m ↔
        ¬ CatalogDown query.name
          (responder query.name query.queryType (plugins.map Prod.snd) w)) ∧
      ∀ m' ∈ rest, m'.metadata.responseCode = .servFail ∧ m'.metadata.authoritative = false ∧
        m'.metadata.recursionAvailable = true ∧ m'.authoritySection = [] := by
  have hentries : List.Forall₂ EntryOf (plugins.map Prod.snd) h.authorityChain :=
    hrun.invariant (hfresh ▸ entryOf_new plugins) fun he hs => hs.entries he
  obtain ⟨ok, rest, hsent, hrest⟩ := respond_sent hk h.xdpEnabled h.rotation request send
    (resolve query.name query.queryType h.authorityChain w).1
  refine ⟨replyMessage hk request h.rotation
    (resolve query.name query.queryType h.authorityChain w).1, rest.map Prod.fst, ?_,
    flagLaw_replyMessage hentries w, ?_⟩
  · rw [sentMessages_handleRequest hbefore hquery, chainReply, hsent]
    rfl
  · intro m' hm'
    obtain ⟨p, hp, rfl⟩ := List.mem_map.mp hm'
    rw [hrest p hp]
    exact ⟨rfl, rfl, rfl, rfl⟩

end

/-- A handler freshly built with one nacos plugin. -/
def sampleHandler (answer : CatalogAnswer) : DoggyDnsHandler Unit :=
  ⟨[], AuthorityChain.new [("nacos", (sampleAuthority answer).handler)], false, ⟨true, 0⟩⟩

/-- A query for the sample service. -/
def serviceRequest : Request :=
  { sampleRequest with queries := [⟨serviceName, RecordType.A, 1⟩] }

theorem flagLaw_unknown_service :
    ∃ m rest, sentMessages (handleRequest .plain (sampleHandler .unknown) () serviceRequest
        sendOk).events = m :: rest ∧
      FlagLaw serviceName RecordType.A
        (responder serviceName RecordType.A [.nacos (sampleAuthority .unknown)] ()) m := by
  have hquery : serviceRequest.requestInfo = some ⟨serviceName, RecordType.A, 1⟩ := by
    decide +kernel
  have hfresh : (sampleHandler .unknown).authorityChain = AuthorityChain.new
      ([("nacos", Plugin.nacos (sampleAuthority .unknown))].map fun (name, p) =>
        (name, p.handler)) := rfl
  have hrun : Run (Serve .plain) (sampleHandler .unknown) [] (sampleHandler .unknown) := .nil
  obtain ⟨m, rest, hsent, hlaw, -⟩ := flagLaw_iff_catalog_up hfresh hrun () sendOk rfl hquery
  refine ⟨m, rest, hsent, hlaw.mpr ?_⟩
  rintro ⟨service, -, hdown⟩
  cases hdown

theorem servFail_carries_soa :
    ∃ m, sentMessages (handleRequest .plain (sampleHandler .unavailable) () serviceRequest
        sendOk).events = [m] ∧
      m.metadata.responseCode = .servFail ∧ m.authoritySection = [sampleSoa] ∧
      ¬ FlagLaw serviceName RecordType.A
        (responder serviceName RecordType.A [.nacos (sampleAuthority .unavailable)] ()) m := by
  refine ⟨Message.build serviceRequest (errorMetadata .plain serviceRequest .servFail true) [] []
    [sampleSoa] [], by decide +kernel, rfl, rfl, fun h => ?_⟩
  have hempty := h.failure (.inl rfl)
  cases hempty

end DoggyDns
