import DoggyDns.Nacos.Zone

/-!
# Names and services, both ways

Inside a zone `service_name_from_name` reads exactly the names
`<service>.<group>.<namespace>.<zone>` of its own group and namespace, and a
service is the dotted join of the labels in front of the group: it names its
labels, so no two names share a service. The names between the zone's apex and
its services have no service of their own and do not exist for the authority,
whatever exists below them.
-/

namespace DoggyDns

/-! ## One label -/

/-- A label that is text: no control byte, no dot, valid UTF-8. -/
structure TextLabel (l : Label) : Prop where
  printable : ∀ b ∈ l, 0x20 ≤ b
  noDot : 0x2E ∉ l
  utf8 : validUtf8 l = true

theorem labelText_eq_some {l : Label} {text : List UInt8} :
    labelText l = some text ↔ TextLabel l ∧ l = text := by
  unfold labelText
  by_cases hbad : (l.any (· < 0x20) || l.contains 0x2E) = true
  · rw [if_pos hbad]
    refine iff_of_false nofun fun ⟨hl, _⟩ => ?_
    rcases Bool.or_eq_true_iff.mp hbad with hctl | hdot
    · obtain ⟨b, hb, hlt⟩ := List.any_eq_true.mp hctl
      exact UInt8.not_le.mpr (decide_eq_true_iff.mp hlt) (hl.printable b hb)
    · exact hl.noDot (List.contains_iff_mem.mp hdot)
  · rw [if_neg hbad]
    simp only [Bool.or_eq_true, List.any_eq_true, decide_eq_true_eq, not_or, not_exists, not_and,
      List.contains_iff_mem] at hbad
    by_cases hutf : validUtf8 l = true
    · rw [if_pos hutf, Option.some.injEq]
      exact (and_iff_right ⟨fun b hb => UInt8.not_lt.mp (hbad.1 b hb), hbad.2, hutf⟩).symm
    · rw [if_neg hutf]
      exact iff_of_false nofun fun ⟨hl, _⟩ => hutf hl.utf8

theorem any_labelText {l : Label} {p : List UInt8 → Bool} :
    (labelText l).any p = true ↔ TextLabel l ∧ p l = true := by
  rw [Option.any_eq_true]
  constructor
  · rintro ⟨text, htext, hp⟩
    obtain ⟨hl, rfl⟩ := labelText_eq_some.mp htext
    exact ⟨hl, hp⟩
  · rintro ⟨hl, hp⟩
    exact ⟨l, labelText_eq_some.mpr ⟨hl, rfl⟩, hp⟩

/-! ## The service's labels -/

/-- The labels of a service, joined by dots. -/
def dotted (labels : List Label) : List UInt8 := [0x2E].intercalate labels

theorem splitOn_dotted {labels : List Label} (hne : labels ≠ [])
    (h : ∀ l ∈ labels, TextLabel l) : (dotted labels).splitOn 0x2E = labels :=
  List.splitOn_intercalate 0x2E (fun l hl => (h l hl).noDot) hne

/-- One round of the loop over the service's labels. -/
def pushLabel (service : List UInt8) (entry : Label × Nat) : Option (List UInt8) := do
  let text ← labelText entry.1
  return if entry.2 = 0 then text else service ++ [0x2E] ++ text

theorem pushLabel_eq_some {service : List UInt8} {l : Label} {index : Nat} {text : List UInt8} :
    pushLabel service (l, index) = some text ↔
      TextLabel l ∧ (if index = 0 then l else service ++ [0x2E] ++ l) = text := by
  unfold pushLabel
  simp only [Option.bind_eq_bind, Option.bind_eq_some_iff, labelText_eq_some, Option.pure_def,
    Option.some.injEq]
  constructor
  · rintro ⟨text, ⟨hl, rfl⟩, h⟩
    exact ⟨hl, h⟩
  · rintro ⟨hl, h⟩
    exact ⟨l, ⟨hl, rfl⟩, h⟩

/-- The loop behind its first round: every label is appended behind a dot. -/
theorem foldlM_pushLabel {labels : List Label} {k : Nat} {head text : List UInt8} (hk : k ≠ 0) :
    (labels.zipIdx k).foldlM pushLabel head = some text ↔
      (∀ l ∈ labels, TextLabel l) ∧ dotted (head :: labels) = text := by
  induction labels generalizing k head with
  | nil => simp [dotted]
  | cons l labels ih =>
    rw [List.zipIdx_cons, List.foldlM_cons, Option.bind_eq_bind, Option.bind_eq_some_iff,
      List.forall_mem_cons]
    simp only [pushLabel_eq_some, if_neg hk, ih (Nat.succ_ne_zero k)]
    have hjoin : dotted ((head ++ [0x2E] ++ l) :: labels) = dotted (head :: l :: labels) := by
      cases labels with
      | nil => simp [dotted, List.intercalate_cons_cons]
      | cons => simp [dotted, List.intercalate_cons_cons]
    constructor
    · rintro ⟨service, ⟨hl, rfl⟩, hrest, rfl⟩
      exact ⟨⟨hl, hrest⟩, hjoin.symm⟩
    · rintro ⟨⟨hl, hrest⟩, rfl⟩
      exact ⟨_, ⟨hl, rfl⟩, hrest, hjoin⟩

theorem foldlM_service {labels : List Label} {text : List UInt8} (hne : labels ≠ []) :
    labels.zipIdx.foldlM pushLabel [] = some text ↔
      (∀ l ∈ labels, TextLabel l) ∧ dotted labels = text := by
  cases labels with
  | nil => exact absurd rfl hne
  | cons l labels =>
    rw [List.zipIdx_cons, List.foldlM_cons, Option.bind_eq_bind, Option.bind_eq_some_iff,
      List.forall_mem_cons]
    simp only [pushLabel_eq_some, if_true, foldlM_pushLabel (Nat.succ_ne_zero 0)]
    constructor
    · rintro ⟨_, ⟨hl, rfl⟩, hrest, rfl⟩
      exact ⟨⟨hl, hrest⟩, rfl⟩
    · rintro ⟨⟨hl, hrest⟩, rfl⟩
      exact ⟨l, ⟨hl, rfl⟩, hrest, rfl⟩

/-! ## Names of services -/

/-- `name` is `<service>.<g>.<n>.<zone>`, with the labels of the service, and `g` and `n` spell
the group and the namespace. -/
structure NamesService (name zone : Name) (group «namespace» : List UInt8)
    (service : List Label) (g n : Label) : Prop where
  labels : name.labels = service ++ [g, n] ++ zone.labels
  nonempty : service ≠ []
  text : ∀ l ∈ service, TextLabel l
  groupText : TextLabel g
  namespaceText : TextLabel n
  group : eqIgnoreAsciiCase g group = true
  «namespace» : eqIgnoreAsciiCase n «namespace» = true

section
variable {name zone : Name} {group «namespace» : List UInt8}

/-- Three labels and more in front of the zone, read from both ends. -/
theorem serviceNameFromName_of_labels {service : List Label} {g n : Label}
    (h : name.labels = service ++ [g, n] ++ zone.labels) (hne : service ≠ []) :
    serviceNameFromName name zone group «namespace» =
      (service.zipIdx.foldlM pushLabel []).bind fun text =>
        if !(labelText g).any (eqIgnoreAsciiCase · group) ||
          !(labelText n).any (eqIgnoreAsciiCase · «namespace») then none else some text := by
  have hpos := List.length_pos_iff.mpr hne
  have hlen : name.labels.length = service.length + 2 + zone.labels.length := by
    rw [h, List.length_append, List.length_append]
    rfl
  have hservice : name.labels.length - zone.labels.length - 2 = service.length := by omega
  unfold serviceNameFromName
  rw [if_neg (by omega), hservice, h, List.append_assoc]
  dsimp only
  rw [List.take_left, List.drop_left]
  rfl

theorem serviceNameFromName_of_short (h : name.labels.length < zone.labels.length + 3) :
    serviceNameFromName name zone group «namespace» = none := if_pos h

/-- What stands in front of the zone is too short, or ends in two labels. -/
theorem inZone_cases (hz : InZone zone name) :
    name.labels.length < zone.labels.length + 3 ∨
      ∃ service g n, name.labels = service ++ [g, n] ++ zone.labels ∧ service ≠ [] := by
  obtain ⟨front, hfront⟩ := hz
  by_cases hshort : front.length < 3
  · left
    rw [hfront, List.length_append]
    omega
  · right
    have htwo : (front.drop (front.length - 2)).length = 2 := by
      rw [List.length_drop]
      omega
    obtain ⟨g, n, hgn⟩ := List.length_eq_two.mp htwo
    refine ⟨front.take (front.length - 2), g, n, ?_, ?_⟩
    · rw [hfront, ← hgn, List.take_append_drop]
    · rw [← List.length_pos_iff, List.length_take]
      omega

theorem serviceNameFromName_eq_some {text : List UInt8} (hz : InZone zone name) :
    serviceNameFromName name zone group «namespace» = some text ↔
      ∃ service g n, NamesService name zone group «namespace» service g n ∧
        dotted service = text := by
  constructor
  · intro h
    rcases inZone_cases hz with hshort | ⟨service, g, n, hlabels, hne⟩
    · rw [serviceNameFromName_of_short hshort] at h
      cases h
    · rw [serviceNameFromName_of_labels hlabels hne] at h
      obtain ⟨text', hfold, hcheck⟩ := Option.bind_eq_some_iff.mp h
      obtain ⟨htext, rfl⟩ := (foldlM_service hne).mp hfold
      split at hcheck
      next => cases hcheck
      next hboth =>
      simp only [Bool.or_eq_true, Bool.not_eq_true', not_or, Bool.not_eq_false,
        any_labelText] at hboth
      exact ⟨service, g, n, ⟨hlabels, hne, htext, hboth.1.1, hboth.2.1, hboth.1.2, hboth.2.2⟩,
        Option.some.inj hcheck⟩
  · rintro ⟨service, g, n, hs, rfl⟩
    have hg : (labelText g).any (eqIgnoreAsciiCase · group) = true :=
      any_labelText.mpr ⟨hs.groupText, hs.group⟩
    have hn : (labelText n).any (eqIgnoreAsciiCase · «namespace») = true :=
      any_labelText.mpr ⟨hs.namespaceText, hs.namespace⟩
    rw [serviceNameFromName_of_labels hs.labels hs.nonempty,
      (foldlM_service hs.nonempty).mpr ⟨hs.text, rfl⟩, Option.bind_some, hg, hn]
    rfl

end

/-- A name in lower case, as the server hands every handler. -/
def Name.Lowercase (name : Name) : Prop := ∀ l ∈ name.labels, l.lower = l

/-- Two lowercase spellings of one text. -/
theorem eq_of_eqIgnoreAsciiCase {g h : Label} {text : List UInt8} (hg : g.lower = g)
    (hh : h.lower = h) (hgt : eqIgnoreAsciiCase g text = true)
    (hht : eqIgnoreAsciiCase h text = true) : g = h := by
  unfold eqIgnoreAsciiCase at hgt hht
  rw [decide_eq_true_iff] at hgt hht
  rw [← hg, ← hh]
  exact hgt.trans hht.symm

theorem NamesService.lower {name zone : Name} {group «namespace» : List UInt8}
    {service : List Label} {g n : Label} (h : NamesService name zone group «namespace» service g n)
    (hlow : name.Lowercase) : g.lower = g ∧ n.lower = n := by
  unfold Name.Lowercase at hlow
  rw [h.labels] at hlow
  exact ⟨hlow g (by simp), hlow n (by simp)⟩

/-- **A name in the zone and its service determine each other.** -/
theorem service_mapping_exact (zone : Name) (group «namespace» : List UInt8) :
    (∀ name text, InZone zone name →
      (serviceNameFromName name zone group «namespace» = some text ↔
        ∃ service g n, NamesService name zone group «namespace» service g n ∧
          dotted service = text)) ∧
    (∀ name text service g n, InZone zone name →
      serviceNameFromName name zone group «namespace» = some text →
      name.labels = service ++ [g, n] ++ zone.labels → text.splitOn 0x2E = service) ∧
    ∀ a b text, InZone zone a → InZone zone b → a.Lowercase → b.Lowercase →
      serviceNameFromName a zone group «namespace» = some text →
      serviceNameFromName b zone group «namespace» = some text → a = b := by
  refine ⟨fun name text hz => serviceNameFromName_eq_some hz, ?_, ?_⟩
  · intro name text service g n hz htext hlabels
    obtain ⟨service', g', n', hs, rfl⟩ := (serviceNameFromName_eq_some hz).mp htext
    rw [splitOn_dotted hs.nonempty hs.text]
    have heq := List.append_cancel_right (hs.labels.symm.trans hlabels)
    exact List.append_inj_left' heq rfl
  · intro a b text hza hzb hlowa hlowb ha hb
    obtain ⟨service, g, n, hsa, rfl⟩ := (serviceNameFromName_eq_some hza).mp ha
    obtain ⟨service', g', n', hsb, hjoin⟩ := (serviceNameFromName_eq_some hzb).mp hb
    have hservice : service' = service := by
      rw [← splitOn_dotted hsb.nonempty hsb.text, hjoin, splitOn_dotted hsa.nonempty hsa.text]
    obtain ⟨hga, hna⟩ := hsa.lower hlowa
    obtain ⟨hgb, hnb⟩ := hsb.lower hlowb
    have hg := eq_of_eqIgnoreAsciiCase hga hgb hsa.group hsb.group
    have hn := eq_of_eqIgnoreAsciiCase hna hnb hsa.namespace hsb.namespace
    have hlabels : a.labels = b.labels := by
      rw [hsa.labels, hsb.labels, hservice, hg, hn]
    cases a
    cases b
    cases hlabels
    rfl

/-! ## Names between the apex and a service -/

/-- The answer has records, or says that the name has other records. -/
def LookupControlFlow.NameExists (r : LookupControlFlow) : Prop :=
  (∃ lookup, r.result? = some (.ok lookup)) ∨ r.result? = some (.error .nameExists)

/-- The name or a name below it. -/
def AtOrBelow (d n : Name) : Prop := ∃ front, d.labels = front ++ n.labels

section
variable {W : Type} (a : NacosAuthority W) {name : Name} {rtype : RecordType} {w : W}

theorem not_nameExists_nxdomain : ¬ nxdomain.NameExists := by
  rintro (⟨_, h⟩ | h) <;> cases h

theorem NacosAuthority.answer_nameExists (instances : List CachedInstance) :
    (a.answer name instances rtype).NameExists := by
  unfold NacosAuthority.answer
  split
  next => exact .inr rfl
  next =>
    dsimp only
    split
    next => exact .inr rfl
    next => exact .inl ⟨_, rfl⟩

theorem NacosAuthority.lookup_apex (hz : InZone a.origin name)
    (hapex : name.labels.length = a.origin.labels.length) :
    (a.lookup name rtype w).1.NameExists := by
  unfold NacosAuthority.lookup
  rw [zoneOf_iff.mpr hz, if_neg (by decide), if_pos hapex]
  dsimp only
  split
  next => exact .inl ⟨_, rfl⟩
  next => exact .inr rfl

/-- Above the apex the catalog decides, where there is a service to ask it for. -/
theorem NacosAuthority.lookup_above (hz : InZone a.origin name)
    (hapex : name.labels.length ≠ a.origin.labels.length) :
    (a.lookup name rtype w).1 =
      match serviceNameFromName name a.origin a.group a.namespace with
      | none => nxdomain
      | some service =>
        match (a.catalog service w).1 with
        | .instances instances => a.answer name instances rtype
        | .unknown => nxdomain
        | .unavailable => servfail := by
  unfold NacosAuthority.lookup
  rw [zoneOf_iff.mpr hz, if_neg (by decide), if_neg hapex]
  cases serviceNameFromName name a.origin a.group a.namespace with
  | none => rfl
  | some service =>
    dsimp only
    obtain ⟨answer, w'⟩ := a.catalog service w
    cases answer <;> rfl

theorem NacosAuthority.lookup_eq_nxdomain_iff (hz : InZone a.origin name) :
    (a.lookup name rtype w).1 = nxdomain ↔
      name.labels.length ≠ a.origin.labels.length ∧
      ∀ service, serviceNameFromName name a.origin a.group a.namespace = some service →
        (a.catalog service w).1 = .unknown := by
  by_cases hapex : name.labels.length = a.origin.labels.length
  · refine iff_of_false (fun h => ?_) fun h => h.1 hapex
    exact not_nameExists_nxdomain (h ▸ a.lookup_apex hz hapex)
  · rw [a.lookup_above hz hapex, and_iff_right hapex]
    cases serviceNameFromName name a.origin a.group a.namespace with
    | none => exact iff_of_true rfl nofun
    | some service =>
      simp only [Option.some.injEq, forall_eq']
      cases hc : (a.catalog service w).1 with
      | instances l =>
        refine iff_of_false (fun h => ?_) nofun
        exact not_nameExists_nxdomain (h ▸ a.answer_nameExists l)
      | unknown => exact iff_of_true rfl rfl
      | unavailable => exact iff_of_false nofun nofun

theorem NacosAuthority.instances_of_nameExists (hz : InZone a.origin name)
    (hapex : name.labels.length ≠ a.origin.labels.length)
    (h : (a.lookup name rtype w).1.NameExists) :
    ∃ service l, serviceNameFromName name a.origin a.group a.namespace = some service ∧
      (a.catalog service w).1 = .instances l := by
  rw [a.lookup_above hz hapex] at h
  cases hs : serviceNameFromName name a.origin a.group a.namespace with
  | none =>
    rw [hs] at h
    exact absurd h not_nameExists_nxdomain
  | some service =>
    rw [hs] at h
    dsimp only at h
    cases hc : (a.catalog service w).1 with
    | instances l => exact ⟨service, l, rfl, hc⟩
    | unknown =>
      rw [hc] at h
      exact absurd h not_nameExists_nxdomain
    | unavailable =>
      rw [hc] at h
      rcases h with ⟨_, h⟩ | h <;> cases h

end

/-- Above a name for a service the labels of the service are the last ones of that. -/
theorem NamesService.above {n d zone : Name} {group «namespace» : List UInt8}
    {whole front service : List Label} {g m g' m' : Label}
    (hd : NamesService d zone group «namespace» whole g m) (hfront : d.labels = front ++ n.labels)
    (hn : n.labels = service ++ [g', m'] ++ zone.labels) (hne : service ≠ []) :
    whole = front ++ service ∧ NamesService n zone group «namespace» service g m := by
  have hsplit : whole ++ [g, m] = front ++ service ++ [g', m'] := by
    have hlabels := hd.labels.symm.trans (hfront.trans (congrArg (front ++ ·) hn))
    simp only [← List.append_assoc] at hlabels
    exact List.append_cancel_right hlabels
  obtain ⟨rfl, hgm⟩ := List.append_inj' hsplit rfl
  obtain ⟨rfl, rfl⟩ : g = g' ∧ m = m' := by simpa using hgm
  exact ⟨rfl, hn, hne, fun l hl => hd.text l (List.mem_append_right front hl), hd.groupText,
    hd.namespaceText, hd.group, hd.namespace⟩

/-- RFC 8020 for the zone: above a name that exists no name is NXDOMAIN. -/
def NxDomainClosed {W : Type} (a : NacosAuthority W) : Prop :=
  ∀ (n d : Name) (rtype rtype' : RecordType) (w w' : W), InZone a.origin n → AtOrBelow d n →
    (a.lookup d rtype w).1.NameExists → (a.lookup n rtype' w').1 ≠ nxdomain

/-- **Which names above an existing one do not exist.** The one or two labels between the apex
and the services are no names, and a dotted service does not make a name of its last labels;
every other name between an existing name and the apex exists. -/
theorem nxdomain_above_existing_iff {W : Type} (a : NacosAuthority W)
    {answers : List UInt8 → CatalogAnswer} (hfixed : ∀ service w, (a.catalog service w).1 =
      answers service)
    {n d : Name} {rtype rtype' : RecordType} {w w' : W} (hz : InZone a.origin n)
    (hbelow : AtOrBelow d n) (hexists : (a.lookup d rtype w).1.NameExists) :
    (a.lookup n rtype' w').1 = nxdomain ↔
      (∃ labels, n.labels = labels ++ a.origin.labels ∧ labels ≠ [] ∧ labels.length < 3) ∨
      ∃ front service g m, front ≠ [] ∧
        NamesService d a.origin a.group a.namespace (front ++ service) g m ∧
        NamesService n a.origin a.group a.namespace service g m ∧
        answers (dotted service) = .unknown := by
  obtain ⟨front, hfront⟩ := hbelow
  obtain ⟨labels, hlabels⟩ := id hz
  have hzd : InZone a.origin d := ⟨front ++ labels, by rw [hfront, hlabels, List.append_assoc]⟩
  rw [a.lookup_eq_nxdomain_iff hz]
  constructor
  · rintro ⟨hapex, hunknown⟩
    have hne : labels ≠ [] := by
      rintro rfl
      exact hapex (congrArg List.length hlabels)
    have hapexd : d.labels.length ≠ a.origin.labels.length := by
      have := List.length_pos_iff.mpr hne
      rw [hfront, hlabels, List.length_append, List.length_append]
      omega
    obtain ⟨text, l, htext, hinst⟩ := a.instances_of_nameExists hzd hapexd hexists
    obtain ⟨whole, g, m, hd, rfl⟩ := (serviceNameFromName_eq_some hzd).mp htext
    rcases inZone_cases hz with hshort | ⟨service, g', m', hn, hservice⟩
    · refine .inl ⟨labels, hlabels, hne, ?_⟩
      rw [hlabels, List.length_append] at hshort
      omega
    · obtain ⟨rfl, hns⟩ := hd.above hfront hn hservice
      have hun := hunknown _ ((serviceNameFromName_eq_some hz).mpr ⟨service, g, m, hns, rfl⟩)
      rw [hfixed] at hun hinst
      refine .inr ⟨front, service, g, m, ?_, hd, hns, hun⟩
      rintro rfl
      rw [List.nil_append, hun] at hinst
      cases hinst
  · rintro (⟨short, hshort, hne, hlt⟩ | ⟨_, service, g, m, -, -, hns, hun⟩)
    · have hlen := congrArg List.length hshort
      have hpos := List.length_pos_iff.mpr hne
      rw [List.length_append] at hlen
      refine ⟨by omega, fun service hs => ?_⟩
      rw [serviceNameFromName_of_short (by omega)] at hs
      cases hs
    · have hlen := congrArg List.length hns.labels
      rw [List.length_append, List.length_append] at hlen
      refine ⟨by simp only [List.length_cons, List.length_nil] at hlen; omega, fun text hs => ?_⟩
      obtain ⟨service', g', m', hns', rfl⟩ := (serviceNameFromName_eq_some hz).mp hs
      have heq := List.append_cancel_right (hns'.labels.symm.trans hns.labels)
      rw [List.append_inj_left' heq rfl, hfixed]
      exact hun

/-- A catalog that knows the service `s` alone. -/
def oneService (service : List UInt8) : CatalogAnswer :=
  if service = [0x73] then .instances [⟨.v4 0x0A000001, 80, true⟩] else .unknown

/-- The sample zone over that catalog. -/
def oneServiceZone : NacosAuthority Unit :=
  { sampleAuthority .unknown with catalog := fun service w => (oneService service, w) }

/-- The group and namespace of the sample service, and no service. -/
def groupName : Name := ⟨[[0x67], [0x6E], [0x7A]], by decide, by decide⟩

theorem nxdomain_above_service : (oneServiceZone.lookup groupName RecordType.A ()).1 = nxdomain ∧
    (oneServiceZone.lookup serviceName RecordType.A ()).1 ≠ nxdomain := by
  have hz : InZone oneServiceZone.origin groupName := ⟨[[0x67], [0x6E]], rfl⟩
  have hexists : (oneServiceZone.lookup serviceName RecordType.A ()).1.NameExists :=
    .inl ⟨.section [⟨serviceName, 60, .a 0x0A000001⟩], by decide +kernel⟩
  have hfixed : ∀ service w, (oneServiceZone.catalog service w).1 = oneService service :=
    fun _ _ => rfl
  refine ⟨(nxdomain_above_existing_iff oneServiceZone hfixed hz ⟨[[0x73]], rfl⟩ hexists).mpr
    (.inl ⟨[[0x67], [0x6E]], rfl, by decide, by decide⟩), fun hnx => ?_⟩
  exact not_nameExists_nxdomain (hnx ▸ hexists)

theorem not_nxDomainClosed : ¬ NxDomainClosed oneServiceZone := by
  intro hclosed
  refine hclosed groupName serviceName RecordType.A RecordType.A () () ⟨[[0x67], [0x6E]], rfl⟩
    ⟨[[0x73]], rfl⟩ (.inl ⟨.section [⟨serviceName, 60, .a 0x0A000001⟩], ?_⟩) ?_
  · decide +kernel
  · decide +kernel

end DoggyDns
