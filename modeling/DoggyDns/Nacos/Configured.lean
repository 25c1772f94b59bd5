import DoggyDns.Basic.Validate
import DoggyDns.Nacos.Authority

/-!
# From the configured zone to the served one

`NacosAuthority::new` reads the zone with hickory's `Name::from_ascii` and takes
the root for a zone that it does not accept, and `build_soa_record` reads the
RNAME back from the zone's `Display`. `validate_dns_zone` accepted the text by a
grammar of its own. The two grammars differ in three places: hickory accepts no
label that starts with a hyphen, `hostmaster.<zone>` is longer than the zone, and
`Display` spells a punycode label in Unicode.

What hickory makes of names is the parameter `HickoryNames`.
-/

namespace DoggyDns

/-! ## Names as text -/

/-- A label of ASCII bytes as text. -/
def Label.text (l : Label) : Text := l.map fun b => Char.ofNat b.toNat

/-- Labels with a dot behind each. -/
def spelled (parts : List Text) : Text := parts.flatMap (· ++ ['.'])

/-- A label `Name::from_ascii` accepts: letters, digits, underscores and hyphens, with no hyphen
in the first place but perhaps an asterisk. -/
def isAsciiLabel : Label → Bool
  | [] => false
  | b :: rest =>
    (isAsciiAlphanumeric b || b = 0x5F || b = 0x2A) && rest.all isZoneByte && rest.length < 63

/-- The name with these labels, where they make one. -/
def nameOf (parts : List Text) : Option Name :=
  let labels := parts.map utf8
  if h : (∀ l ∈ labels, isAsciiLabel l) ∧ LabelsOk labels ∧
      (wire labels).length ≤ Name.MAX_LENGTH then
    some ⟨labels, h.2.1, h.2.2⟩
  else none

/-- What starts a punycode label. -/
def IDNA_PREFIX : List UInt8 := [0x78, 0x6E, 0x2D, 0x2D]

/-- Names and text, as hickory has them. -/
structure HickoryNames where
  /-- `Name::from_ascii`; `none` is its error. -/
  fromAscii : Text → Option Name
  /-- `Display`. -/
  display : Name → Text
  /-- What IDNA decodes a punycode label to, where it is one. -/
  toUnicode : Label → Option Text

/-- A label as `Display` shows it. -/
def HickoryNames.shown (names : HickoryNames) (l : Label) : Text :=
  if IDNA_PREFIX.isPrefixOf l then (names.toUnicode l).getD l.text else l.text

structure HickoryNames.Lawful (names : HickoryNames) : Prop where
  /-- A text of labels without escapes is accepted exactly when the labels are. -/
  fromAscii_spelled : ∀ parts, parts ≠ [] →
    (∀ part ∈ parts, part ≠ [] ∧ '.' ∉ part ∧ '\\' ∉ part) →
    names.fromAscii (spelled parts) = nameOf parts
  /-- Only ASCII is accepted. -/
  fromAscii_ascii : ∀ text name, names.fromAscii text = some name → ∀ c ∈ text, c.toNat < 128
  /-- A name whose labels need no escape is spelled label by label. -/
  display_eq : ∀ name : Name, name.labels ≠ [] → (∀ l ∈ name.labels, isAsciiLabel l) →
    names.display name = spelled (name.labels.map names.shown)
  /-- A decoded label is no ASCII text. -/
  toUnicode_unicode : ∀ l text, names.toUnicode l = some text → ∃ c ∈ text, 128 ≤ c.toNat

/-! ## Building the authority -/

section
variable {W : Type} (names : HickoryNames) (catalog : List UInt8 → W → CatalogAnswer × W)

/-- SOA for the zone apex: the apex is the MNAME, `hostmaster.<zone>` the RNAME. -/
def buildSoaRecord (zone : Name) (ttl : UInt32) : Record :=
  let admin := (names.fromAscii ("hostmaster.".toList ++ names.display zone)).getD Name.root
  ⟨zone, ttl, .soa ⟨zone, admin, 1, 3600, 600, 86400, ttl⟩⟩

def NacosAuthority.new (dnsZone group «namespace» : Text) (ttl : UInt32) : NacosAuthority W :=
  let zoneName := trimEndMatches '.' dnsZone ++ ['.']
  let zone := (names.fromAscii zoneName).getD Name.root
  { catalog
    ttl
    origin := zone.lower
    group := utf8 group
    «namespace» := utf8 «namespace»
    apexSoa := buildSoaRecord names zone ttl }

/-- The authority that is built for an enabled Nacos plugin. -/
def pluginAuthority (plugin : PluginConfig) : NacosAuthority W :=
  NacosAuthority.new names catalog (plugin.dnsZone.getD "nacos.local".toList)
    (plugin.group.getD "DEFAULT_GROUP".toList) (plugin.namespace.getD "public".toList) plugin.ttl

end

/-! ## ASCII texts -/

section
variable {c : Char} {t : Text}

theorem utf8EncodeChar_of_ascii (h : c.toNat < 128) :
    String.utf8EncodeChar c = [UInt8.ofNat c.toNat] :=
  if_pos (Nat.le_of_lt_succ h)

/-- Outside ASCII a character's first byte is none of ASCII's. -/
theorem ascii_of_bytes (h : ∀ b ∈ String.utf8EncodeChar c, b.toNat < 128) : c.toNat < 128 := by
  by_contra hc
  have hhead : ∃ b rest, String.utf8EncodeChar c = b :: rest ∧ 128 ≤ b.toNat := by
    unfold String.utf8EncodeChar
    dsimp only
    rw [if_neg (show ¬ c.val.toNat ≤ 127 from fun hle => hc (Nat.lt_succ_of_le hle))]
    split
    · refine ⟨_, _, rfl, ?_⟩
      rw [UInt8.toNat_ofNat_of_lt' (by simp [UInt8.size]; omega)]
      omega
    · split
      · refine ⟨_, _, rfl, ?_⟩
        rw [UInt8.toNat_ofNat_of_lt' (by simp [UInt8.size]; omega)]
        omega
      · refine ⟨_, _, rfl, ?_⟩
        rw [UInt8.toNat_ofNat_of_lt' (by simp [UInt8.size]; omega)]
        omega
  obtain ⟨b, rest, heq, hb⟩ := hhead
  have := h b (heq ▸ List.mem_cons_self)
  omega

theorem toNat_lt_of_isZoneByte {b : UInt8} (h : isZoneByte b = true) : b.toNat < 128 := by
  simp [isZoneByte, isAsciiAlphanumeric, UInt8.le_iff_toNat_le, ← UInt8.toNat_inj] at h
  omega

theorem text_utf8 (h : ∀ c ∈ t, c.toNat < 128) : Label.text (utf8 t) = t := by
  induction t with
  | nil => rfl
  | cons c t ih =>
    obtain ⟨hc, ht⟩ := List.forall_mem_cons.mp h
    unfold utf8 Label.text at ih ⊢
    rw [List.flatMap_cons, List.map_append, ih ht, utf8EncodeChar_of_ascii hc]
    have hbyte : (UInt8.ofNat c.toNat).toNat = c.toNat :=
      UInt8.toNat_ofNat_of_lt' (by simp [UInt8.size]; omega)
    simp [hbyte]

theorem lower_ascii (h : c.toNat < 128) :
    c.toLower.toNat < 128 ∧
      UInt8.ofNat c.toLower.toNat = toAsciiLowercase (UInt8.ofNat c.toNat) := by
  have hall : ∀ n < 128, (Char.ofNat n).toLower.toNat < 128 ∧
      UInt8.ofNat (Char.ofNat n).toLower.toNat = toAsciiLowercase (UInt8.ofNat n) := by decide
  simpa using hall c.toNat h

theorem lower_utf8 (h : ∀ c ∈ t, c.toNat < 128) :
    utf8 (t.map Char.toLower) = Label.lower (utf8 t) := by
  induction t with
  | nil => rfl
  | cons c t ih =>
    obtain ⟨hc, ht⟩ := List.forall_mem_cons.mp h
    obtain ⟨hlt, hlower⟩ := lower_ascii hc
    unfold utf8 Label.lower at ih ⊢
    rw [List.map_cons, List.flatMap_cons, List.flatMap_cons, List.map_append, ih ht,
      utf8EncodeChar_of_ascii hc, utf8EncodeChar_of_ascii hlt, hlower]
    rfl

end

/-! ## Accepted zones -/

theorem spelled_eq_intercalate {parts : List Text} (h : parts ≠ []) :
    spelled parts = ['.'].intercalate parts ++ ['.'] := by
  induction parts with
  | nil => exact absurd rfl h
  | cons part parts ih =>
    cases parts with
    | nil => simp [spelled]
    | cons next parts =>
      have ih := ih (List.cons_ne_nil _ _)
      unfold spelled at ih ⊢
      rw [List.flatMap_cons, ih, List.intercalate_cons_cons]
      simp

theorem spelled_splitOn (zone : Text) : spelled (zone.splitOn '.') = zone ++ ['.'] := by
  rw [spelled_eq_intercalate (List.splitOn_ne_nil _ _), List.intercalate_splitOn]

theorem spelled_map {f : Char → Char} (hf : f '.' = '.') (parts : List Text) :
    spelled (parts.map (List.map f)) = (spelled parts).map f := by
  induction parts with
  | nil => rfl
  | cons part parts ih =>
    unfold spelled at ih ⊢
    rw [List.map_cons, List.flatMap_cons, ih, List.flatMap_cons, List.map_append, List.map_append,
      List.map_singleton, hf]

theorem utf8_append (s t : Text) : utf8 (s ++ t) = utf8 s ++ utf8 t := List.flatMap_append

theorem length_wire_spelled (parts : List Text) :
    (wire (parts.map utf8)).length = (utf8 (spelled parts)).length + 1 := by
  induction parts with
  | nil => rfl
  | cons part parts ih =>
    have hdot : (utf8 ['.']).length = 1 := by decide
    have hcons : spelled (part :: parts) = part ++ ['.'] ++ spelled parts := List.flatMap_cons
    rw [List.map_cons, wire, List.length_cons, List.length_append, ih, hcons, utf8_append,
      utf8_append, List.length_append, List.length_append, hdot]
    omega

/-- The encoding has one byte more than the text has with its trailing dot. -/
theorem length_wire_splitOn (zone : Text) :
    (wire ((zone.splitOn '.').map utf8)).length = (utf8 zone).length + 2 := by
  rw [length_wire_spelled, spelled_splitOn, utf8_append, List.length_append]
  rfl

theorem first_iff_of_isZoneByte {b : UInt8} (h : isZoneByte b = true) :
    (isAsciiAlphanumeric b || b = 0x5F || b = 0x2A) = true ↔ b ≠ 0x2D := by
  unfold isZoneByte at h
  by_cases hhyphen : b = 0x2D
  · subst hhyphen
    exact iff_of_false (by decide) fun h => h rfl
  · rw [decide_eq_false hhyphen, Bool.or_false] at h
    rw [h, Bool.true_or]
    exact iff_of_true rfl hhyphen

theorem trimEndMatches_of_getLast? {c : Char} {t : Text} (h : t.getLast? ≠ some c) :
    trimEndMatches c t = t := by
  rw [← List.head?_reverse] at h
  unfold trimEndMatches
  cases hr : t.reverse with
  | nil => rw [List.reverse_eq_nil_iff.mp hr]; rfl
  | cons d rest =>
    rw [hr, List.head?_cons] at h
    rw [List.dropWhile_cons_of_neg (by simpa using h), ← hr, List.reverse_reverse]

theorem trimEndMatches_concat (c : Char) (t : Text) :
    trimEndMatches c (t ++ [c]) = trimEndMatches c t := by
  unfold trimEndMatches
  rw [List.reverse_append, List.reverse_singleton, List.singleton_append,
    List.dropWhile_cons_of_pos (by simp)]

section
variable {zone : Text} (hz : ZoneOk zone)
include hz

theorem ZoneOk.ascii {part : Text} (hp : part ∈ zone.splitOn '.') : ∀ c ∈ part, c.toNat < 128 :=
  fun _ hc => ascii_of_bytes fun b hb =>
    toNat_lt_of_isZoneByte (hz.label_bytes part hp b (List.mem_flatMap.mpr ⟨_, hc, hb⟩))

theorem ZoneOk.zoneByte {part : Text} (hp : part ∈ zone.splitOn '.') {c : Char} (hc : c ∈ part) :
    isZoneByte (UInt8.ofNat c.toNat) = true := by
  refine hz.label_bytes part hp _ (List.mem_flatMap.mpr ⟨c, hc, ?_⟩)
  rw [utf8EncodeChar_of_ascii (hz.ascii hp c hc)]
  exact List.mem_singleton_self _

theorem ZoneOk.plain {part : Text} (hp : part ∈ zone.splitOn '.') :
    part ≠ [] ∧ '.' ∉ part ∧ '\\' ∉ part :=
  ⟨hz.label_pos part hp,
    fun hc => absurd (hz.zoneByte hp hc) (by decide),
    fun hc => absurd (hz.zoneByte hp hc) (by decide)⟩

theorem ZoneOk.labelsOk : LabelsOk ((zone.splitOn '.').map utf8) := by
  intro l hl
  obtain ⟨part, hp, rfl⟩ := List.mem_map.mp hl
  refine ⟨?_, hz.label_le part hp⟩
  cases part with
  | nil => exact absurd rfl (hz.label_pos [] hp)
  | cons c part =>
    unfold utf8
    rw [List.flatMap_cons, utf8EncodeChar_of_ascii (hz.ascii hp c List.mem_cons_self)]
    simp

/-- The zone ends in no dot, so trimming the configured text stops at it. -/
theorem ZoneOk.trimmed {text : Text} (h : (stripSuffix '.' text).getD text = zone) :
    trimEndMatches '.' text = zone := by
  have hlast : zone.getLast? ≠ some '.' := by
    intro hlast
    obtain ⟨front, rfl⟩ := List.getLast?_eq_some_iff.mp hlast
    refine hz.label_pos [] ?_ rfl
    rw [List.splitOn_append_cons_self]
    simp
  unfold stripSuffix at h
  split at h
  next hdot =>
    obtain ⟨front, rfl⟩ := List.getLast?_eq_some_iff.mp hdot
    rw [Option.getD_some, List.dropLast_concat] at h
    subst h
    rw [trimEndMatches_concat, trimEndMatches_of_getLast? hlast]
  next =>
    rw [Option.getD_none] at h
    subst h
    exact trimEndMatches_of_getLast? hlast

/-- Of an accepted label hickory minds only a hyphen in front. -/
theorem ZoneOk.isAsciiLabel_iff {part : Text} (hp : part ∈ zone.splitOn '.') :
    isAsciiLabel (utf8 part) = true ↔ part.head? ≠ some '-' := by
  cases part with
  | nil => exact absurd rfl (hz.label_pos [] hp)
  | cons c rest =>
    have hc := hz.ascii hp c List.mem_cons_self
    have hbyte := hz.zoneByte hp List.mem_cons_self
    have hsplit : utf8 (c :: rest) = UInt8.ofNat c.toNat :: utf8 rest := by
      unfold utf8
      rw [List.flatMap_cons, utf8EncodeChar_of_ascii hc]
      rfl
    have hrest : (utf8 rest).all isZoneByte = true := by
      refine List.all_eq_true.mpr fun b hb => hz.label_bytes _ hp b ?_
      rw [hsplit]
      exact List.mem_cons_of_mem _ hb
    have hlen := hz.label_le _ hp
    rw [hsplit, List.length_cons] at hlen
    have hhyphen : c = '-' ↔ UInt8.ofNat c.toNat = 0x2D := by
      constructor
      · rintro rfl
        rfl
      · intro h
        have hn := congrArg UInt8.toNat h
        rw [UInt8.toNat_ofNat_of_lt' (by simp [UInt8.size]; omega)] at hn
        exact Char.toNat_inj.mp hn
    rw [hsplit, isAsciiLabel, hrest, decide_eq_true (show (utf8 rest).length < 63 from hlen),
      Bool.and_true, Bool.and_true, List.head?_cons, first_iff_of_isZoneByte hbyte, ne_eq,
      ne_eq, Option.some.injEq, hhyphen]

end

/-! ## The zone that is served -/

/-- The origin is the zone in lower case, and the apex SOA is owned by the zone and has the RNAME
`hostmaster.<zone>`. -/
structure ZoneServed {W : Type} (zone : Text) (a : NacosAuthority W) : Prop where
  origin : a.origin.labels = (zone.splitOn '.').map fun part => utf8 (part.map Char.toLower)
  owner : a.apexSoa.name.labels = (zone.splitOn '.').map utf8
  rname : ∃ soa, a.apexSoa.data = .soa soa ∧
    soa.rname.labels = utf8 "hostmaster".toList :: (zone.splitOn '.').map utf8

/-- The zones hickory reads as they were meant. -/
structure Servable (names : HickoryNames) (zone : Text) : Prop where
  noHyphen : ∀ part ∈ zone.splitOn '.', part.head? ≠ some '-'
  short : (utf8 zone).length ≤ 242
  noUnicode : ∀ part ∈ zone.splitOn '.', IDNA_PREFIX.isPrefixOf (utf8 part) →
    names.toUnicode (utf8 part) = none

section
variable {names : HickoryNames} (hn : names.Lawful) {zone : Text} (hz : ZoneOk zone)

theorem nameOf_eq_some {parts : List Text} {name : Name} :
    nameOf parts = some name ↔
      (∀ part ∈ parts, isAsciiLabel (utf8 part) = true) ∧ name.labels = parts.map utf8 := by
  unfold nameOf
  dsimp only
  constructor
  · intro h
    split at h
    next hok =>
      cases h
      exact ⟨fun part hp => hok.1 _ (List.mem_map_of_mem hp), rfl⟩
    next => cases h
  · rintro ⟨hall, hlabels⟩
    have hok := name.labels_ok
    have hlen := name.wire_le
    rw [hlabels] at hok hlen
    rw [dif_pos ⟨List.forall_mem_map.mpr hall, hok, hlen⟩]
    cases name
    cases hlabels
    rfl

include hz in
/-- Without a hyphen in front of a label the zone is a name. -/
theorem ZoneOk.exists_nameOf (h : ∀ part ∈ zone.splitOn '.', part.head? ≠ some '-') :
    ∃ name, nameOf (zone.splitOn '.') = some name ∧ name.labels = (zone.splitOn '.').map utf8 := by
  have hlen : (wire ((zone.splitOn '.').map utf8)).length ≤ Name.MAX_LENGTH := by
    rw [length_wire_splitOn]
    exact Nat.add_le_add_right hz.length_le 2
  exact ⟨⟨_, hz.labelsOk, hlen⟩,
    nameOf_eq_some.mpr ⟨fun part hp => (hz.isAsciiLabel_iff hp).mpr (h part hp), rfl⟩, rfl⟩

include hn hz

theorem fromAscii_zone : names.fromAscii (zone ++ ['.']) = nameOf (zone.splitOn '.') := by
  rw [← spelled_splitOn]
  exact hn.fromAscii_spelled _ (List.splitOn_ne_nil _ _) fun part hp => hz.plain hp

theorem display_zone {name : Name} (hname : name.labels = (zone.splitOn '.').map utf8)
    (hhyphen : ∀ part ∈ zone.splitOn '.', part.head? ≠ some '-') :
    names.display name = spelled ((zone.splitOn '.').map fun part => names.shown (utf8 part)) := by
  have hne : name.labels ≠ [] := by
    rw [hname, ne_eq, List.map_eq_nil_iff]
    exact List.splitOn_ne_nil _ _
  rw [hn.display_eq name hne ?_, hname, List.map_map]
  · rfl
  · rw [hname]
    exact List.forall_mem_map.mpr fun part hp => (hz.isAsciiLabel_iff hp).mpr (hhyphen part hp)

omit hn in
/-- Without a decoded label `Display` shows the zone as it was configured. -/
theorem shown_zone (h : ∀ part ∈ zone.splitOn '.', IDNA_PREFIX.isPrefixOf (utf8 part) →
    names.toUnicode (utf8 part) = none) :
    ((zone.splitOn '.').map fun part => names.shown (utf8 part)) = zone.splitOn '.' := by
  refine (List.map_congr_left fun part hp => ?_).trans (List.map_id _)
  show names.shown (utf8 part) = part
  unfold HickoryNames.shown
  split
  next hidna => rw [h part hp hidna, Option.getD_none, text_utf8 (hz.ascii hp)]
  next => exact text_utf8 (hz.ascii hp)

omit hn hz in
theorem length_wire_hostmaster :
    (wire (utf8 "hostmaster".toList :: (zone.splitOn '.').map utf8)).length =
      (utf8 zone).length + 13 := by
  rw [wire, List.length_cons, List.length_append, length_wire_splitOn]
  have : (utf8 "hostmaster".toList).length = 10 := by decide
  omega

omit hz in
/-- A text with a decoded label in it leaves ASCII, and is no name. -/
theorem fromAscii_decoded {part front text : Text} (hp : part ∈ zone.splitOn '.')
    (hidna : IDNA_PREFIX.isPrefixOf (utf8 part) = true)
    (hdecoded : names.toUnicode (utf8 part) = some text) :
    names.fromAscii (front ++ spelled ((zone.splitOn '.').map fun part =>
      names.shown (utf8 part))) = none := by
  obtain ⟨c, hc, hbig⟩ := hn.toUnicode_unicode _ _ hdecoded
  have hshown : names.shown (utf8 part) = text := by
    rw [HickoryNames.shown, if_pos hidna, hdecoded, Option.getD_some]
  have hmem : c ∈ spelled ((zone.splitOn '.').map fun part => names.shown (utf8 part)) := by
    refine List.mem_flatMap.mpr ⟨_, List.mem_map_of_mem hp, ?_⟩
    rw [hshown]
    exact List.mem_append_left _ hc
  rw [Option.eq_none_iff_forall_ne_some]
  intro admin hread
  have := hn.fromAscii_ascii _ _ hread c (List.mem_append_right _ hmem)
  omega

theorem fromAscii_hostmaster_of_servable (hs : Servable names zone) :
    ∃ admin, names.fromAscii ("hostmaster.".toList ++
        spelled ((zone.splitOn '.').map fun part => names.shown (utf8 part))) = some admin ∧
      admin.labels = utf8 "hostmaster".toList :: (zone.splitOn '.').map utf8 := by
  have hparts : ∀ part ∈ "hostmaster".toList :: zone.splitOn '.',
      part ≠ [] ∧ '.' ∉ part ∧ '\\' ∉ part :=
    List.forall_mem_cons.mpr ⟨by decide, fun part hp => hz.plain hp⟩
  have hascii : ∀ part ∈ "hostmaster".toList :: zone.splitOn '.',
      isAsciiLabel (utf8 part) = true :=
    List.forall_mem_cons.mpr ⟨by decide,
      fun part hp => (hz.isAsciiLabel_iff hp).mpr (hs.noHyphen part hp)⟩
  have hok : LabelsOk (utf8 "hostmaster".toList :: (zone.splitOn '.').map utf8) :=
    LabelsOk.cons.mpr ⟨by decide, hz.labelsOk⟩
  have hlen : (wire (utf8 "hostmaster".toList :: (zone.splitOn '.').map utf8)).length ≤
      Name.MAX_LENGTH := by
    rw [length_wire_hostmaster]
    exact Nat.add_le_add_right hs.short 13
  have hadmin : nameOf ("hostmaster".toList :: zone.splitOn '.') = some ⟨_, hok, hlen⟩ :=
    nameOf_eq_some.mpr ⟨hascii, rfl⟩
  have htext : "hostmaster.".toList ++ spelled (zone.splitOn '.') =
      spelled ("hostmaster".toList :: zone.splitOn '.') := rfl
  rw [shown_zone hz hs.noUnicode, htext, hn.fromAscii_spelled _ (List.cons_ne_nil _ _) hparts]
  exact ⟨_, hadmin, rfl⟩

/-- `hostmaster.<zone>` is read as meant exactly when it is short enough and spelled in ASCII. -/
theorem fromAscii_hostmaster {name : Name} (hname : name.labels = (zone.splitOn '.').map utf8)
    (hhyphen : ∀ part ∈ zone.splitOn '.', part.head? ≠ some '-') :
    ((names.fromAscii ("hostmaster.".toList ++ names.display name)).getD Name.root).labels =
        utf8 "hostmaster".toList :: (zone.splitOn '.').map utf8 ↔
      Servable names zone := by
  rw [display_zone hn hz hname hhyphen]
  constructor
  · intro hlabels
    refine ⟨hhyphen, ?_, fun part hp hidna => ?_⟩
    · generalize Option.getD _ Name.root = admin at hlabels
      have hlen := admin.wire_le
      rw [hlabels, length_wire_hostmaster, Name.MAX_LENGTH] at hlen
      omega
    · cases hdecoded : names.toUnicode (utf8 part) with
      | none => rfl
      | some text =>
        -- the RNAME falls back to the root
        rw [fromAscii_decoded hn hp hidna hdecoded] at hlabels
        cases hlabels
  · intro hs
    obtain ⟨admin, hread, hlabels⟩ := fromAscii_hostmaster_of_servable hn hz hs
    rw [hread, Option.getD_some, hlabels]

end

section
variable {W : Type} {names : HickoryNames} {catalog : List UInt8 → W → CatalogAnswer × W}

/-- **One zone.** What is built for an accepted zone serves it exactly when the zone is
servable. -/
theorem zoneServed_new_iff (hn : names.Lawful) {zone : Text} (hz : ZoneOk zone) {dnsZone : Text}
    (hzone : (stripSuffix '.' dnsZone).getD dnsZone = zone) (group «namespace» : Text)
    (ttl : UInt32) :
    ZoneServed zone (NacosAuthority.new names catalog dnsZone group «namespace» ttl) ↔
      Servable names zone := by
  unfold NacosAuthority.new
  dsimp only
  rw [hz.trimmed hzone, fromAscii_zone hn hz]
  by_cases hhyphen : ∀ part ∈ zone.splitOn '.', part.head? ≠ some '-'
  · obtain ⟨name, hname, hlabels⟩ := hz.exists_nameOf hhyphen
    rw [hname, Option.getD_some, ← fromAscii_hostmaster hn hz hlabels hhyphen]
    constructor
    · intro h
      obtain ⟨soa, hsoa, hrname⟩ := h.rname
      cases hsoa
      exact hrname
    · intro h
      refine ⟨?_, hlabels, _, rfl, h⟩
      show name.labels.map Label.lower = _
      rw [hlabels, List.map_map]
      exact List.map_congr_left fun part hp => (lower_utf8 (hz.ascii hp)).symm
  · -- the zone is read as the root
    have hnone : nameOf (zone.splitOn '.') = none := by
      cases hname : nameOf (zone.splitOn '.') with
      | none => rfl
      | some name =>
        refine absurd (fun part hp => ?_) hhyphen
        exact (hz.isAsciiLabel_iff hp).mp ((nameOf_eq_some.mp hname).1 part hp)
    refine iff_of_false (fun h => ?_) fun h => hhyphen h.noHyphen
    have howner := h.owner
    rw [hnone] at howner
    exact List.splitOn_ne_nil _ _ (List.map_eq_nil_iff.mp howner.symm)

/-- The key of the duplicate check can be read off the origin. -/
theorem ZoneServed.zoneKey {zone : Text} (hz : ZoneOk zone) {a : NacosAuthority W}
    (h : ZoneServed zone a) :
    spelled (a.origin.labels.map Label.text) = zone.map Char.toLower ++ ['.'] := by
  have hlower : a.origin.labels.map Label.text =
      (zone.splitOn '.').map (List.map Char.toLower) := by
    rw [h.origin, List.map_map]
    refine List.map_congr_left fun part hp => text_utf8 ?_
    exact List.forall_mem_map.mpr fun c hc => (lower_ascii (hz.ascii hp c hc)).1
  rw [hlower, spelled_map rfl, spelled_splitOn, List.map_append]
  rfl

variable (names) (catalogs : PluginConfig → List UInt8 → W → CatalogAnswer × W)

/-- Every enabled Nacos plugin serves the zone it is configured for, and no two of them have the
same origin. -/
structure ZonesServed (plugins : List PluginConfig) : Prop where
  served : ∀ p ∈ nacosPlugins plugins, ZoneServed p.zone (pluginAuthority names (catalogs p) p)
  distinct : (nacosPlugins plugins).Pairwise fun p q =>
    (pluginAuthority names (catalogs p) p).origin ≠ (pluginAuthority names (catalogs q) q).origin

variable {names catalogs}

theorem zoneServed_plugin_iff (hn : names.Lawful) {p : PluginConfig} (hsome : p.dnsZone.isSome)
    (hz : ZoneOk p.zone) :
    ZoneServed p.zone (pluginAuthority names (catalogs p) p) ↔ Servable names p.zone := by
  obtain ⟨dnsZone, hdns⟩ := Option.isSome_iff_exists.mp hsome
  have hzone : (stripSuffix '.' dnsZone).getD dnsZone = p.zone := by
    unfold PluginConfig.zone
    rw [hdns]
    rfl
  unfold pluginAuthority
  rw [hdns, Option.getD_some]
  exact zoneServed_new_iff hn hz hzone _ _ _

/-- **An accepted configuration is served as written exactly when its zones are servable.** -/
theorem zonesServed_iff (hn : names.Lawful) {host : Host} {config : DoggyDnsConfig}
    (h : validateConfig host config = .ok ()) :
    ZonesServed names catalogs config.plugins ↔
      ∀ p ∈ nacosPlugins config.plugins, Servable names p.zone := by
  obtain ⟨hzones, hdistinct⟩ := validateConfig_ok h
  have hiff : ∀ p ∈ nacosPlugins config.plugins,
      (ZoneServed p.zone (pluginAuthority names (catalogs p) p) ↔ Servable names p.zone) :=
    fun p hp => zoneServed_plugin_iff hn (hzones p hp).1 (hzones p hp).2
  constructor
  · intro hserved p hp
    exact (hiff p hp).mp (hserved.served p hp)
  · intro hall
    refine ⟨fun p hp => (hiff p hp).mpr (hall p hp), ?_⟩
    refine hdistinct.imp_of_mem fun {p q} hp hq hne horigin => hne ?_
    have hkey := ((hiff p hp).mpr (hall p hp)).zoneKey (hzones p hp).2
    rw [horigin, ((hiff q hq).mpr (hall q hq)).zoneKey (hzones q hq).2] at hkey
    exact (List.append_cancel_right hkey).symm

end

/-- hickory where no label is punycode. -/
def plainNames : HickoryNames where
  fromAscii text := if text.getLast? = some '.' then nameOf (text.dropLast.splitOn '.') else none
  display name := spelled (name.labels.map Label.text)
  toUnicode _ := none

theorem toNat_lt_of_isAsciiLabel {l : Label} (h : isAsciiLabel l = true) :
    ∀ b ∈ l, b.toNat < 128 := by
  cases l with
  | nil => exact nofun
  | cons b rest =>
    unfold isAsciiLabel at h
    rw [Bool.and_eq_true, Bool.and_eq_true] at h
    obtain ⟨⟨hfirst, hrest⟩, -⟩ := h
    refine List.forall_mem_cons.mpr ⟨?_, fun d hd => ?_⟩
    · simp [isAsciiAlphanumeric, UInt8.le_iff_toNat_le, ← UInt8.toNat_inj] at hfirst
      omega
    · exact toNat_lt_of_isZoneByte (List.all_eq_true.mp hrest d hd)

theorem plainNames_lawful : plainNames.Lawful where
  fromAscii_spelled parts hne hplain := by
    show (if _ then _ else _) = _
    rw [spelled_eq_intercalate hne, List.getLast?_concat, if_pos rfl, List.dropLast_concat,
      List.splitOn_intercalate '.' (fun part hp => (hplain part hp).2.1) hne]
  fromAscii_ascii text name h c hc := by
    change (if _ then _ else _) = _ at h
    split at h
    next hlast =>
      obtain ⟨front, rfl⟩ := List.getLast?_eq_some_iff.mp hlast
      rw [List.dropLast_concat] at h
      obtain ⟨hlabels, -⟩ := nameOf_eq_some.mp h
      rw [← spelled_splitOn] at hc
      obtain ⟨part, hp, hc⟩ := List.mem_flatMap.mp hc
      rcases List.mem_append.mp hc with hc | hc
      · refine ascii_of_bytes fun b hb => ?_
        exact toNat_lt_of_isAsciiLabel (hlabels part hp) b (List.mem_flatMap.mpr ⟨c, hc, hb⟩)
      · rw [List.mem_singleton.mp hc]
        decide
    next => cases h
  display_eq name _ _ := by
    refine congrArg spelled (List.map_congr_left fun l _ => ?_)
    unfold HickoryNames.shown
    split <;> rfl
  toUnicode_unicode _ _ h := by cases h

def sampleHost : Host := ⟨.linux, fun _ => false⟩

def zonePlugin (zone : String) : PluginConfig where
  kind := .nacos
  serverAddr := "127.0.0.1:8848".toList
  «namespace» := "public".toList
  group := "DEFAULT_GROUP".toList
  dnsZone := zone.toList

def zoneConfig (zone : String) : DoggyDnsConfig where
  plugins := [zonePlugin zone]

/-- No catalog knows a service. -/
def emptyCatalogs (_ : PluginConfig) (_ : List UInt8) (w : Unit) : CatalogAnswer × Unit :=
  (.unknown, w)

theorem zonesServed_nacos_local :
    validateConfig sampleHost (zoneConfig "nacos.local.") = .ok () ∧
    ZonesServed plainNames emptyCatalogs (zoneConfig "nacos.local.").plugins := by
  have haccepted : validateConfig sampleHost (zoneConfig "nacos.local.") = .ok () := by
    decide +kernel
  refine ⟨haccepted, (zonesServed_iff plainNames_lawful haccepted).mpr fun p hp => ?_⟩
  obtain rfl := List.mem_singleton.mp hp
  exact ⟨by decide +kernel, by decide +kernel, fun _ _ _ => rfl⟩

/-- A hyphen in front of a label is accepted, and the plugin built for it owns the root. -/
theorem hyphen_zone_not_served :
    plainNames.Lawful ∧ validateConfig sampleHost (zoneConfig "-foo.local") = .ok () ∧
    (pluginAuthority plainNames (emptyCatalogs (zonePlugin "-foo.local"))
      (zonePlugin "-foo.local")).origin = Name.root ∧
    ¬ ZonesServed plainNames emptyCatalogs (zoneConfig "-foo.local").plugins := by
  have hroot : (pluginAuthority plainNames (emptyCatalogs (zonePlugin "-foo.local"))
      (zonePlugin "-foo.local")).origin = Name.root := by
    decide +kernel
  refine ⟨plainNames_lawful, by decide +kernel, hroot, fun h => ?_⟩
  have horigin := (h.served _ List.mem_cons_self).origin
  rw [hroot] at horigin
  exact List.splitOn_ne_nil _ _ (List.map_eq_nil_iff.mp horigin.symm)

end DoggyDns
