import DoggyDns.Lib.Overrides
import DoggyDns.Observability.Auth

/-!
# Merged headers

What `resolve_with_env` returns, header by header. Names are the same when they
differ in ASCII case only. The hash map does not know that: `insert_header`
looks for another spelling of the name and removes it, and since the headers
never hold two spellings of one name, it does not matter in which order the
map is searched.
-/

namespace DoggyDns

/-- A name in lower case. -/
def Text.lower (t : Text) : Text := t.map Char.toLower

/-- A walk over the hash map meets each of its entries once, in some order. -/
def HeaderLib.Walks (lib : HeaderLib) : Prop := ∀ headers, (lib.order headers).Perm headers

/-! ## Where headers come from -/

/-- `digit` is written for a value in base sixteen. -/
def HexDigit (digit : UInt8) (value : Nat) : Prop :=
  (utf8 "0123456789abcdef".toList)[value]? = some digit ∨
    (utf8 "0123456789ABCDEF".toList)[value]? = some digit

instance (digit : UInt8) (value : Nat) : Decidable (HexDigit digit value) :=
  inferInstanceAs (Decidable (_ ∨ _))

/-- What bytes with percent escapes are written for. -/
inductive Escaped : List UInt8 → List UInt8 → Prop
  | nil : Escaped [] []
  | byte {byte : UInt8} {written decoded : List UInt8} (hbyte : byte ≠ 0x25)
      (h : Escaped written decoded) : Escaped (byte :: written) (byte :: decoded)
  | escape {high low byte : UInt8} {highValue lowValue : Nat} {written decoded : List UInt8}
      (hhigh : HexDigit high highValue) (hlow : HexDigit low lowValue)
      (hbyte : byte.toNat = 16 * highValue + lowValue) (h : Escaped written decoded) :
      Escaped (0x25 :: high :: low :: written) (byte :: decoded)

/-- `written` with its percent escapes decoded. -/
def PercentDecodes (written decoded : Text) : Prop := Escaped (utf8 written) (utf8 decoded)

/-- `written` with its references replaced by the values of their variables. -/
def Expands (env : Text → Option Text) (written expanded : Text) : Prop :=
  ∃ segments, Splits written segments ∧ render env segments = some expanded

/-- The parts of the environment's headers that are not blank. -/
def envPairs : Option Text → List Text
  | none => []
  | some raw => (raw.splitOn ',').filter fun pair => !pair.all isWhitespace

/-- The name and the value a part of the environment's headers stands for: what is before and
behind its first `=`, without white space around it and decoded. -/
def EnvEntry (pair : Text) (e : Text × Text) : Prop :=
  ∃ key value name' value', Trims pair (key ++ '=' :: value) ∧ '=' ∉ key ∧
    Trims key name' ∧ PercentDecodes name' e.1 ∧ Trims value value' ∧ PercentDecodes value' e.2

/-- The name and the value a configured header stands for. -/
def ConfigEntry (env : Text → Option Text) (header e : Text × Text) : Prop :=
  Trims header.1 e.1 ∧ Expands env header.2 e.2

/-- The header made of the credentials. -/
def BasicAuthEntry (lib : HeaderLib) (env : Text → Option Text) (auth : BasicAuthConfig)
    (e : Text × Text) : Prop :=
  ∃ username password, Expands env auth.username username ∧
    Expands env auth.password password ∧
    e = ("Authorization".toList, "Basic ".toList ++ lib.base64 (username ++ ':' :: password))

/-- `headers` is what the entries of the environment and of the configuration leave behind, and
`added` after them. -/
structure MergedHeaders (lib : HeaderLib) (env : Text → Option Text)
    (config : ObservabilityConfig) (fromEnv fromConfig added headers : Headers) : Prop where
  decoded : List.Forall₂ EnvEntry (envPairs (env OTEL_EXPORTER_OTLP_HEADERS)) fromEnv
  expanded : List.Forall₂ (ConfigEntry env) config.headers fromConfig
  distinct : Overrides.Distinct Text.lower headers
  value : ∀ name, Overrides.value Text.lower headers name =
    ((Overrides.lastValue Text.lower fromConfig name).or
      (Overrides.lastValue Text.lower fromEnv name)).or
        (Overrides.value Text.lower added name)
  credentials : ∀ auth, config.basicAuth = some auth →
    (∀ e ∈ fromEnv ++ fromConfig, isAuthorization e.1 = false) →
    ∃ e, added = [e] ∧ BasicAuthEntry lib env auth e
  noCredentials : (config.basicAuth = none ∨
    ∃ e ∈ fromEnv ++ fromConfig, isAuthorization e.1 = true) → added = []

/-! ## Percent escapes -/

theorem HexDigit.lt {digit : UInt8} {value : Nat} (h : HexDigit digit value) : value < 16 := by
  rcases h with h | h
  · exact (List.getElem?_eq_some_iff.mp h).1
  · exact (List.getElem?_eq_some_iff.mp h).1

theorem HexDigit.hexValue {digit : UInt8} {value : Nat} (h : HexDigit digit value) :
    hexValue digit = .ok (UInt8.ofNat value) := by
  have hlower : ∀ v < 16, ((utf8 "0123456789abcdef".toList)[v]?.map DoggyDns.hexValue) =
      some (.ok (UInt8.ofNat v)) := by decide +kernel
  have hupper : ∀ v < 16, ((utf8 "0123456789ABCDEF".toList)[v]?.map DoggyDns.hexValue) =
      some (.ok (UInt8.ofNat v)) := by decide +kernel
  have hlt := h.lt
  rcases h with h | h
  · exact Option.some.inj ((congrArg _ h).symm.trans (hlower value hlt))
  · exact Option.some.inj ((congrArg _ h).symm.trans (hupper value hlt))

theorem hexDigit_of_hexValue {digit value : UInt8} (h : hexValue digit = .ok value) :
    HexDigit digit value.toNat := by
  have hall : ∀ d < 256, (hexValue (UInt8.ofNat d)).toOption.all
      (fun v => decide (HexDigit (UInt8.ofNat d) v.toNat)) = true := by decide +kernel
  have hdigit := hall digit.toNat digit.toNat_lt
  rw [UInt8.ofNat_toNat, h] at hdigit
  exact of_decide_eq_true hdigit

/-- The byte of two digits. -/
theorem toNat_hexByte {high low : UInt8} (hhigh : high.toNat < 16) (hlow : low.toNat < 16) :
    (high * 16 + low).toNat = 16 * high.toNat + low.toNat := by
  rw [UInt8.toNat_add, UInt8.toNat_mul]
  show (high.toNat * 16 % 256 + low.toNat) % 256 = _
  omega

/-- A byte that begins no escape stands for itself. -/
theorem percentDecodeBytes_cons {byte : UInt8} (hbyte : byte ≠ 0x25) (rest : List UInt8) :
    percentDecodeBytes (byte :: rest) =
      (percentDecodeBytes rest).bind fun rest => .ok (byte :: rest) := by
  conv_lhs => unfold percentDecodeBytes
  rw [if_neg hbyte]
  rfl

theorem percentDecodeBytes_eq_ok {written decoded : List UInt8} :
    percentDecodeBytes written = .ok decoded ↔ Escaped written decoded := by
  constructor
  · intro h
    induction written using percentDecodeBytes.induct generalizing decoded with
    | case1 =>
      cases h
      exact .nil
    | case2 high low rest ih =>
      rw [percentDecodeBytes, if_pos rfl] at h
      obtain ⟨highValue, hhigh, h⟩ := bind_eq_ok h
      obtain ⟨lowValue, hlow, h⟩ := bind_eq_ok h
      obtain ⟨tail, htail, h⟩ := bind_eq_ok h
      cases h
      have hhigh := hexDigit_of_hexValue hhigh
      have hlow := hexDigit_of_hexValue hlow
      exact .escape hhigh hlow (toNat_hexByte hhigh.lt hlow.lt) (ih htail)
    | case3 rest hshort =>
      unfold percentDecodeBytes at h
      rw [if_pos rfl] at h
      split at h
      · exact absurd rfl (hshort _ _ _)
      · cases h
    | case4 byte rest hbyte ih =>
      rw [percentDecodeBytes_cons hbyte] at h
      obtain ⟨tail, htail, h⟩ := bind_eq_ok h
      cases h
      exact .byte hbyte (ih htail)
  · intro h
    induction h with
    | nil => rfl
    | byte hbyte _ ih =>
      rw [percentDecodeBytes_cons hbyte, ih]
      rfl
    | @escape high low byte highValue lowValue written decoded hhigh hlow hbyte _ ih =>
      have hofNat : ∀ {value : Nat}, value < 16 → (UInt8.ofNat value).toNat = value :=
        fun h => UInt8.toNat_ofNat_of_lt' (h.trans (by decide))
      have hsum : UInt8.ofNat highValue * 16 + UInt8.ofNat lowValue = byte := by
        rw [← UInt8.toNat_inj, toNat_hexByte (by rw [hofNat hhigh.lt]; exact hhigh.lt)
          (by rw [hofNat hlow.lt]; exact hlow.lt), hofNat hhigh.lt, hofNat hlow.lt, hbyte]
      rw [percentDecodeBytes, if_pos rfl]
      simp only [hhigh.hexValue, hlow.hexValue, ih, bind, Except.bind, hsum]

/-- Decoding is what the escapes say. -/
theorem percentDecode_eq_ok {written decoded : Text} :
    percentDecode written = .ok decoded ↔ PercentDecodes written decoded := by
  have hutf8 : ∀ {bytes : List UInt8} {text : Text},
      fromUtf8 bytes = .ok text ↔ bytes = utf8 text := by
    intro bytes text
    unfold fromUtf8
    cases hdecode : Utf8.decode bytes with
    | some t =>
      rw [← Utf8.encode_of_decode hdecode]
      refine ⟨fun h => by cases h; rfl, fun h => ?_⟩
      have hsame : some t = some text :=
        (Utf8.decode_encode).symm.trans ((congrArg Utf8.decode h).trans Utf8.decode_encode)
      rw [Option.some.inj hsame]
    | none =>
      refine iff_of_false nofun fun h => ?_
      rw [h, show Utf8.decode (utf8 text) = some text from Utf8.decode_encode] at hdecode
      cases hdecode
  unfold PercentDecodes
  rw [← percentDecodeBytes_eq_ok]
  constructor
  · intro h
    obtain ⟨bytes, hbytes, h⟩ := bind_eq_ok h
    rw [hbytes, hutf8.mp (context_eq_ok.mp h)]
  · intro h
    unfold percentDecode
    rw [h]
    exact context_eq_ok.mpr (hutf8.mpr rfl)

theorem isEmpty_trim (t : Text) : (trim t).isEmpty = t.all isWhitespace := by
  rw [Bool.eq_iff_iff, List.isEmpty_iff, trim_eq_nil_iff, List.all_eq_true]

/-- Without a comma there is one part, and a blank one is left out. -/
theorem envPairs_blank {raw : Text} (h : (trim raw).isEmpty = true) : envPairs (some raw) = [] := by
  rw [isEmpty_trim] at h
  have hcomma : ',' ∉ raw := fun hmem =>
    absurd (List.all_eq_true.mp h ',' hmem) (by decide)
  show (raw.splitOn ',').filter (fun pair => !pair.all isWhitespace) = []
  rw [List.splitOn_eq_singleton hcomma, List.filter_cons_of_neg (by rw [h]; decide)]
  rfl

/-! ## Inserting -/

section
variable {lib : HeaderLib} {headers : Headers} {a b name value : Text}

theorem eqIgnoreAsciiCase_iff : Text.eqIgnoreAsciiCase a b = true ↔ a.lower = b.lower :=
  beq_iff_eq

/-- With no two spellings of a name in the map, the walk finds the one there is. -/
theorem insertHeader_eq (hw : lib.Walks) (hd : Overrides.Distinct Text.lower headers) :
    insertHeader lib headers name value = Overrides.put Text.lower headers (name, value) := by
  have hmem : ∀ x, x ∈ (lib.order headers).map Prod.fst ↔ ∃ h ∈ headers, h.1 = x := by
    intro x
    rw [List.mem_map]
    simp only [(hw headers).mem_iff]
  unfold insertHeader Overrides.put
  split
  next existing hfind =>
    have hsame : existing.eqIgnoreAsciiCase name = true := by simpa using List.find?_some hfind
    rw [eqIgnoreAsciiCase_iff] at hsame
    obtain ⟨h, hh, rfl⟩ := (hmem existing).mp (List.mem_of_find?_eq_some hfind)
    unfold mapInsert
    rw [List.filter_filter]
    refine congrArg (· ++ [(name, value)]) (List.filter_congr fun h' hh' => ?_)
    rw [← Bool.decide_and, decide_eq_decide]
    constructor
    · rintro ⟨hne, hne'⟩ heq
      exact hne' (congrArg Prod.fst (hd.eq_of_mem hh' hh (heq.trans hsame.symm)))
    · intro hne
      refine ⟨fun heq => hne (congrArg Text.lower heq), fun heq => hne ?_⟩
      rw [heq, hsame]
  next hfind =>
    unfold mapInsert
    refine congrArg (· ++ [(name, value)]) (List.filter_congr fun h hh => ?_)
    have hne : h.1.lower ≠ name.lower := by
      intro heq
      have hnone := List.find?_eq_none.mp hfind h.1 ((hmem h.1).mpr ⟨h, hh, rfl⟩)
      exact hnone (eqIgnoreAsciiCase_iff.mpr heq)
    rw [decide_eq_decide]
    exact iff_of_true (fun heq => hne (congrArg Text.lower heq)) hne

/-! ## The two sources -/

theorem addEnvPair_eq_ok (hw : lib.Walks) (hd : Overrides.Distinct Text.lower headers)
    {pair : Text} {out : Headers} (h : addEnvPair lib headers pair = .ok out) :
    ((trim pair).isEmpty = true ∧ out = headers) ∨
    ((trim pair).isEmpty = false ∧
      ∃ e, EnvEntry pair e ∧ out = Overrides.put Text.lower headers e) := by
  unfold addEnvPair at h
  split at h
  next hblank => exact .inl ⟨hblank, (Except.ok.inj h).symm⟩
  next hblank =>
    obtain ⟨⟨key, text⟩, hsplit, h⟩ := bind_eq_ok h
    obtain ⟨name, hname, h⟩ := bind_eq_ok h
    obtain ⟨-, -, h⟩ := bind_eq_ok h
    obtain ⟨value, hvalue, h⟩ := bind_eq_ok h
    rw [insertHeader_eq hw hd] at h
    have hsome : splitOnce '=' (trim pair) = some (key, text) := by
      cases hs : splitOnce '=' (trim pair) with
      | none =>
        rw [hs] at hsplit
        cases hsplit
      | some p =>
        rw [hs] at hsplit
        cases hsplit
        rfl
    obtain ⟨hparts, hkey⟩ := splitOnce_eq_some.mp hsome
    exact .inr ⟨Bool.eq_false_iff.mpr hblank, (name, value),
      ⟨key, text, trim key, trim text, trims_iff.mpr hparts, hkey, trim_trims key,
        percentDecode_eq_ok.mp (context_eq_ok.mp hname), trim_trims text,
        percentDecode_eq_ok.mp (context_eq_ok.mp hvalue)⟩,
      (Except.ok.inj h).symm⟩

theorem foldlM_addEnvPair (hw : lib.Walks) (hd : Overrides.Distinct Text.lower headers)
    {pairs : List Text} {out : Headers} (h : pairs.foldlM (addEnvPair lib) headers = .ok out) :
    ∃ entries, List.Forall₂ EnvEntry (pairs.filter fun pair => !pair.all isWhitespace) entries ∧
      out = entries.foldl (Overrides.put Text.lower) headers := by
  induction pairs generalizing headers with
  | nil => exact ⟨[], .nil, (Except.ok.inj h).symm⟩
  | cons pair pairs ih =>
    rw [List.foldlM_cons] at h
    obtain ⟨next, hnext, hrest⟩ := bind_eq_ok h
    rw [List.filter_cons, ← isEmpty_trim]
    rcases addEnvPair_eq_ok hw hd hnext with ⟨hblank, rfl⟩ | ⟨hpair, e, he, rfl⟩
    · rw [hblank]
      exact ih hd hrest
    · obtain ⟨entries, hentries, hout⟩ := ih hd.put hrest
      rw [hpair]
      exact ⟨e :: entries, .cons he hentries, hout⟩

theorem envHeaders_eq_ok (hw : lib.Walks) {raw : Option Text}
    (h : envHeaders lib raw = .ok headers) :
    ∃ entries, List.Forall₂ EnvEntry (envPairs raw) entries ∧
      headers = entries.foldl (Overrides.put Text.lower) [] := by
  unfold envHeaders at h
  split at h
  next => exact ⟨[], .nil, (Except.ok.inj h).symm⟩
  next raw =>
    split at h
    next hblank =>
      rw [envPairs_blank hblank]
      exact ⟨[], .nil, (Except.ok.inj h).symm⟩
    next => exact foldlM_addEnvPair hw .nil h

theorem foldlM_addConfigHeader (hw : lib.Walks) (hd : Overrides.Distinct Text.lower headers)
    {env : Text → Option Text} {config : List (Text × Text)} {out : Headers}
    (h : config.foldlM (addConfigHeader lib env) headers = .ok out) :
    ∃ entries, List.Forall₂ (ConfigEntry env) config entries ∧
      out = entries.foldl (Overrides.put Text.lower) headers := by
  induction config generalizing headers with
  | nil => exact ⟨[], .nil, (Except.ok.inj h).symm⟩
  | cons header config ih =>
    rw [List.foldlM_cons] at h
    obtain ⟨next, hnext, h⟩ := bind_eq_ok h
    obtain ⟨value, hvalue, rfl⟩ := addConfigHeader_eq_ok hnext
    rw [insertHeader_eq hw hd] at h
    obtain ⟨entries, hentries, hout⟩ := ih hd.put h
    exact ⟨(trim header.1, value) :: entries,
      .cons ⟨trim_trims header.1, expandEnv_eq_ok.mp hvalue⟩ hentries, hout⟩

/-- The headers of the two sources, one after the other. -/
theorem sources_eq_ok (hw : lib.Walks) {raw : Option Text} {env : Text → Option Text}
    {config : List (Text × Text)} {merged : Headers} (hbase : envHeaders lib raw = .ok headers)
    (hmerged : config.foldlM (addConfigHeader lib env) headers = .ok merged) :
    ∃ fromEnv fromConfig, List.Forall₂ EnvEntry (envPairs raw) fromEnv ∧
      List.Forall₂ (ConfigEntry env) config fromConfig ∧
      merged = (fromEnv ++ fromConfig).foldl (Overrides.put Text.lower) [] := by
  obtain ⟨fromEnv, henv, rfl⟩ := envHeaders_eq_ok hw hbase
  obtain ⟨fromConfig, hconfig, rfl⟩ := foldlM_addConfigHeader hw (.foldl .nil) hmerged
  exact ⟨fromEnv, fromConfig, henv, hconfig, List.foldl_append.symm⟩

/-! ## Any order -/

/-- Loops that agree where `I` holds, and keep it, agree. -/
theorem foldlM_congr_of {α β : Type} {f g : β → α → Except Error β} {I : β → Prop}
    (hfg : ∀ b a, I b → f b a = g b a) (hI : ∀ b a b', I b → f b a = .ok b' → I b')
    (as : List α) {b : β} (hb : I b) : as.foldlM f b = as.foldlM g b := by
  induction as generalizing b with
  | nil => rfl
  | cons a as ih =>
    rw [List.foldlM_cons, List.foldlM_cons, ← hfg b a hb]
    cases h : f b a with
    | error => rfl
    | ok b' => exact ih (hI b a b' hb h)

theorem envHeaders_congr {lib' : HeaderLib} (hw : lib.Walks) (hw' : lib'.Walks)
    (raw : Option Text) : envHeaders lib raw = envHeaders lib' raw := by
  unfold envHeaders
  split
  next => rfl
  next raw =>
    split
    next => rfl
    next =>
      refine foldlM_congr_of (I := Overrides.Distinct Text.lower) ?_ ?_ _ .nil
      · intro headers pair hd
        simp only [addEnvPair, insertHeader_eq hw hd, insertHeader_eq hw' hd]
      · intro headers pair out hd h
        rcases addEnvPair_eq_ok hw hd h with ⟨-, rfl⟩ | ⟨-, e, -, rfl⟩
        · exact hd
        · exact hd.put

theorem foldlM_addConfigHeader_congr {lib' : HeaderLib} (hw : lib.Walks) (hw' : lib'.Walks)
    (hd : Overrides.Distinct Text.lower headers) {env : Text → Option Text}
    {config : List (Text × Text)} :
    config.foldlM (addConfigHeader lib env) headers =
      config.foldlM (addConfigHeader lib' env) headers := by
  refine foldlM_congr_of (I := Overrides.Distinct Text.lower) ?_ ?_ _ hd
  · intro headers header hd
    simp only [addConfigHeader, insertHeader_eq hw hd, insertHeader_eq hw' hd]
  · intro headers header out hd h
    obtain ⟨value, -, rfl⟩ := addConfigHeader_eq_ok h
    rw [insertHeader_eq hw hd]
    exact hd.put

theorem context_ensure_bind_eq_ok {β : Type} {outer inner : String} {condition : Bool}
    {f : Unit → Except Error β} {b : β} :
    (context outer (ensure condition inner) >>= f) = .ok b ↔ condition = true ∧ f () = .ok b := by
  cases condition <;> simp [context, ensure, bind, Except.bind]

theorem checkHeaders_eq_ok {entries : List (Text × Text)} :
    checkHeaders lib entries = .ok () ↔
      ∀ h ∈ entries, lib.nameOk h.1 = true ∧ lib.valueOk h.2 = true := by
  induction entries with
  | nil => exact iff_of_true rfl (List.forall_mem_nil _)
  | cons h entries ih =>
    rw [checkHeaders, context_ensure_bind_eq_ok, context_ensure_bind_eq_ok, ih,
      List.forall_mem_cons, and_assoc]

theorem resolveWithEnv_eq_ok {env : Text → Option Text} {config : ObservabilityConfig} :
    resolveWithEnv lib config env = .ok headers ↔
      ∃ base merged, envHeaders lib (env OTEL_EXPORTER_OTLP_HEADERS) = .ok base ∧
        config.headers.foldlM (addConfigHeader lib env) base = .ok merged ∧
        addBasicAuth lib env config.basicAuth merged = .ok headers ∧
        checkHeaders lib (lib.order headers) = .ok () := by
  constructor
  · intro h
    obtain ⟨base, hbase, h⟩ := bind_eq_ok h
    obtain ⟨merged, hmerged, h⟩ := bind_eq_ok h
    obtain ⟨out, hauth, h⟩ := bind_eq_ok h
    obtain ⟨⟨⟩, hcheck, h⟩ := bind_eq_ok h
    cases h
    exact ⟨base, merged, hbase, hmerged, hauth, hcheck⟩
  · rintro ⟨base, merged, hbase, hmerged, hauth, hcheck⟩
    simp only [resolveWithEnv, resolveWith, bind, Except.bind, hbase, hmerged, hauth, hcheck]

/-- The order of the walks shows nowhere in what comes out. -/
theorem resolveWithEnv_order (hw : lib.Walks) {env : Text → Option Text}
    {config : ObservabilityConfig} (h : resolveWithEnv lib config env = .ok headers)
    {order : Headers → Headers} (horder : ∀ headers, (order headers).Perm headers) :
    resolveWithEnv { lib with order } config env = .ok headers := by
  have hw' : HeaderLib.Walks { lib with order } := horder
  obtain ⟨base, merged, hbase, hmerged, hauth, hcheck⟩ := resolveWithEnv_eq_ok.mp h
  have hdistinct : Overrides.Distinct Text.lower base := by
    obtain ⟨entries, -, rfl⟩ := envHeaders_eq_ok hw hbase
    exact .foldl .nil
  refine resolveWithEnv_eq_ok.mpr ⟨base, merged, ?_, ?_, hauth, ?_⟩
  · rw [envHeaders_congr hw' hw, hbase]
  · rw [foldlM_addConfigHeader_congr hw' hw hdistinct, hmerged]
  · rw [checkHeaders_eq_ok] at hcheck ⊢
    intro h hh
    exact hcheck h ((hw headers).mem_iff.mpr ((horder headers).mem_iff.mp hh))

/-! ## The credentials -/

theorem isAuthorization_iff : isAuthorization name = true ↔
    name.lower = Text.lower "authorization".toList :=
  eqIgnoreAsciiCase_iff

/-- Some header is an `Authorization` when some entry is. -/
theorem exists_isAuthorization_iff (entries : List (Text × Text)) :
    (∃ e ∈ entries.foldl (Overrides.put Text.lower) [], isAuthorization e.1 = true) ↔
      ∃ e ∈ entries, isAuthorization e.1 = true := by
  simp only [isAuthorization_iff]
  rw [Overrides.exists_mem_foldl_iff]
  exact or_iff_right (by simp)

theorem value_sources (fromEnv fromConfig : List (Text × Text)) (name : Text) :
    Overrides.value Text.lower
        ((fromEnv ++ fromConfig).foldl (Overrides.put Text.lower) []) name =
      (Overrides.lastValue Text.lower fromConfig name).or
        (Overrides.lastValue Text.lower fromEnv name) := by
  rw [Overrides.value_foldl, Overrides.lastValue_append]
  exact Option.or_none

theorem BasicAuthEntry.lower_ne {env : Text → Option Text} {auth : BasicAuthConfig}
    {e : Text × Text} (he : BasicAuthEntry lib env auth e) (hname : isAuthorization name = false) :
    name.lower ≠ e.1.lower := by
  obtain ⟨_, _, -, -, rfl⟩ := he
  intro heq
  have hsame : Text.lower "Authorization".toList = Text.lower "authorization".toList := by decide
  rw [isAuthorization_iff.mpr (heq.trans hsame)] at hname
  cases hname

/-- The credentials go behind headers that do not name them. -/
theorem addBasicAuth_eq_ok {env : Text → Option Text} {basicAuth : Option BasicAuthConfig}
    {out : Headers} (h : addBasicAuth lib env basicAuth headers = .ok out) :
    (out = headers ∧ ∀ auth, basicAuth = some auth → ∃ e ∈ headers, isAuthorization e.1 = true) ∨
    (∀ e ∈ headers, isAuthorization e.1 = false) ∧
      ∃ auth e, basicAuth = some auth ∧ BasicAuthEntry lib env auth e ∧ out = headers ++ [e] := by
  unfold addBasicAuth at h
  split at h
  next => exact .inl ⟨(Except.ok.inj h).symm, nofun⟩
  next auth =>
    split at h
    next hnamed =>
      exact .inl ⟨(Except.ok.inj h).symm, fun _ _ => List.any_eq_true.mp hnamed⟩
    next hnamed =>
      have hfree : ∀ e ∈ headers, isAuthorization e.1 = false := fun e he =>
        Bool.eq_false_iff.mpr fun ha => hnamed (List.any_eq_true.mpr ⟨e, he, ha⟩)
      obtain ⟨username, hun, h⟩ := bind_eq_ok h
      obtain ⟨password, hpw, h⟩ := bind_eq_ok h
      obtain ⟨-, h⟩ := ensure_bind_eq_ok.mp h
      have hentry : BasicAuthEntry lib env auth ("Authorization".toList,
          "Basic ".toList ++ lib.base64 (username ++ ':' :: password)) :=
        ⟨username, password, expandEnv_eq_ok.mp (context_eq_ok.mp hun),
          expandEnv_eq_ok.mp (context_eq_ok.mp hpw), rfl⟩
      refine .inr ⟨hfree, auth, _, rfl, hentry, ?_⟩
      rw [← Except.ok.inj h, mapInsert, List.filter_eq_self.mpr]
      intro e he
      exact decide_eq_true fun heq => hentry.lower_ne (hfree e he) (congrArg Text.lower heq)

end

/-- **Merged headers.** No name comes twice in any spelling; a name has the value the configuration
gives it last, or else the environment; the credentials make a header exactly when neither source
names it; and the order in which the hash map is walked does not matter. -/
theorem resolveWithEnv_merged {lib : HeaderLib} (hw : lib.Walks) {env : Text → Option Text}
    {config : ObservabilityConfig} {headers : Headers}
    (h : resolveWithEnv lib config env = .ok headers) :
    (∃ fromEnv fromConfig added,
      MergedHeaders lib env config fromEnv fromConfig added headers) ∧
    ∀ order : Headers → Headers, (∀ headers, (order headers).Perm headers) →
      resolveWithEnv { lib with order } config env = .ok headers := by
  refine ⟨?_, fun order horder => resolveWithEnv_order hw h horder⟩
  obtain ⟨base, merged, hbase, hmerged, hauth, -⟩ := resolveWithEnv_eq_ok.mp h
  obtain ⟨fromEnv, fromConfig, henv, hconfig, rfl⟩ := sources_eq_ok hw hbase hmerged
  have hnamed := exists_isAuthorization_iff (fromEnv ++ fromConfig)
  have hvalue := value_sources fromEnv fromConfig
  have hdistinct : Overrides.Distinct Text.lower
      ((fromEnv ++ fromConfig).foldl (Overrides.put Text.lower) []) := .foldl .nil
  rcases addBasicAuth_eq_ok hauth with ⟨rfl, hall⟩ | ⟨hfree, auth, e, hsome, he, rfl⟩
  · refine ⟨fromEnv, fromConfig, [], henv, hconfig, hdistinct, ?_, ?_, fun _ => rfl⟩
    · intro name
      rw [hvalue name]
      exact Option.or_none.symm
    · intro auth hsome hfree
      obtain ⟨e, he, ha⟩ := hnamed.mp (hall auth hsome)
      rw [hfree e he] at ha
      cases ha
  · refine ⟨fromEnv, fromConfig, [e], henv, hconfig, ?_, ?_, ?_, ?_⟩
    · exact hdistinct.concat fun e' he' => he.lower_ne (hfree e' he')
    · intro name
      rw [Overrides.value_append, hvalue name]
    · intro auth' hsome' _
      obtain rfl := Option.some.inj (hsome.symm.trans hsome')
      exact ⟨e, rfl, he⟩
    · rintro (hnone | hex)
      · rw [hsome] at hnone
        cases hnone
      · obtain ⟨e', he', ha⟩ := hnamed.mpr hex
        rw [hfree e' he'] at ha
        cases ha

/-- A token in each source, spelled differently, an escaped comma, and credentials. -/
def mergeEnv (name : Text) : Option Text :=
  if name = OTEL_EXPORTER_OTLP_HEADERS then
    some "X-Token=from%2Denv, tenant=a%2Cb,x-token=again".toList
  else if name = "TOKEN".toList then some "secret".toList
  else none

def mergeConfig : ObservabilityConfig :=
  ⟨[("x-TOKEN".toList, "$\x7bTOKEN\x7d".toList)],
    some ⟨"dog".toList, "$\x7bTOKEN\x7d".toList⟩⟩

def mergeLib : HeaderLib :=
  { printableLib with
    base64 := fun t => if t = "dog:secret".toList then "ZG9nOnNlY3JldA==".toList else t }

theorem resolveWithEnv_merged_tokens :
    ∃ fromEnv fromConfig added, MergedHeaders mergeLib mergeEnv mergeConfig fromEnv fromConfig
      added [("tenant".toList, "a,b".toList), ("x-TOKEN".toList, "secret".toList),
        ("Authorization".toList, "Basic ZG9nOnNlY3JldA==".toList)] := by
  have hwalks : mergeLib.Walks := fun headers => .refl headers
  exact (resolveWithEnv_merged hwalks (by decide +kernel)).1

end DoggyDns
