import DoggyDns.Basic.Load
import DoggyDns.Lib.Utf8

/-!
# OTLP headers

`resolve_with_env` merges the headers of `OTEL_EXPORTER_OTLP_HEADERS` with the
configured ones and adds the `Authorization` header of `basic_auth`. It expands
environment references in what it takes from the configuration, although
loading the configuration did so before: a value is expanded once exactly when
its first expansion opens no reference.

A header map is its list of entries; `HeaderLib.order` is the order a walk over
the hash map meets them in.
-/

namespace DoggyDns

open Toml

/-- What the exporters take from other crates, and from the hash map. -/
structure HeaderLib where
  /-- `base64::engine::general_purpose::STANDARD.encode`. -/
  base64 : Text → Text
  /-- `HeaderName::from_bytes` accepts the name. -/
  nameOk : Text → Bool
  /-- `HeaderValue::from_str` accepts the value. -/
  valueOk : Text → Bool
  /-- The messages of `InvalidHeaderName` and `InvalidHeaderValue`. -/
  invalidName : String
  invalidValue : String
  order : List (Text × Text) → List (Text × Text)

abbrev Headers := List (Text × Text)

def OTEL_EXPORTER_OTLP_HEADERS : Text := "OTEL_EXPORTER_OTLP_HEADERS".toList

/-! ## Texts -/

def Text.eqIgnoreAsciiCase (a b : Text) : Bool := a.map Char.toLower == b.map Char.toLower

def hexValue (byte : UInt8) : Except Error UInt8 :=
  if 0x30 ≤ byte ∧ byte ≤ 0x39 then .ok (byte - 0x30)
  else if 0x61 ≤ byte ∧ byte ≤ 0x66 then .ok (byte - 0x61 + 10)
  else if 0x41 ≤ byte ∧ byte ≤ 0x46 then .ok (byte - 0x41 + 10)
  else .error ["invalid hex digit in percent escape"]

def percentDecodeBytes : List UInt8 → Except Error (List UInt8)
  | [] => .ok []
  | byte :: rest =>
    if byte = 0x25 then
      match rest with
      | high :: low :: rest => do
        let high ← hexValue high
        let low ← hexValue low
        let rest ← percentDecodeBytes rest
        .ok ((high * 16 + low) :: rest)
      | _ => .error ["truncated percent escape in header value"]
    else do
      let rest ← percentDecodeBytes rest
      .ok (byte :: rest)

/-- `Utf8Error`: where the valid text ends, and how many bytes behind it are wrong; `none` when
the bytes end in the middle of a character. -/
structure Utf8Error where
  validUpTo : Nat
  errorLen : Option Nat
  deriving DecidableEq, Repr

/-- `Display` of it. -/
def Utf8Error.message (e : Utf8Error) : String :=
  let index := e.validUpTo
  match e.errorLen with
  | some len => s!"invalid utf-8 sequence of {len} bytes from index {index}"
  | none => s!"incomplete utf-8 byte sequence from index {index}"

/-- The least and the greatest byte at each place behind a first byte. -/
def tailRanges (first : UInt8) : Option (List (UInt8 × UInt8)) :=
  if first < 0x80 then some []
  else if 0xC2 ≤ first ∧ first ≤ 0xDF then some [(0x80, 0xBF)]
  else if first = 0xE0 then some [(0xA0, 0xBF), (0x80, 0xBF)]
  else if first = 0xED then some [(0x80, 0x9F), (0x80, 0xBF)]
  else if 0xE1 ≤ first ∧ first ≤ 0xEF then some [(0x80, 0xBF), (0x80, 0xBF)]
  else if first = 0xF0 then some [(0x90, 0xBF), (0x80, 0xBF), (0x80, 0xBF)]
  else if 0xF1 ≤ first ∧ first ≤ 0xF3 then some [(0x80, 0xBF), (0x80, 0xBF), (0x80, 0xBF)]
  else if first = 0xF4 then some [(0x80, 0x8F), (0x80, 0xBF), (0x80, 0xBF)]
  else none

/-- What is wrong behind `len` good bytes of a character, when something is. -/
def tailError (len : Nat) : List (UInt8 × UInt8) → List UInt8 → Option (Option Nat)
  | [], _ => none
  | _ :: _, [] => some none
  | (least, greatest) :: ranges, byte :: rest =>
    if least ≤ byte ∧ byte ≤ greatest then tailError (len + 1) ranges rest else some (some len)

/-- The first error, from byte `index` on, `skip` bytes of a good character still to come. -/
def findUtf8Error (index skip : Nat) : List UInt8 → Option Utf8Error
  | [] => none
  | byte :: rest =>
    match skip, tailRanges byte with
    | skip + 1, _ => findUtf8Error (index + 1) skip rest
    | 0, none => some ⟨index, some 1⟩
    | 0, some ranges =>
      match tailError 1 ranges rest with
      | some errorLen => some ⟨index, errorLen⟩
      | none => findUtf8Error (index + 1) ranges.length rest

/-- `String::from_utf8`. -/
def fromUtf8 (bytes : List UInt8) : Except Error Text :=
  match Utf8.decode bytes with
  | some text => .ok text
  | none => .error ((findUtf8Error 0 0 bytes).map Utf8Error.message).toList

def percentDecode (value : Text) : Except Error Text := do
  let decoded ← percentDecodeBytes (utf8 value)
  context "header value is not valid UTF-8 after percent-decoding" (fromUtf8 decoded)

/-! ## Merging -/

section
variable (lib : HeaderLib)

/-- `HashMap::insert`. -/
def mapInsert (headers : Headers) (name value : Text) : Headers :=
  headers.filter (fun h => h.1 ≠ name) ++ [(name, value)]

/-- Put a header in the place of the one with that name in any case. -/
def insertHeader (headers : Headers) (name value : Text) : Headers :=
  match ((lib.order headers).map Prod.fst).find? (Text.eqIgnoreAsciiCase · name) with
  | some existing => mapInsert (headers.filter fun h => h.1 ≠ existing) name value
  | none => mapInsert headers name value

def addEnvPair (headers : Headers) (pair : Text) : Except Error Headers :=
  if (trim pair).isEmpty then .ok headers
  else do
    let (key, value) ← required
      ("invalid OTEL_EXPORTER_OTLP_HEADERS entry: " ++ String.ofList (trim pair))
      (splitOnce '=' (trim pair))
    let name ← context ("invalid header name in OTEL_EXPORTER_OTLP_HEADERS: " ++ String.ofList key)
      (percentDecode (trim key))
    ensure (!name.isEmpty) "OTEL_EXPORTER_OTLP_HEADERS contains an empty header name"
    let value ← context
      ("invalid header value in OTEL_EXPORTER_OTLP_HEADERS for " ++ String.ofList name)
      (percentDecode (trim value))
    .ok (insertHeader lib headers name value)

/-- The headers of the environment. -/
def envHeaders (raw : Option Text) : Except Error Headers :=
  match raw with
  | none => .ok []
  | some raw =>
    if (trim raw).isEmpty then .ok [] else (raw.splitOn ',').foldlM (addEnvPair lib) []

variable (lookup : Text → Option Text)

def addConfigHeader (headers : Headers) (header : Text × Text) : Except Error Headers := do
  ensure (!(trim header.1).isEmpty) "observability.headers contains an empty header name"
  let value ← context ("invalid observability header " ++ String.ofList header.1)
    (expandEnv lookup header.2)
  .ok (insertHeader lib headers (trim header.1) value)

def isAuthorization (name : Text) : Bool := Text.eqIgnoreAsciiCase name "authorization".toList

def addBasicAuth (basicAuth : Option BasicAuthConfig) (headers : Headers) :
    Except Error Headers :=
  match basicAuth with
  | none => .ok headers
  | some auth =>
    if headers.any fun h => isAuthorization h.1 then .ok headers
    else do
      let username ← context "invalid observability.basic_auth.username"
        (expandEnv lookup auth.username)
      let password ← context "invalid observability.basic_auth.password"
        (expandEnv lookup auth.password)
      ensure (!username.isEmpty && !password.isEmpty)
        "observability.basic_auth username and password must not be empty"
      let encoded := lib.base64 (username ++ ':' :: password)
      .ok (mapInsert headers "Authorization".toList ("Basic ".toList ++ encoded))

def checkHeaders : List (Text × Text) → Except Error Unit
  | [] => .ok ()
  | (name, value) :: rest => do
    context ("invalid OTLP header name: " ++ String.ofList name)
      (ensure (lib.nameOk name) lib.invalidName)
    context ("invalid OTLP header value for " ++ String.ofList name)
      (ensure (lib.valueOk value) lib.invalidValue)
    checkHeaders rest

/-- The headers, from the environment's own, `lookup` for references and the configuration. -/
def resolveWith (raw : Option Text) (config : ObservabilityConfig) : Except Error Headers := do
  let headers ← envHeaders lib raw
  let headers ← config.headers.foldlM (addConfigHeader lib lookup) headers
  let headers ← addBasicAuth lib lookup config.basicAuth headers
  checkHeaders lib (lib.order headers)
  .ok headers

/-- `resolve_with_env`. -/
def resolveWithEnv (config : ObservabilityConfig) (env : Text → Option Text) :
    Except Error Headers :=
  resolveWith lib env (env OTEL_EXPORTER_OTLP_HEADERS) config

end

/-! ## Expanded once -/

/-- With each reference of `t` replaced by its variable's value, the text opens no reference. -/
def Settled (env : Text → Option Text) (t : Text) : Prop :=
  ∀ segments text, Splits t segments → render env segments = some text → ¬ opening <:+: text

/-- The environment or the configuration names an `Authorization` header of its own. -/
def authorizationNamed (lib : HeaderLib) (raw : Option Text) (config : ObservabilityConfig) :
    Bool :=
  (match envHeaders lib raw with
    | .ok headers => headers.any fun h => isAuthorization h.1
    | .error _ => false) ||
  config.headers.any fun h => isAuthorization (trim h.1)

def BasicAuthConfig.texts : Option BasicAuthConfig → List Text
  | none => []
  | some auth => [auth.username, auth.password]

/-- The texts of the configuration that `resolve_with_env` uses. -/
def usedTexts (lib : HeaderLib) (raw : Option Text) (config : ObservabilityConfig) : List Text :=
  config.headers.map Prod.snd ++
    if authorizationNamed lib raw config then [] else BasicAuthConfig.texts config.basicAuth

section
variable {env : Text → Option Text} {lib : HeaderLib} {raw : Option Text}
  {written loaded : ObservabilityConfig}

theorem settled_iff {t u : Text} (h : expandEnv env t = .ok u) :
    Settled env t ↔ ¬ opening <:+: u := by
  obtain ⟨segments, hs, hr⟩ := expandEnv_eq_ok.mp h
  refine ⟨fun hset => hset segments u hs hr, fun hno segments' text hs' hr' => ?_⟩
  have hu := expandEnv_eq_ok.mpr ⟨segments', hs', hr'⟩
  rwa [← Except.ok.inj (h.symm.trans hu)]

/-- Without any variable set, only texts without a reference expand. -/
theorem no_opening_of_expandEnv_none {t u : Text} (h : expandEnv (fun _ => none) t = .ok u) :
    ¬ opening <:+: t := by
  obtain ⟨segments, hs, hr⟩ := expandEnv_eq_ok.mp h
  cases hs with
  | literal hno => exact hno
  | reference => simp [render] at hr

/-! ### Which names a merge has -/

theorem eqIgnoreAsciiCase_trans {a b c : Text} (hab : Text.eqIgnoreAsciiCase a b) :
    Text.eqIgnoreAsciiCase a c = Text.eqIgnoreAsciiCase b c := by
  unfold Text.eqIgnoreAsciiCase at *
  rw [beq_iff_eq.mp hab]

theorem any_mapInsert (headers : Headers) (name value : Text) :
    ((mapInsert headers name value).any fun h => isAuthorization h.1) =
      (isAuthorization name || headers.any fun h => isAuthorization h.1) := by
  unfold mapInsert
  rw [Bool.eq_iff_iff]
  simp only [List.any_append, List.any_filter, List.any_cons, List.any_nil, Bool.or_false,
    Bool.or_eq_true, List.any_eq_true, Bool.and_eq_true, decide_eq_true_eq]
  constructor
  · rintro (⟨h, hm, -, ha⟩ | ha)
    · exact .inr ⟨h, hm, ha⟩
    · exact .inl ha
  · rintro (ha | ⟨h, hm, ha⟩)
    · exact .inr ha
    · by_cases hn : h.1 = name
      · exact .inr (hn ▸ ha)
      · exact .inl ⟨h, hm, hn, ha⟩

theorem any_insertHeader (headers : Headers) (name value : Text) :
    ((insertHeader lib headers name value).any fun h => isAuthorization h.1) =
      (isAuthorization name || headers.any fun h => isAuthorization h.1) := by
  unfold insertHeader
  split
  next existing hfind =>
    have heq := List.find?_some hfind
    rw [any_mapInsert]
    cases hn : isAuthorization name with
    | true => rfl
    | false =>
      -- the header that went is not an `Authorization` either
      have hex : isAuthorization existing = false := by
        rw [isAuthorization, eqIgnoreAsciiCase_trans heq]
        exact hn
      rw [Bool.false_or, Bool.false_or, List.any_filter, Bool.eq_iff_iff]
      simp only [List.any_eq_true, Bool.and_eq_true, decide_eq_true_eq]
      constructor
      · rintro ⟨h, hm, -, ha⟩
        exact ⟨h, hm, ha⟩
      · rintro ⟨h, hm, ha⟩
        refine ⟨h, hm, fun he => ?_, ha⟩
        rw [he, hex] at ha
        cases ha
  next => exact any_mapInsert headers name value

theorem addConfigHeader_eq_ok {lookup : Text → Option Text} {headers out : Headers}
    {header : Text × Text} (h : addConfigHeader lib lookup headers header = .ok out) :
    ∃ value, expandEnv lookup header.2 = .ok value ∧
      out = insertHeader lib headers (trim header.1) value := by
  obtain ⟨-, -, h⟩ := bind_eq_ok h
  obtain ⟨value, hv, h⟩ := bind_eq_ok h
  exact ⟨value, context_eq_ok.mp hv, (Except.ok.inj h).symm⟩

/-- What a walk over the configured headers leaves behind. -/
theorem foldlM_addConfigHeader_eq_ok {lookup : Text → Option Text} {headers out : Headers}
    {config : List (Text × Text)}
    (h : config.foldlM (addConfigHeader lib lookup) headers = .ok out) :
    (∀ header ∈ config, ∃ value, expandEnv lookup header.2 = .ok value) ∧
    (out.any fun h => isAuthorization h.1) =
      ((headers.any fun h => isAuthorization h.1) ||
        config.any fun h => isAuthorization (trim h.1)) := by
  induction config generalizing headers with
  | nil =>
    cases h
    simp
  | cons header config ih =>
    rw [List.foldlM_cons] at h
    obtain ⟨next, hn, h⟩ := bind_eq_ok h
    obtain ⟨value, hv, rfl⟩ := addConfigHeader_eq_ok hn
    obtain ⟨hall, hany⟩ := ih h
    refine ⟨?_, ?_⟩
    · intro header' hm
      rcases List.mem_cons.mp hm with rfl | hm
      · exact ⟨value, hv⟩
      · exact hall header' hm
    · rw [hany, any_insertHeader, List.any_cons, Bool.or_comm (isAuthorization _), Bool.or_assoc]

/-! ### The second expansion -/

variable (lib) in
/-- A walk over what was loaded, each text without a reference, is one over what was written. -/
theorem foldlM_loaded {ws ls : List (Text × Text)} (hrel : List.Forall₂ (ExpandsTo env) ws ls)
    (hno : ∀ l ∈ ls, ¬ opening <:+: l.2) (lookup : Text → Option Text) (headers : Headers) :
    ls.foldlM (addConfigHeader lib lookup) headers =
      ws.foldlM (addConfigHeader lib env) headers := by
  induction hrel generalizing headers with
  | nil => rfl
  | @cons w l ws ls hwl _ ih =>
    have hstep : addConfigHeader lib lookup headers l = addConfigHeader lib env headers w := by
      unfold addConfigHeader
      rw [hwl.1, hwl.2, expandEnv_eq_self_iff.mpr (hno l List.mem_cons_self) lookup]
    rw [List.foldlM_cons, List.foldlM_cons, hstep]
    refine bind_congr fun next => ?_
    exact ih (fun l' hl' => hno l' (List.mem_cons_of_mem _ hl')) next

theorem authorizationNamed_loaded (h : LoadedFrom env written loaded) :
    authorizationNamed lib raw loaded = authorizationNamed lib raw written := by
  have hkeys : ∀ {ws ls : List (Text × Text)}, List.Forall₂ (ExpandsTo env) ws ls →
      (ls.any fun h => isAuthorization (trim h.1)) =
        ws.any fun h => isAuthorization (trim h.1) := by
    intro ws ls hrel
    induction hrel with
    | nil => rfl
    | cons hwl _ ih => rw [List.any_cons, List.any_cons, ih, hwl.1]
  unfold authorizationNamed
  rw [hkeys h.headers]

variable (lib raw) in
/-- Text by text, what is used of the loaded configuration is the expansion of what is written. -/
theorem usedTexts_rel (h : LoadedFrom env written loaded) :
    List.Forall₂ (Expansion env) (usedTexts lib raw written) (usedTexts lib raw loaded) := by
  unfold usedTexts
  rw [authorizationNamed_loaded h]
  refine List.rel_append ?_ ?_
  · exact List.forall₂_map_left_iff.mpr (List.forall₂_map_right_iff.mpr
      (h.headers.imp fun _ _ hwl => hwl.2))
  · split
    · exact .nil
    · have hauth := h.basicAuth
      generalize written.basicAuth = w at hauth
      generalize loaded.basicAuth = l at hauth
      cases hauth with
      | none => exact .nil
      | some hrel => exact .cons hrel.1 (.cons hrel.2 .nil)

theorem settled_used_iff (h : LoadedFrom env written loaded) :
    (∀ t ∈ usedTexts lib raw written, Settled env t) ↔
      ∀ u ∈ usedTexts lib raw loaded, ¬ opening <:+: u := by
  have hrel := usedTexts_rel lib raw h
  generalize usedTexts lib raw written = ts at hrel
  generalize usedTexts lib raw loaded = us at hrel
  induction hrel with
  | nil => simp
  | cons htu _ ih => simp only [List.forall_mem_cons, settled_iff htu, ih]

/-- The credentials of `basic_auth`, when no header of the merge stands in for them. -/
theorem mem_usedTexts_basicAuth {config : ObservabilityConfig} {lookup : Text → Option Text}
    {headers merged : Headers} {auth : BasicAuthConfig} (henv : envHeaders lib raw = .ok headers)
    (hfold : config.headers.foldlM (addConfigHeader lib lookup) headers = .ok merged)
    (hnone : (merged.any fun h => isAuthorization h.1) = false)
    (hauth : config.basicAuth = some auth) :
    auth.username ∈ usedTexts lib raw config ∧ auth.password ∈ usedTexts lib raw config := by
  have hnamed : authorizationNamed lib raw config = false := by
    rw [authorizationNamed, henv, ← (foldlM_addConfigHeader_eq_ok hfold).2, hnone]
  unfold usedTexts
  rw [hnamed, hauth]
  simp [BasicAuthConfig.texts]

variable (lib) in
theorem addBasicAuth_loaded (h : LoadedFrom env written loaded) (lookup : Text → Option Text)
    (headers : Headers)
    (hno : (headers.any fun h => isAuthorization h.1) = false →
      ∀ auth, loaded.basicAuth = some auth →
        ¬ opening <:+: auth.username ∧ ¬ opening <:+: auth.password) :
    addBasicAuth lib lookup loaded.basicAuth headers =
      addBasicAuth lib env written.basicAuth headers := by
  have hauth := h.basicAuth
  generalize written.basicAuth = w at hauth
  generalize loaded.basicAuth = l at hauth hno
  cases hauth with
  | none => rfl
  | @some w l hrel =>
    unfold addBasicAuth
    simp only
    split
    next => rfl
    next hany =>
      obtain ⟨hu, hp⟩ := hno (Bool.eq_false_iff.mpr hany) l rfl
      rw [hrel.1, hrel.2, expandEnv_eq_self_iff.mpr hu lookup, expandEnv_eq_self_iff.mpr hp lookup]

/-- With every used text free of references, the exporter does what it would do with the file
as written, whatever the environment holds by then. -/
theorem resolveWith_loaded (h : LoadedFrom env written loaded)
    (hno : ∀ u ∈ usedTexts lib raw loaded, ¬ opening <:+: u) (lookup : Text → Option Text) :
    resolveWith lib lookup raw loaded = resolveWith lib env raw written := by
  have hheaders : ∀ l ∈ loaded.headers, ¬ opening <:+: l.2 := fun l hl =>
    hno l.2 (List.mem_append_left _ (List.mem_map_of_mem hl))
  unfold resolveWith
  cases henv : envHeaders lib raw with
  | error => rfl
  | ok headers =>
    have hloaded := foldlM_loaded lib h.headers hheaders lookup headers
    cases hfold : written.headers.foldlM (addConfigHeader lib env) headers with
    | error =>
      simp only [bind, Except.bind, hloaded, hfold]
    | ok merged =>
      rw [hfold] at hloaded
      have hauth := addBasicAuth_loaded lib h lookup merged fun hany auth ha =>
        have hm := mem_usedTexts_basicAuth henv hloaded hany ha
        ⟨hno _ hm.1, hno _ hm.2⟩
      simp only [bind, Except.bind, hloaded, hfold, hauth]

/-- Where no variable is set, the exporter succeeds on texts without references only. -/
theorem no_opening_of_resolveWith_none {headers : Headers}
    (h : resolveWith lib (fun _ => none) raw loaded = .ok headers) :
    ∀ u ∈ usedTexts lib raw loaded, ¬ opening <:+: u := by
  obtain ⟨base, henv, h⟩ := bind_eq_ok h
  obtain ⟨merged, hfold, h⟩ := bind_eq_ok h
  obtain ⟨_, hauth, -⟩ := bind_eq_ok h
  obtain ⟨hall, hany⟩ := foldlM_addConfigHeader_eq_ok hfold
  intro u hu
  unfold usedTexts authorizationNamed at hu
  rw [henv, ← hany] at hu
  rcases List.mem_append.mp hu with hu | hu
  · obtain ⟨header, hm, rfl⟩ := List.mem_map.mp hu
    obtain ⟨value, hv⟩ := hall header hm
    exact no_opening_of_expandEnv_none hv
  · split at hu
    next => cases hu
    next hno =>
      cases hb : loaded.basicAuth with
      | none => simp [hb, BasicAuthConfig.texts] at hu
      | some auth =>
        rw [hb, addBasicAuth] at hauth
        simp only [hno] at hauth
        obtain ⟨username, hun, hauth⟩ := bind_eq_ok hauth
        obtain ⟨password, hpw, -⟩ := bind_eq_ok hauth
        simp only [hb, BasicAuthConfig.texts, List.mem_cons, List.not_mem_nil, or_false] at hu
        rcases hu with rfl | rfl
        · exact no_opening_of_expandEnv_none (context_eq_ok.mp hun)
        · exact no_opening_of_expandEnv_none (context_eq_ok.mp hpw)

variable {fromStr : Text → Except Error Value} {serdeError : Value → Error}
  {validate : Value → Except Error Unit}

/-- **References are resolved when the configuration is loaded, unless resolving them makes new
ones.** For a file the loader accepts, the exporters send the file's credentials expanded once,
whatever the environment says by then, if no used text opens a reference once its own are
replaced; and only then, wherever expanding once makes valid headers. -/
theorem expanded_once_iff_settled (lib : HeaderLib) {content : Text}
    (hload : parseConfig fromStr serdeError validate env content = .ok loaded) :
    ∃ document written, fromStr content = .ok document ∧
      deserializeObservability document = some written ∧
      ((∀ t ∈ usedTexts lib (env OTEL_EXPORTER_OTLP_HEADERS) written, Settled env t) →
        ∀ lookup, resolveWith lib lookup (env OTEL_EXPORTER_OTLP_HEADERS) loaded =
          resolveWithEnv lib written env) ∧
      ∀ headers, resolveWithEnv lib written env = .ok headers →
        ((∀ lookup, resolveWith lib lookup (env OTEL_EXPORTER_OTLP_HEADERS) loaded =
            .ok headers) ↔
          ∀ t ∈ usedTexts lib (env OTEL_EXPORTER_OTLP_HEADERS) written, Settled env t) := by
  obtain ⟨document, written, hparse, hw, hrel⟩ := loadedFrom_of_parseConfig hload
  have honce : (∀ t ∈ usedTexts lib (env OTEL_EXPORTER_OTLP_HEADERS) written, Settled env t) →
      ∀ lookup, resolveWith lib lookup (env OTEL_EXPORTER_OTLP_HEADERS) loaded =
        resolveWithEnv lib written env :=
    fun hset lookup => resolveWith_loaded hrel ((settled_used_iff hrel).mp hset) lookup
  refine ⟨document, written, hparse, hw, honce, fun headers hok => ⟨fun hall => ?_, ?_⟩⟩
  · exact (settled_used_iff hrel).mpr (no_opening_of_resolveWith_none (hall _))
  · intro hset lookup
    rw [honce hset lookup, hok]

end

/-- A file whose `authorization` header is a variable, and what it parses to. -/
def tokenContent : Text :=
  ("[server]\nlisten_addr = \"127.0.0.1\"\nport = 53\n\n[observability.headers]\n" ++
    "authorization = \"$\x7bTOKEN\x7d\"\n").toList

def tokenDocument : Value :=
  .table [("observability".toList, .table [("headers".toList,
      .table [("authorization".toList, .string "$\x7bTOKEN\x7d".toList)])]),
    ("server".toList, .table [("listen_addr".toList, .string "127.0.0.1".toList),
      ("port".toList, .integer 53)])]

def contentFromStr (content : Text) : Except Error Value :=
  if content = tokenContent then .ok tokenDocument else .error []

/-- An environment with one variable. -/
def tokenEnv (token : String) (name : Text) : Option Text :=
  if name = "TOKEN".toList then some token.toList else none

/-- Printable ASCII, in a map that is walked as it was filled. -/
def printableLib : HeaderLib where
  base64 t := t
  nameOk name := !name.isEmpty && name.all fun c => c.isAlphanum || c == '-'
  valueOk value := value.all fun c => 32 ≤ c.toNat && c.toNat < 127
  invalidName := "invalid HTTP header name"
  invalidValue := "failed to parse header value"
  order headers := headers

def tokenWritten : ObservabilityConfig :=
  ⟨[("authorization".toList, "$\x7bTOKEN\x7d".toList)], none⟩

def tokenLoaded (token : String) : ObservabilityConfig :=
  ⟨[("authorization".toList, token.toList)], none⟩

theorem expanded_once_plain_token :
    parseConfig contentFromStr (fun _ => []) (fun _ => .ok ()) (tokenEnv "abc") tokenContent =
      .ok (tokenLoaded "abc") ∧
    ∀ lookup, resolveWith printableLib lookup none (tokenLoaded "abc") =
      .ok [("authorization".toList, "abc".toList)] := by
  have hload : parseConfig contentFromStr (fun _ => []) (fun _ => .ok ()) (tokenEnv "abc")
      tokenContent = .ok (tokenLoaded "abc") := by decide +kernel
  obtain ⟨document, written, hparse, hw, honce, -⟩ := expanded_once_iff_settled printableLib hload
  obtain rfl : tokenDocument = document := Except.ok.inj ((if_pos rfl).symm.trans hparse)
  obtain rfl : tokenWritten = written := Option.some.inj hw
  refine ⟨hload, fun lookup => (honce (fun t ht => ?_) lookup).trans (by decide +kernel)⟩
  obtain rfl : t = "$\x7bTOKEN\x7d".toList := List.mem_singleton.mp ht
  have hexp : expandEnv (tokenEnv "abc") "$\x7bTOKEN\x7d".toList = .ok "abc".toList := by
    decide +kernel
  exact (settled_iff hexp).mpr (by decide)

/-- A token that happens to hold a dollar-brace makes the exporters fail. -/
theorem dollar_brace_token_rejected :
    parseConfig contentFromStr (fun _ => []) (fun _ => .ok ()) (tokenEnv "ab$\x7bc") tokenContent =
      .ok (tokenLoaded "ab$\x7bc") ∧
    deserializeObservability tokenDocument = some tokenWritten ∧
    resolveWithEnv printableLib tokenWritten (tokenEnv "ab$\x7bc") =
      .ok [("authorization".toList, "ab$\x7bc".toList)] ∧
    resolveWithEnv printableLib (tokenLoaded "ab$\x7bc") (tokenEnv "ab$\x7bc") =
      .error ["invalid observability header authorization", UNTERMINATED] := by
  refine ⟨?_, rfl, ?_, ?_⟩ <;> decide +kernel

end DoggyDns
