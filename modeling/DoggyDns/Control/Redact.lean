import DoggyDns.Basic.Toml

/-!
# Configuration redaction

`redact_toml` parses the file, masks what is stored under sensitive keys and
prints the document again. Only a string directly under such a key is masked:
a value of any other shape is searched for further keys and printed otherwise
as it stands. So the result hides exactly the strings.

The parser and the printer of the `toml` crate are parameters.
-/

namespace DoggyDns

open Toml

def SENSITIVE_KEYS : List Text :=
  ["password", "passwd", "secret", "token", "authorization", "api_key", "apikey"].map
    String.toList

def isSensitive (key : Text) : Bool := SENSITIVE_KEYS.contains (key.map Char.toLower)

def mask : Text := ['*', '*', '*']

mutual

/-- Mask `value` in place, and list the paths of what was masked. -/
def redactValue : Value → Text → Value × List Text
  | .table entries, path =>
    let (entries, redacted) := redactEntries entries path
    (.table entries, redacted)
  | .array items, path =>
    let (items, redacted) := redactItems items path 0
    (.array items, redacted)
  | value, _ => (value, [])
  termination_by structural value => value

def redactEntries : List (Text × Value) → Text → List (Text × Value) × List Text
  | [], _ => ([], [])
  | (key, child) :: rest, path =>
    let (child, redacted) :=
      if isSensitive key then
        match child with
        | .string _ => (.string mask, [childPath path key])
        | _ => redactValue child (childPath path key)
      else redactValue child (childPath path key)
    let (rest, redacted') := redactEntries rest path
    ((key, child) :: rest, redacted ++ redacted')
  termination_by structural entries => entries

def redactItems : List Value → Text → Nat → List Value × List Text
  | [], _, _ => ([], [])
  | item :: rest, path, i =>
    let (item, redacted) := redactValue item (itemPath path i)
    let (rest, redacted') := redactItems rest path (i + 1)
    (item :: rest, redacted ++ redacted')
  termination_by structural items => items

end

inductive RedactError (D S : Type) where
  | parseError (e : D)
  | serializeError (e : S)

def RedactError.message {D S : Type} : RedactError D S → String
  | .parseError _ => "failed to parse TOML configuration"
  | .serializeError _ => "failed to serialise redacted configuration"

section
variable {D S : Type} (fromStr : Text → Except D Value) (toStringPretty : Value → Except S Text)

/-- Parse, mask and print. -/
def redactToml (input : Text) : Except (RedactError D S) (Text × List Text) :=
  match fromStr input with
  | .error e => .error (.parseError e)
  | .ok doc =>
    let (doc, redacted) := redactValue doc []
    match toStringPretty doc with
    | .error e => .error (.serializeError e)
    | .ok output => .ok (output, redacted)

/-- What the MCP server keeps of the file for `get_config`. -/
inductive ConfigSnapshot where
  | redacted (content : Text) (redactedKeys : List Text)
  | error (code : String) (message : String)

def ConfigSnapshot.capture (raw : Text) : ConfigSnapshot :=
  match redactToml fromStr toStringPretty raw with
  | .ok (content, redactedKeys) => .redacted content redactedKeys
  | .error e => .error "config_parse_error" ("failed to parse config: " ++ e.message)

end

/-! ## What the result depends on -/

/-- A table entry may hold any value under a sensitive key. -/
def UnderSensitive (key : Text) (_ _ : Value) : Prop := isSensitive key

/-- A table entry may hold any string under a sensitive key. -/
def SecretString (key : Text) (v w : Value) : Prop := isSensitive key ∧ v.isString ∧ w.isString

/-- What becomes of one table entry. -/
def redactChild (path key : Text) (child : Value) : Value × List Text :=
  if isSensitive key ∧ child.isString then (.string mask, [childPath path key])
  else redactValue child (childPath path key)

theorem redactEntries_cons (key : Text) (child : Value) (rest : List (Text × Value))
    (path : Text) :
    redactEntries ((key, child) :: rest) path =
      ((key, (redactChild path key child).1) :: (redactEntries rest path).1,
        (redactChild path key child).2 ++ (redactEntries rest path).2) := by
  unfold redactChild
  cases hk : isSensitive key with
  | false => cases child <;> simp [redactEntries, hk]
  | true => cases child <;> simp [redactEntries, hk, Value.isString]

theorem redactItems_cons (item : Value) (rest : List Value) (path : Text) (i : Nat) :
    redactItems (item :: rest) path i =
      ((redactValue item (itemPath path i)).1 :: (redactItems rest path (i + 1)).1,
        (redactValue item (itemPath path i)).2 ++ (redactItems rest path (i + 1)).2) := by
  rw [redactItems]

mutual

/-- Documents that differ in secret strings only are redacted to the same thing. -/
theorem redactValue_congr : ∀ (v w : Value) (path : Text), v.EqExcept SecretString w →
    redactValue v path = redactValue w path
  | .array xs, w, path, h => by
    cases w with
    | array ys => rw [redactValue, redactValue, redactItems_congr xs ys path 0 h]
    | _ => cases h
  | .table es, w, path, h => by
    cases w with
    | table fs => rw [redactValue, redactValue, redactEntries_congr es fs path h]
    | _ => cases h
  | .string _, w, _, h | .integer _, w, _, h | .float _, w, _, h | .boolean _, w, _, h
  | .datetime _, w, _, h => by
    cases w <;> cases h
    rfl

theorem redactItems_congr : ∀ (xs ys : List Value) (path : Text) (i : Nat),
    EqExceptItems SecretString xs ys → redactItems xs path i = redactItems ys path i
  | [], [], _, _, _ => rfl
  | x :: xs, y :: ys, path, i, h => by
    rw [redactItems_cons, redactItems_cons, redactValue_congr x y _ h.1,
      redactItems_congr xs ys path _ h.2]

theorem redactEntries_congr : ∀ (es fs : List (Text × Value)) (path : Text),
    EqExceptEntries SecretString es fs → redactEntries es path = redactEntries fs path
  | [], [], _, _ => rfl
  | (k, v) :: es, (l, w) :: fs, path, h => by
    obtain ⟨rfl, hv, hrest⟩ := h
    rw [redactEntries_cons, redactEntries_cons, redactEntries_congr es fs path hrest]
    have hchild : redactChild path k v = redactChild path k w := by
      rcases hv with ⟨hk, hv, hw⟩ | hv
      · rw [redactChild, redactChild, if_pos ⟨hk, hv⟩, if_pos ⟨hk, hw⟩]
      · rw [redactChild, redactChild, hv.isString_eq, redactValue_congr v w _ hv]
    rw [hchild]

end

theorem isString_redactChild (path key : Text) (child : Value) :
    (redactChild path key child).1.isString = child.isString := by
  unfold redactChild
  split
  next h => exact h.2.symm
  next => cases child <;> rfl

mutual

/-- Conversely, whatever else they differ in is printed. -/
theorem eqExcept_of_redactValue : ∀ (v w : Value) (path path' : Text),
    (redactValue v path).1 = (redactValue w path').1 → v.EqExcept SecretString w
  | .array xs, w, path, path', h => by
    cases w with
    | array ys =>
      rw [redactValue, redactValue] at h
      exact eqExcept_of_redactItems xs ys path path' 0 0 (Value.array.inj h)
    | _ => cases h
  | .table es, w, path, path', h => by
    cases w with
    | table fs =>
      rw [redactValue, redactValue] at h
      exact eqExcept_of_redactEntries es fs path path' (Value.table.inj h)
    | _ => cases h
  | .string _, w, _, _, h | .integer _, w, _, _, h | .float _, w, _, _, h
  | .boolean _, w, _, _, h | .datetime _, w, _, _, h => by
    cases w <;> cases h
    rfl

theorem eqExcept_of_redactItems : ∀ (xs ys : List Value) (path path' : Text) (i j : Nat),
    (redactItems xs path i).1 = (redactItems ys path' j).1 → EqExceptItems SecretString xs ys
  | [], [], _, _, _, _, _ => trivial
  | [], _ :: _, _, _, _, _, h | _ :: _, [], _, _, _, _, h => by cases h
  | x :: xs, y :: ys, path, path', i, j, h => by
    rw [redactItems_cons, redactItems_cons] at h
    obtain ⟨hx, hxs⟩ := List.cons.inj h
    exact ⟨eqExcept_of_redactValue x y _ _ hx, eqExcept_of_redactItems xs ys _ _ _ _ hxs⟩

theorem eqExcept_of_redactEntries : ∀ (es fs : List (Text × Value)) (path path' : Text),
    (redactEntries es path).1 = (redactEntries fs path').1 → EqExceptEntries SecretString es fs
  | [], [], _, _, _ => trivial
  | [], _ :: _, _, _, h | _ :: _, [], _, _, h => by cases h
  | (k, v) :: es, (l, w) :: fs, path, path', h => by
    rw [redactEntries_cons, redactEntries_cons] at h
    obtain ⟨hkv, hrest⟩ := List.cons.inj h
    obtain ⟨rfl, hchild⟩ := Prod.mk.inj hkv
    refine ⟨rfl, ?_, eqExcept_of_redactEntries es fs path path' hrest⟩
    -- a masked string can only have come from a string
    have hstr : v.isString = w.isString := by
      rw [← isString_redactChild path k v, hchild, isString_redactChild]
    by_cases hs : isSensitive k ∧ v.isString
    · exact .inl ⟨hs.1, hs.2, hstr ▸ hs.2⟩
    · rw [redactChild, redactChild, ← hstr, if_neg hs, if_neg hs] at hchild
      exact .inr (eqExcept_of_redactValue v w _ _ hchild)

end

mutual

/-- A document without sensitive keys is left alone. -/
theorem redactValue_of_keysAvoid : ∀ (v : Value) (path : Text), v.KeysAvoid isSensitive →
    redactValue v path = (v, [])
  | .array items, path, h => by rw [redactValue, redactItems_of_avoid items path 0 h]
  | .table entries, path, h => by rw [redactValue, redactEntries_of_avoid entries path h]
  | .string _, _, _ | .integer _, _, _ | .float _, _, _ | .boolean _, _, _ | .datetime _, _, _ =>
    rfl

theorem redactItems_of_avoid : ∀ (items : List Value) (path : Text) (i : Nat),
    ItemsAvoid isSensitive items → redactItems items path i = (items, [])
  | [], _, _, _ => rfl
  | v :: items, path, i, h => by
    rw [redactItems_cons, redactValue_of_keysAvoid v _ h.1, redactItems_of_avoid items path _ h.2]
    rfl

theorem redactEntries_of_avoid : ∀ (entries : List (Text × Value)) (path : Text),
    EntriesAvoid isSensitive entries → redactEntries entries path = (entries, [])
  | [], _, _ => rfl
  | (k, v) :: entries, path, h => by
    obtain ⟨hk, hv, hrest⟩ := h
    have hplain : ¬ (isSensitive k ∧ v.isString) := by simp [hk]
    rw [redactEntries_cons, redactEntries_of_avoid entries path hrest, redactChild, if_neg hplain,
      redactValue_of_keysAvoid v _ hv]
    rfl

end

/-! ## The result -/

section
variable {D S : Type} (fromStr : Text → Except D Value) (toStringPretty : Value → Except S Text)

/-- The document prints, and what is printed parses to it again. -/
def RoundTrips (doc : Value) : Prop :=
  ∃ output, toStringPretty doc = .ok output ∧ fromStr output = .ok doc

variable {fromStr toStringPretty}

theorem redactToml_eq {input output : Text} {doc : Value} (hparse : fromStr input = .ok doc)
    (hprint : toStringPretty (redactValue doc []).1 = .ok output) :
    redactToml fromStr toStringPretty input = .ok (output, (redactValue doc []).2) := by
  simp only [redactToml, hparse, hprint]

/-- **Redaction hides exactly the strings directly under sensitive keys.** It returns the same
text and paths for two documents exactly when they differ in such strings only, and a document
without sensitive keys comes out as it went in. -/
theorem redactToml_hides_exactly_strings {input₁ input₂ : Text} {doc₁ doc₂ : Value}
    (hparse₁ : fromStr input₁ = .ok doc₁) (hparse₂ : fromStr input₂ = .ok doc₂)
    (hprint₁ : RoundTrips fromStr toStringPretty (redactValue doc₁ []).1)
    (hprint₂ : RoundTrips fromStr toStringPretty (redactValue doc₂ []).1) :
    ((∃ result, redactToml fromStr toStringPretty input₁ = .ok result ∧
        redactToml fromStr toStringPretty input₂ = .ok result) ↔
      doc₁.EqExcept SecretString doc₂) ∧
    (doc₁.KeysAvoid isSensitive →
      ∃ output, redactToml fromStr toStringPretty input₁ = .ok (output, []) ∧
        fromStr output = .ok doc₁) := by
  obtain ⟨output₁, hout₁, hback₁⟩ := hprint₁
  obtain ⟨output₂, hout₂, hback₂⟩ := hprint₂
  rw [redactToml_eq hparse₁ hout₁, redactToml_eq hparse₂ hout₂]
  refine ⟨⟨?_, ?_⟩, fun hno => ?_⟩
  · rintro ⟨result, h₁, h₂⟩
    obtain ⟨houtput, -⟩ := Prod.mk.inj (Except.ok.inj (h₁.trans h₂.symm))
    rw [houtput, hback₂] at hback₁
    exact eqExcept_of_redactValue doc₁ doc₂ [] [] (Except.ok.inj hback₁).symm
  · intro hsame
    have heq := redactValue_congr doc₁ doc₂ [] hsame
    rw [heq] at hout₁
    obtain rfl : output₁ = output₂ := Except.ok.inj (hout₁.symm.trans hout₂)
    exact ⟨_, rfl, by rw [heq]⟩
  · rw [redactValue_of_keysAvoid doc₁ [] hno] at hback₁ ⊢
    exact ⟨output₁, rfl, hback₁⟩

/-- Nothing of a file that does not parse is kept. -/
theorem capture_of_parse_error {raw : Text} {e : D} (h : fromStr raw = .error e) :
    ConfigSnapshot.capture fromStr toStringPretty raw = .error "config_parse_error"
      "failed to parse config: failed to parse TOML configuration" := by
  simp only [ConfigSnapshot.capture, redactToml, h, RedactError.message]
  rfl

end

/-- A document with one entry. -/
def tokenDoc (v : Value) : Value := .table [("token".toList, v)]

/-- Some files, and what they parse to. -/
def tokenFiles : List (Text × Value) :=
  [("token = \"a\"\n".toList, tokenDoc (.string ['a'])),
    ("token = \"b\"\n".toList, tokenDoc (.string ['b'])),
    ("token = \"***\"\n".toList, tokenDoc (.string mask)),
    ("token = 1\n".toList, tokenDoc (.integer 1)),
    ("token = 2\n".toList, tokenDoc (.integer 2))]

def tokenFromStr (input : Text) : Except Unit Value :=
  match tokenFiles.lookup input with
  | some doc => .ok doc
  | none => .error ()

def tokenToStringPretty : Value → Except Unit Text
  | .table [(key, .string text)] =>
    .ok (key ++ " = \"".toList ++ text ++ "\"\n".toList)
  | .table [(key, .integer i)] => .ok (key ++ " = ".toList ++ (toString i).toList ++ ['\n'])
  | _ => .error ()

theorem redactToml_hides_token :
    ∃ result, redactToml tokenFromStr tokenToStringPretty "token = \"a\"\n".toList = .ok result ∧
      redactToml tokenFromStr tokenToStringPretty "token = \"b\"\n".toList = .ok result := by
  have hback : ∀ text, RoundTrips tokenFromStr tokenToStringPretty
      (redactValue (tokenDoc (.string text)) []).1 :=
    fun _ => ⟨"token = \"***\"\n".toList, rfl, rfl⟩
  have ha : tokenFromStr "token = \"a\"\n".toList = .ok (tokenDoc (.string ['a'])) := rfl
  have hb : tokenFromStr "token = \"b\"\n".toList = .ok (tokenDoc (.string ['b'])) := rfl
  exact (redactToml_hides_exactly_strings ha hb (hback _) (hback _)).1.mpr
    ⟨rfl, .inl ⟨rfl, rfl, rfl⟩, trivial⟩

/-- A number under a sensitive key is sent in clear. -/
theorem integer_token_in_clear :
    (tokenDoc (.integer 1)).EqExcept UnderSensitive (tokenDoc (.integer 2)) ∧
    redactToml tokenFromStr tokenToStringPretty "token = 1\n".toList =
      .ok ("token = 1\n".toList, []) ∧
    redactToml tokenFromStr tokenToStringPretty "token = 2\n".toList =
      .ok ("token = 2\n".toList, []) :=
  ⟨⟨rfl, .inl rfl, trivial⟩, rfl, rfl⟩

end DoggyDns
