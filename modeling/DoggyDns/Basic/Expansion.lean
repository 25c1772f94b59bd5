import DoggyDns.Basic.Env
import DoggyDns.Lib.Utf8

/-!
# Expansion by byte offset

`expand_env` finds the markers of a reference at byte offsets and slices the
text there, and a slice that starts or ends inside a character panics. The
scan never does: it is the scan over characters. So a document expands exactly
when each of its strings, read from the left, is literals and references to
variables that are set, and then nothing but the strings changes.
-/

namespace DoggyDns

open Toml

/-! ## The scan -/

/-- The number of bytes of a text. -/
def byteLen (t : Text) : Nat := (Utf8.encode t).length

theorem slice_length {t u : Text} {start : Nat} (h : Utf8.slice t start (byteLen t) = some u) :
    start ≤ byteLen t ∧ byteLen u = byteLen t - start := by
  obtain ⟨hle, hu⟩ := Utf8.encode_of_slice h
  refine ⟨hle, ?_⟩
  unfold byteLen
  rw [hu, List.length_drop, List.length_take]
  exact congrArg (· - start) (Nat.min_self _)

section
variable (lookup : Text → Option Text)

/-- `expand_env` on the bytes; `none` is the panic of a slice. -/
def expandScan (output rest : Text) : Option (Except Error Text) :=
  match Utf8.find opening rest with
  | none => some (.ok (output ++ rest))
  | some start =>
    match Utf8.slice rest 0 start with
    | none => none
    | some literal =>
      match _h : Utf8.slice rest (start + 2) (byteLen rest) with
      | none => none
      | some after =>
        match Utf8.find ['\x7d'] after with
        | none => some (.error [UNTERMINATED])
        | some stop =>
          match Utf8.slice after 0 stop with
          | none => none
          | some name =>
            if name.isEmpty then some (.error ["empty environment reference"])
            else
              match lookup name with
              | none =>
                some (.error ["environment variable " ++ String.ofList name ++ " is not set"])
              | some resolved =>
                match _h' : Utf8.slice after (stop + 1) (byteLen after) with
                | none => none
                | some rest' => expandScan (output ++ literal ++ resolved) rest'
  termination_by byteLen rest
  decreasing_by
    have hafter := slice_length _h
    have hrest := slice_length _h'
    omega

end

/-! ## The scan over characters -/

section
variable {t literal after before : Text}

theorem map_byteLen_cons (c : Char) (split : Option (Text × Text)) :
    (split.map fun p => byteLen p.1).map (· + (String.utf8EncodeChar c).length) =
      (split.map fun (before, after) => (c :: before, after)).map fun p => byteLen p.1 := by
  rw [Option.map_map, Option.map_map]
  refine congrArg (Option.map · split) (funext fun p => ?_)
  show byteLen p.1 + _ = (Utf8.encode (c :: p.1)).length
  rw [Utf8.encode_cons, List.length_append, Nat.add_comm]
  rfl

theorem find_opening : Utf8.find opening t = (findReference t).map fun p => byteLen p.1 := by
  have hne : opening ≠ [] := List.cons_ne_nil _ _
  induction t with
  | nil => exact Utf8.find_nil hne
  | cons c rest ih =>
    rw [Utf8.find_cons hne, findReference, if_congr opening_prefix_iff rfl rfl, ih]
    split
    · rfl
    · exact map_byteLen_cons c (findReference rest)

theorem find_char (sep : Char) :
    Utf8.find [sep] t = (splitOnce sep t).map fun p => byteLen p.1 := by
  have hne : [sep] ≠ [] := List.cons_ne_nil _ _
  induction t with
  | nil => exact Utf8.find_nil hne
  | cons c rest ih =>
    have hiff : [sep] <+: c :: rest ↔ c = sep := by
      rw [List.cons_prefix_cons, and_iff_left List.nil_prefix, eq_comm]
    rw [Utf8.find_cons hne, splitOnce, if_congr hiff rfl rfl, ih]
    split
    · rfl
    · exact map_byteLen_cons c (splitOnce sep rest)

theorem slice_front (t u : Text) : Utf8.slice (t ++ u) 0 (byteLen t) = some t :=
  Utf8.slice_append [] t u

/-- Behind a marker of ASCII characters. -/
theorem slice_behind (t marker u : Text) (h : byteLen marker = marker.length) :
    Utf8.slice (t ++ marker ++ u) (byteLen t + marker.length) (byteLen (t ++ marker ++ u)) =
      some u := by
  have hslice := Utf8.slice_append (t ++ marker) u []
  rw [List.append_nil] at hslice
  rw [← h]
  unfold byteLen
  rwa [← List.length_append, ← Utf8.encode_append]

end

section
variable {lookup : Text → Option Text} {output rest : Text}

theorem expandScan_none (h : findReference rest = none) :
    expandScan lookup output rest = some (.ok (output ++ rest)) := by
  rw [expandScan, find_opening, h]
  rfl

/-- One round of the loop: both slices around the opening are made. -/
theorem expandScan_some {literal after : Text} (h : findReference rest = some (literal, after)) :
    expandScan lookup output rest =
      match splitOnce '\x7d' after with
      | none => some (.error [UNTERMINATED])
      | some (name, rest') =>
        if name.isEmpty then some (.error ["empty environment reference"])
        else
          match lookup name with
          | none => some (.error ["environment variable " ++ String.ofList name ++ " is not set"])
          | some resolved => expandScan lookup (output ++ literal ++ resolved) rest' := by
  obtain ⟨hrest, -⟩ := findReference_eq_some.mp h
  have hliteral : Utf8.slice rest 0 (byteLen literal) = some literal := by
    rw [hrest, List.append_assoc]
    exact slice_front literal _
  have hafter : Utf8.slice rest (byteLen literal + 2) (byteLen rest) = some after := by
    rw [hrest]
    exact slice_behind literal opening after rfl
  rw [expandScan, find_opening, h]
  simp only [Option.map_some, hliteral]
  split
  next h' => cases hafter.symm.trans h'
  next after' h' =>
    obtain rfl := Option.some.inj (hafter.symm.trans h')
    rw [find_char]
    cases hb : splitOnce '\x7d' after with
    | none => rfl
    | some q =>
      obtain ⟨name, rest'⟩ := q
      obtain ⟨hsplit, -⟩ := splitOnce_eq_some.mp hb
      have hname : Utf8.slice after 0 (byteLen name) = some name := by
        rw [hsplit]
        exact slice_front name _
      have hbehind : Utf8.slice after (byteLen name + 1) (byteLen after) = some rest' := by
        rw [hsplit, List.append_cons]
        exact slice_behind name ['\x7d'] rest' rfl
      simp only [Option.map_some, hname]
      split
      next => rfl
      next =>
        split
        next => rfl
        next =>
          split
          next h'' => cases hbehind.symm.trans h''
          next h'' =>
            obtain rfl := Option.some.inj (hbehind.symm.trans h'')
            rfl

end

/-- **No slice cuts a character**, and the scan by offset is the scan over characters. -/
theorem expandScan_eq (lookup : Text → Option Text) (output rest : Text) :
    expandScan lookup output rest = some (expandLoop lookup output rest) := by
  induction hn : rest.length using Nat.strongRecOn generalizing output rest with
  | _ n ih =>
    cases hf : findReference rest with
    | none => rw [expandScan_none hf, expandLoop_none hf]
    | some p =>
      obtain ⟨literal, after⟩ := p
      rw [expandScan_some hf, expandLoop_some hf]
      cases hb : splitOnce '\x7d' after with
      | none => rfl
      | some q =>
        obtain ⟨name, rest'⟩ := q
        have hlt : rest'.length < n :=
          hn ▸ Nat.lt_trans (splitOnce_length hb) (findReference_length hf)
        dsimp only
        split
        next => rfl
        next =>
          cases lookup name with
          | none => rfl
          | some resolved => exact ih _ hlt _ _ rfl

/-! ## Documents -/

mutual

/-- The strings of a document. -/
def Toml.Value.strings : Value → List Text
  | .string text => [text]
  | .array items => Toml.itemsStrings items
  | .table entries => Toml.entriesStrings entries
  | _ => []
  termination_by structural v => v

def Toml.itemsStrings : List Value → List Text
  | [] => []
  | item :: items => item.strings ++ Toml.itemsStrings items
  termination_by structural items => items

def Toml.entriesStrings : List (Text × Value) → List Text
  | [] => []
  | (_, child) :: entries => child.strings ++ Toml.entriesStrings entries
  termination_by structural entries => entries

end

section
variable {lookup : Text → Option Text}

/-- The text is literals and references to variables that are set. -/
def Expandable (lookup : Text → Option Text) (t : Text) : Prop :=
  ∃ segments, Splits t segments ∧ ∀ name, .reference name ∈ segments → (lookup name).isSome

/-- The text is the literals and the values of the variables put together. -/
def Expanded (lookup : Text → Option Text) (t u : Text) : Prop :=
  ∃ segments, Splits t segments ∧ render lookup segments = some u

theorem render_isSome_iff {segments : List Segment} :
    (∃ u, render lookup segments = some u) ↔
      ∀ name, .reference name ∈ segments → (lookup name).isSome := by
  induction segments with
  | nil => exact iff_of_true ⟨[], rfl⟩ fun _ hname => absurd hname List.not_mem_nil
  | cons segment segments ih =>
    cases segment with
    | literal t =>
      have hmem : ∀ name, .reference name ∈ .literal t :: segments ↔
          .reference name ∈ segments := by
        intro name
        rw [List.mem_cons, or_iff_right Segment.noConfusion]
      simp only [hmem, ← ih, render, Option.map_eq_some_iff]
      constructor
      · rintro ⟨_, rest, hrest, -⟩
        exact ⟨rest, hrest⟩
      · rintro ⟨rest, hrest⟩
        exact ⟨t ++ rest, rest, hrest, rfl⟩
    | reference x =>
      constructor
      · rintro ⟨u, hu⟩ name hname
        obtain ⟨value, hvalue, hu⟩ := Option.bind_eq_some_iff.mp hu
        obtain ⟨rest, hrest, -⟩ := Option.bind_eq_some_iff.mp hu
        rcases List.mem_cons.mp hname with heq | hname
        · cases heq
          exact Option.isSome_of_eq_some hvalue
        · exact ih.mp ⟨rest, hrest⟩ name hname
      · intro hset
        obtain ⟨value, hvalue⟩ := Option.isSome_iff_exists.mp (hset x List.mem_cons_self)
        obtain ⟨rest, hrest⟩ := ih.mpr fun name hname => hset name (List.mem_cons_of_mem _ hname)
        refine ⟨value ++ rest, ?_⟩
        rw [render, hvalue, hrest]
        rfl

theorem expandable_iff {t : Text} : Expandable lookup t ↔ ∃ u, expandEnv lookup t = .ok u := by
  simp only [expandEnv_eq_ok]
  constructor
  · rintro ⟨segments, hs, hset⟩
    obtain ⟨u, hu⟩ := render_isSome_iff.mpr hset
    exact ⟨u, segments, hs, hu⟩
  · rintro ⟨u, segments, hs, hu⟩
    exact ⟨segments, hs, render_isSome_iff.mp ⟨u, hu⟩⟩

mutual

/-- A document expands when its strings do. -/
theorem expandValue_of_strings : ∀ (v : Value) (path : Text),
    (∀ t ∈ v.strings, ∃ u, expandEnv lookup t = .ok u) → ∃ w, expandValue lookup v path = .ok w
  | .string t, path, h => by
    obtain ⟨u, hu⟩ := h t (List.mem_singleton_self t)
    exact ⟨.string u, by rw [expandValue, context_eq_ok.mpr hu]; rfl⟩
  | .array items, path, h => by
    obtain ⟨items', hi⟩ := expandItems_of_strings items path 0 h
    exact ⟨.array items', by rw [expandValue, hi]; rfl⟩
  | .table entries, path, h => by
    obtain ⟨entries', he⟩ := expandEntries_of_strings entries path h
    exact ⟨.table entries', by rw [expandValue, he]; rfl⟩
  | .integer _, _, _ | .float _, _, _ | .boolean _, _, _ | .datetime _, _, _ => ⟨_, rfl⟩

theorem expandItems_of_strings : ∀ (items : List Value) (path : Text) (i : Nat),
    (∀ t ∈ Toml.itemsStrings items, ∃ u, expandEnv lookup t = .ok u) →
      ∃ items', expandItems lookup items path i = .ok items'
  | [], _, _, _ => ⟨[], rfl⟩
  | item :: items, path, i, h => by
    obtain ⟨hitem, hitems⟩ := List.forall_mem_append.mp h
    obtain ⟨item', hi⟩ := expandValue_of_strings item (itemPath path i) hitem
    obtain ⟨items', his⟩ := expandItems_of_strings items path (i + 1) hitems
    refine ⟨item' :: items', ?_⟩
    rw [expandItems, hi, his]
    rfl

theorem expandEntries_of_strings : ∀ (entries : List (Text × Value)) (path : Text),
    (∀ t ∈ Toml.entriesStrings entries, ∃ u, expandEnv lookup t = .ok u) →
      ∃ entries', expandEntries lookup entries path = .ok entries'
  | [], _, _ => ⟨[], rfl⟩
  | (key, child) :: entries, path, h => by
    obtain ⟨hchild, hentries⟩ := List.forall_mem_append.mp h
    obtain ⟨child', hc⟩ := expandValue_of_strings child (childPath path key) hchild
    obtain ⟨entries', hes⟩ := expandEntries_of_strings entries path hentries
    refine ⟨(key, child') :: entries', ?_⟩
    rw [expandEntries, hc, hes]
    rfl

end

section
variable {R : Text → Text → Prop}

mutual

theorem exists_of_stringsRel : ∀ (v w : Value), v.StringsRel R w → ∀ t ∈ v.strings, ∃ u, R t u
  | .string t, w, h => by
    cases w with
    | string u =>
      intro t' ht
      obtain rfl := List.mem_singleton.mp ht
      exact ⟨u, h⟩
    | _ => cases h
  | .array items, w, h => by
    cases w with
    | array items' => exact exists_of_itemsRel items items' h
    | _ => cases h
  | .table entries, w, h => by
    cases w with
    | table entries' => exact exists_of_entriesRel entries entries' h
    | _ => cases h
  | .integer _, _, _ | .float _, _, _ | .boolean _, _, _ | .datetime _, _, _ => nofun

theorem exists_of_itemsRel : ∀ (xs ys : List Value), ItemsRel R xs ys →
    ∀ t ∈ Toml.itemsStrings xs, ∃ u, R t u
  | [], _, _ => nofun
  | _ :: _, [], h => h.elim
  | x :: xs, y :: ys, h =>
    List.forall_mem_append.mpr ⟨exists_of_stringsRel x y h.1, exists_of_itemsRel xs ys h.2⟩

theorem exists_of_entriesRel : ∀ (es fs : List (Text × Value)), EntriesRel R es fs →
    ∀ t ∈ Toml.entriesStrings es, ∃ u, R t u
  | [], _, _ => nofun
  | _ :: _, [], h => h.elim
  | (_, v) :: es, (_, w) :: fs, h =>
    List.forall_mem_append.mpr
      ⟨exists_of_stringsRel v w h.2.1, exists_of_entriesRel es fs h.2.2⟩

end

end

/-- **What expanding the environment references of a document does.** It succeeds exactly when
every string is literals and set references; the result differs in its strings only, each of them
the literals and the looked-up values put together; and the scan comes to its end without cutting
a character. -/
theorem expandEnvInValue_exact (v : Value) :
    ((∃ w, expandEnvInValue lookup v = .ok w) ↔ ∀ t ∈ v.strings, Expandable lookup t) ∧
    (∀ w, expandEnvInValue lookup v = .ok w → v.StringsRel (Expanded lookup) w) ∧
    ∀ t, expandScan lookup [] t = some (expandEnv lookup t) := by
  have hexpanded : (fun t u => expandEnv lookup t = .ok u) = Expanded lookup := by
    funext t u
    exact propext expandEnv_eq_ok
  refine ⟨?_, fun w hw => ?_, fun t => expandScan_eq lookup [] t⟩
  · simp only [expandable_iff]
    constructor
    · rintro ⟨w, hw⟩
      exact exists_of_stringsRel v w (stringsRel_of_expandValue v w [] hw)
    · intro hall
      exact expandValue_of_strings v [] hall
  · rw [← hexpanded]
    exact stringsRel_of_expandValue v w [] hw

end

end DoggyDns
