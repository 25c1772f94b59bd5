import DoggyDns.Observability.Profiles

/-!
# The dictionary's invariant

Tables only grow, so what resolved keeps resolving. `DictionaryBuilder.Inv` is
what every operation keeps of the five interning tables together: each map
agrees with its table, the zero values stay in front, and an entry refers only to
entries that are there.
-/

namespace DoggyDns.Profiles

open Intern

/-! ## Dictionaries that grow -/

/-- Every table of `d'` starts with the entries `d` has. -/
structure ProfilesDictionary.Grows (d d' : ProfilesDictionary) : Prop where
  mappings : d.mappingTable <+: d'.mappingTable
  links : d.linkTable <+: d'.linkTable
  strings : d.stringTable <+: d'.stringTable
  functions : d.functionTable <+: d'.functionTable
  locations : d.locationTable <+: d'.locationTable
  «stacks» : d.stackTable <+: d'.stackTable
  attributes : d.attributeTable <+: d'.attributeTable

namespace ProfilesDictionary

variable {d d' d'' : ProfilesDictionary}

theorem Grows.refl (d : ProfilesDictionary) : d.Grows d :=
  ⟨List.prefix_rfl, List.prefix_rfl, List.prefix_rfl, List.prefix_rfl, List.prefix_rfl,
    List.prefix_rfl, List.prefix_rfl⟩

theorem Grows.trans (h : d.Grows d') (h' : d'.Grows d'') : d.Grows d'' :=
  ⟨h.mappings.trans h'.mappings, h.links.trans h'.links, h.strings.trans h'.strings,
    h.functions.trans h'.functions, h.locations.trans h'.locations, h.stacks.trans h'.stacks,
    h.attributes.trans h'.attributes⟩

theorem Grows.resolveLine (h : d.Grows d') {line : Line} {r : ResolvedLine}
    (hr : d.resolveLine line = some r) : d'.resolveLine line = some r := by
  obtain ⟨function, hf, hr⟩ := Option.bind_eq_some_iff.mp hr
  obtain ⟨name, hn, hr⟩ := Option.bind_eq_some_iff.mp hr
  obtain ⟨systemName, hs, hr⟩ := Option.bind_eq_some_iff.mp hr
  obtain ⟨filename, hfile, hr⟩ := Option.bind_eq_some_iff.mp hr
  unfold ProfilesDictionary.resolveLine
  rw [Indexing.get_mono h.functions hf]
  dsimp only [bind, Option.bind_some]
  rw [Indexing.get_mono h.strings hn, Indexing.get_mono h.strings hs,
    Indexing.get_mono h.strings hfile]
  exact hr

theorem Grows.resolveFrame (h : d.Grows d') {index : Int32} {r : ResolvedFrame}
    (hr : d.resolveFrame index = some r) : d'.resolveFrame index = some r := by
  obtain ⟨location, hl, hr⟩ := Option.bind_eq_some_iff.mp hr
  obtain ⟨lines, hlines, hr⟩ := Option.bind_eq_some_iff.mp hr
  unfold ProfilesDictionary.resolveFrame
  rw [Indexing.get_mono h.locations hl]
  dsimp only [bind, Option.bind_some]
  rw [mapM_mono (fun _ _ => h.resolveLine) hlines]
  exact hr

theorem Grows.resolveStack (h : d.Grows d') {index : Int32} {r : List ResolvedFrame}
    (hr : d.resolveStack index = some r) : d'.resolveStack index = some r := by
  obtain ⟨stack, hs, hr⟩ := Option.bind_eq_some_iff.mp hr
  unfold ProfilesDictionary.resolveStack
  rw [Indexing.get_mono h.stacks hs]
  exact mapM_mono (fun _ _ => h.resolveFrame) hr

theorem Grows.resolveAttribute (h : d.Grows d') {index : Int32} {r : Text × Text}
    (hr : d.resolveAttribute index = some r) : d'.resolveAttribute index = some r := by
  obtain ⟨entry, ha, hr⟩ := Option.bind_eq_some_iff.mp hr
  obtain ⟨key, hk, hr⟩ := Option.bind_eq_some_iff.mp hr
  unfold ProfilesDictionary.resolveAttribute
  rw [Indexing.get_mono h.attributes ha]
  dsimp only [bind, Option.bind_some]
  rw [Indexing.get_mono h.strings hk]
  exact hr

theorem Grows.resolveSample (h : d.Grows d') {sample : Sample} {r : ResolvedSample}
    (hr : d.resolveSample sample = some r) : d'.resolveSample sample = some r := by
  obtain ⟨frames, hf, hr⟩ := Option.bind_eq_some_iff.mp hr
  obtain ⟨attributes, ha, hr⟩ := Option.bind_eq_some_iff.mp hr
  unfold ProfilesDictionary.resolveSample
  rw [h.resolveStack hf]
  dsimp only [bind, Option.bind_some]
  rw [mapM_mono (fun _ _ => h.resolveAttribute) ha]
  exact hr

/-- No table has outgrown its indices. -/
structure Fits (d : ProfilesDictionary) : Prop where
  strings : d.stringTable.length < 2 ^ 31
  functions : d.functionTable.length < 2 ^ 31
  locations : d.locationTable.length < 2 ^ 31
  «stacks» : d.stackTable.length < 2 ^ 31
  attributes : d.attributeTable.length < 2 ^ 31

theorem Grows.fits (h : d.Grows d') (h' : d'.Fits) : d.Fits :=
  ⟨Nat.lt_of_le_of_lt h.strings.length_le h'.strings,
    Nat.lt_of_le_of_lt h.functions.length_le h'.functions,
    Nat.lt_of_le_of_lt h.locations.length_le h'.locations,
    Nat.lt_of_le_of_lt h.stacks.length_le h'.stacks,
    Nat.lt_of_le_of_lt h.attributes.length_le h'.attributes⟩

/-- The index is one of the table's. -/
def InRange {α : Type} (table : List α) (index : Int32) : Prop :=
  (i32.get table index).isSome = true

theorem InRange.of_get {α : Type} {table : List α} {index : Int32} {a : α}
    (h : i32.get table index = some a) : InRange table index := by
  unfold InRange
  rw [h]
  rfl

/-- What resolves has its index in range. -/
theorem InRange.of_bind {α β : Type} {table : List α} {index : Int32} {f : α → Option β} {r : β}
    (h : (i32.get table index).bind f = some r) : InRange table index := by
  obtain ⟨a, ha, -⟩ := Option.bind_eq_some_iff.mp h
  exact .of_get ha

theorem InRange.mono {α : Type} {table table' : List α} {index : Int32} (h : InRange table index)
    (hle : table <+: table') : InRange table' index := by
  obtain ⟨a, ha⟩ := Option.isSome_iff_exists.mp h
  unfold InRange
  rw [Indexing.get_mono hle ha]
  rfl

section
variable (d)

def FunctionIn (f : Function) : Prop :=
  InRange d.stringTable f.nameStrindex ∧ InRange d.stringTable f.systemNameStrindex ∧
    InRange d.stringTable f.filenameStrindex

def LocationIn (l : Location) : Prop :=
  InRange d.mappingTable l.mappingIndex ∧
    (∀ line ∈ l.lines, InRange d.functionTable line.functionIndex) ∧
    ∀ i ∈ l.attributeIndices, InRange d.attributeTable i

def StackIn (s : Stack) : Prop := ∀ i ∈ s.locationIndices, InRange d.locationTable i

def AttributeIn (a : KeyValueAndUnit) : Prop :=
  InRange d.stringTable a.keyStrindex ∧ InRange d.stringTable a.unitStrindex

def MappingIn (m : Mapping) : Prop :=
  InRange d.stringTable m.filenameStrindex ∧
    ∀ i ∈ m.attributeIndices, InRange d.attributeTable i

/-- Every index in an entry of a table is in range of the table it is for. -/
structure Closed : Prop where
  functions : ∀ f ∈ d.functionTable, d.FunctionIn f
  locations : ∀ l ∈ d.locationTable, d.LocationIn l
  «stacks» : ∀ s ∈ d.stackTable, d.StackIn s
  attributes : ∀ a ∈ d.attributeTable, d.AttributeIn a
  mappings : ∀ m ∈ d.mappingTable, d.MappingIn m

end

/-- Growing tables stay closed when their new entries are. -/
theorem Closed.grow (hc : d.Closed) (h : d.Grows d')
    (hf : ∀ f ∈ d'.functionTable, f ∈ d.functionTable ∨ d'.FunctionIn f)
    (hl : ∀ l ∈ d'.locationTable, l ∈ d.locationTable ∨ d'.LocationIn l)
    (hs : ∀ s ∈ d'.stackTable, s ∈ d.stackTable ∨ d'.StackIn s)
    (ha : ∀ a ∈ d'.attributeTable, a ∈ d.attributeTable ∨ d'.AttributeIn a)
    (hm : d'.mappingTable = d.mappingTable) : d'.Closed where
  functions f hmem := by
    rcases hf f hmem with hold | hnew
    · obtain ⟨hname, hsystem, hfile⟩ := hc.functions f hold
      exact ⟨hname.mono h.strings, hsystem.mono h.strings, hfile.mono h.strings⟩
    · exact hnew
  locations l hmem := by
    rcases hl l hmem with hold | hnew
    · obtain ⟨hmap, hlines, hattrs⟩ := hc.locations l hold
      exact ⟨hmap.mono h.mappings, fun line hline => (hlines line hline).mono h.functions,
        fun i hi => (hattrs i hi).mono h.attributes⟩
    · exact hnew
  «stacks» s hmem := by
    rcases hs s hmem with hold | hnew
    · exact fun i hi => (hc.stacks s hold i hi).mono h.locations
    · exact hnew
  attributes a hmem := by
    rcases ha a hmem with hold | hnew
    · obtain ⟨hkey, hunit⟩ := hc.attributes a hold
      exact ⟨hkey.mono h.strings, hunit.mono h.strings⟩
    · exact hnew
  mappings m hmem := by
    obtain ⟨hfile, hattrs⟩ := hc.mappings m (hm ▸ hmem)
    exact ⟨hfile.mono h.strings, fun i hi => (hattrs i hi).mono h.attributes⟩

end ProfilesDictionary

/-! ## The tables agree -/

def functionOf (key : Int32 × Int32 × Int32) : Function := ⟨key.1, key.2.1, key.2.2, 0⟩

def locationOf (key : UInt64 × List (Int32 × Int64)) : Location :=
  ⟨0, key.1, key.2.map fun (functionIndex, line) => ⟨functionIndex, line, 0⟩, []⟩

def attributeOf (key : Int32 × Text) : KeyValueAndUnit := ⟨key.1, some (.stringValue key.2), 0⟩

theorem functionOf_injective : Function.Injective functionOf := by
  rintro ⟨a, b, c⟩ ⟨a', b', c'⟩ h
  cases h
  rfl

theorem locationOf_injective : Function.Injective locationOf := by
  rintro ⟨address, lines⟩ ⟨address', lines'⟩ h
  injection h with _ haddress hlines _
  have hline : Function.Injective fun line : Int32 × Int64 =>
      (⟨line.1, line.2, 0⟩ : Line) := by
    rintro ⟨f, l⟩ ⟨f', l'⟩ h
    cases h
    rfl
  exact Prod.ext haddress (List.map_injective_iff.mpr hline hlines)

theorem stackMk_injective : Function.Injective Stack.mk := fun _ _ h => Stack.mk.inj h

theorem attributeOf_injective : Function.Injective attributeOf := by
  rintro ⟨key, value⟩ ⟨key', value'⟩ h
  cases h
  rfl

namespace DictionaryBuilder

/-- Maps and tables agree, the zero values are in front, and no index leads out of a table. -/
structure Inv (b : DictionaryBuilder) : Prop where
  strings : b.strings.Ok i32 id
  functions : b.functions.Ok i32 functionOf
  locations : b.locations.Ok i32 locationOf
  «stacks» : b.stacks.Ok i32 Stack.mk
  attributes : b.attributes.Ok i32 attributeOf
  zero : new.build.Grows b.build
  closed : b.build.Fits → b.build.Closed

theorem new_inv : new.Inv where
  strings := Table.Ok.intern (t := ⟨[], []⟩) (Table.Ok.front i32 id (Nat.zero_le 1)) []
  functions := Table.Ok.front i32 functionOf (Nat.le_refl 1)
  locations := Table.Ok.front i32 locationOf (Nat.le_refl 1)
  «stacks» := Table.Ok.front i32 Stack.mk (Nat.le_refl 1)
  attributes := Table.Ok.front i32 attributeOf (Nat.le_refl 1)
  zero := .refl _
  closed _ := by
    have hzero {α : Type} (a : α) : ProfilesDictionary.InRange [a] 0 := rfl
    refine ⟨fun f hf => ?_, fun l hl => ?_, fun s hs => ?_, fun a ha => ?_, fun m hm => ?_⟩
    · obtain rfl := List.mem_singleton.mp hf
      exact ⟨hzero _, hzero _, hzero _⟩
    · obtain rfl := List.mem_singleton.mp hl
      exact ⟨hzero _, nofun, nofun⟩
    · obtain rfl := List.mem_singleton.mp hs
      exact nofun
    · obtain rfl := List.mem_singleton.mp ha
      exact ⟨hzero _, hzero _⟩
    · obtain rfl := List.mem_singleton.mp hm
      exact ⟨hzero _, nofun⟩

/-- What running an operation on `b` yields: the invariant, tables that only grew, and `P` of the
result as long as nothing has outgrown its indices. -/
structure Spec {α : Type} (b : DictionaryBuilder) (P : ProfilesDictionary → α → Prop)
    (r : α × DictionaryBuilder) : Prop where
  inv : r.2.Inv
  grows : b.build.Grows r.2.build
  holds : r.2.build.Fits → P r.2.build r.1

variable {b : DictionaryBuilder} {α β : Type}

theorem Spec.pure {P : ProfilesDictionary → α → Prop} (h : b.Inv) {a : α} (ha : P b.build a) :
    Spec b P (a, b) :=
  ⟨h, .refl _, fun _ => ha⟩

/-- One operation after another; what the first yields keeps holding in the second's tables. -/
theorem Spec.then {P : ProfilesDictionary → α → Prop} {Q R : ProfilesDictionary → β → Prop}
    {r : α × DictionaryBuilder} {r' : β × DictionaryBuilder} (h : Spec b P r) (h' : Spec r.2 Q r')
    (hmono : ∀ d d', d.Grows d' → P d r.1 → P d' r.1)
    (hR : ∀ d, P d r.1 → Q d r'.1 → R d r'.1) : Spec b R r' :=
  ⟨h'.inv, h.grows.trans h'.grows, fun hfits =>
    hR _ (hmono _ _ h'.grows (h.holds (h'.grows.fits hfits))) (h'.holds hfits)⟩

/-! ## Interning -/

theorem intern_spec (h : b.Inv) (value : Text) :
    Spec b (fun d i => i32.get d.stringTable i = some value) (b.intern value) := by
  have hgrows : b.build.Grows (b.intern value).2.build :=
    { ProfilesDictionary.Grows.refl b.build with strings := Table.intern_grows value value }
  refine ⟨{ h with
    strings := h.strings.intern value
    zero := h.zero.trans hgrows
    closed := fun hfits => ?_ }, hgrows, fun hfits => ?_⟩
  · exact (h.closed (hgrows.fits hfits)).grow hgrows (fun _ => .inl) (fun _ => .inl)
      (fun _ => .inl) (fun _ => .inl) rfl
  · exact h.strings.get_intern value (Nat.le_of_lt hfits.strings)

theorem internFunction_spec (h : b.Inv) (key : Int32 × Int32 × Int32)
    (hkey : b.build.Fits → b.build.FunctionIn (functionOf key)) :
    Spec b (fun d i => i32.get d.functionTable i = some (functionOf key))
      ((b.functions.intern i32 key (functionOf key)).1,
        { b with functions := (b.functions.intern i32 key (functionOf key)).2 }) := by
  have hgrows : b.build.Grows
      { b with functions := (b.functions.intern i32 key (functionOf key)).2 }.build :=
    { ProfilesDictionary.Grows.refl b.build with functions := Table.intern_grows key _ }
  refine ⟨{ h with
    functions := h.functions.intern key
    zero := h.zero.trans hgrows
    closed := fun hfits => ?_ }, hgrows, fun hfits => ?_⟩
  · have hnew := hkey (hgrows.fits hfits)
    exact (h.closed (hgrows.fits hfits)).grow hgrows (Table.forall_mem_intern hnew)
      (fun _ => .inl) (fun _ => .inl) (fun _ => .inl) rfl
  · exact h.functions.get_intern key (Nat.le_of_lt hfits.functions)

theorem internLocation_spec (h : b.Inv) (key : UInt64 × List (Int32 × Int64))
    (hkey : b.build.Fits → b.build.LocationIn (locationOf key)) :
    Spec b (fun d i => i32.get d.locationTable i = some (locationOf key))
      ((b.locations.intern i32 key (locationOf key)).1,
        { b with locations := (b.locations.intern i32 key (locationOf key)).2 }) := by
  have hgrows : b.build.Grows
      { b with locations := (b.locations.intern i32 key (locationOf key)).2 }.build :=
    { ProfilesDictionary.Grows.refl b.build with locations := Table.intern_grows key _ }
  refine ⟨{ h with
    locations := h.locations.intern key
    zero := h.zero.trans hgrows
    closed := fun hfits => ?_ }, hgrows, fun hfits => ?_⟩
  · have hnew := hkey (hgrows.fits hfits)
    exact (h.closed (hgrows.fits hfits)).grow hgrows (fun _ => .inl)
      (Table.forall_mem_intern hnew) (fun _ => .inl) (fun _ => .inl) rfl
  · exact h.locations.get_intern key (Nat.le_of_lt hfits.locations)

theorem internStack_spec (h : b.Inv) (key : List Int32)
    (hkey : b.build.Fits → b.build.StackIn ⟨key⟩) :
    Spec b (fun d i => i32.get d.stackTable i = some ⟨key⟩)
      ((b.stacks.intern i32 key ⟨key⟩).1,
        { b with «stacks» := (b.stacks.intern i32 key ⟨key⟩).2 }) := by
  have hgrows : b.build.Grows { b with «stacks» := (b.stacks.intern i32 key ⟨key⟩).2 }.build :=
    { ProfilesDictionary.Grows.refl b.build with «stacks» := Table.intern_grows key _ }
  refine ⟨{ h with
    «stacks» := h.stacks.intern key
    zero := h.zero.trans hgrows
    closed := fun hfits => ?_ }, hgrows, fun hfits => ?_⟩
  · have hnew := hkey (hgrows.fits hfits)
    exact (h.closed (hgrows.fits hfits)).grow hgrows (fun _ => .inl) (fun _ => .inl)
      (Table.forall_mem_intern hnew) (fun _ => .inl) rfl
  · exact h.stacks.get_intern key (Nat.le_of_lt hfits.stacks)

theorem internAttribute_spec (h : b.Inv) (key : Int32 × Text)
    (hkey : b.build.Fits → b.build.AttributeIn (attributeOf key)) :
    Spec b (fun d i => i32.get d.attributeTable i = some (attributeOf key))
      ((b.attributes.intern i32 key (attributeOf key)).1,
        { b with attributes := (b.attributes.intern i32 key (attributeOf key)).2 }) := by
  have hgrows : b.build.Grows
      { b with attributes := (b.attributes.intern i32 key (attributeOf key)).2 }.build :=
    { ProfilesDictionary.Grows.refl b.build with attributes := Table.intern_grows key _ }
  refine ⟨{ h with
    attributes := h.attributes.intern key
    zero := h.zero.trans hgrows
    closed := fun hfits => ?_ }, hgrows, fun hfits => ?_⟩
  · have hnew := hkey (hgrows.fits hfits)
    exact (h.closed (hgrows.fits hfits)).grow hgrows (fun _ => .inl) (fun _ => .inl)
      (fun _ => .inl) (Table.forall_mem_intern hnew) rfl
  · exact h.attributes.get_intern key (Nat.le_of_lt hfits.attributes)

end DictionaryBuilder

end DoggyDns.Profiles
