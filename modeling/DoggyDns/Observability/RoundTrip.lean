import DoggyDns.Observability.Dictionary

/-!
# Profiles come back

Operation by operation, what the indices a `DictionaryBuilder` hands out resolve
to, up to the whole request: its samples resolve to the collected ones.
-/

namespace DoggyDns.Profiles

open Intern

/-! ## Operation by operation -/

namespace DictionaryBuilder

variable {b : DictionaryBuilder}

theorem function_spec (h : b.Inv) (symbol : ProfileSymbol) :
    Spec b (fun d i => ∀ line, d.resolveLine ⟨i, line, 0⟩ =
        some ⟨symbol.name, symbol.systemName, symbol.filename, line⟩)
      (b.function symbol) := by
  unfold function
  have hname := intern_spec h symbol.name
  generalize b.intern symbol.name = r at hname ⊢
  obtain ⟨name, b₁⟩ := r
  have hsystem := intern_spec hname.inv symbol.systemName
  dsimp only at hsystem ⊢
  generalize b₁.intern symbol.systemName = r at hsystem ⊢
  obtain ⟨systemName, b₂⟩ := r
  have hfile := intern_spec hsystem.inv symbol.filename
  dsimp only at hfile ⊢
  generalize b₂.intern symbol.filename = r at hfile ⊢
  obtain ⟨filename, b₃⟩ := r
  have htwo : Spec b (fun d i => i32.get d.stringTable name = some symbol.name ∧
      i32.get d.stringTable i = some symbol.systemName) (systemName, b₂) :=
    hname.then hsystem (fun _ _ hg => Indexing.get_mono hg.strings) fun _ => And.intro
  have hthree : Spec b (fun d i => (i32.get d.stringTable name = some symbol.name ∧
      i32.get d.stringTable systemName = some symbol.systemName) ∧
      i32.get d.stringTable i = some symbol.filename) (filename, b₃) :=
    htwo.then hfile
      (fun _ _ hg hp => ⟨Indexing.get_mono hg.strings hp.1, Indexing.get_mono hg.strings hp.2⟩)
      fun _ => And.intro
  have hfunction := internFunction_spec hfile.inv (name, systemName, filename) fun hfits => by
    obtain ⟨⟨hn, hs⟩, hf⟩ := hthree.holds hfits
    exact ⟨.of_get hn, .of_get hs, .of_get hf⟩
  refine hthree.then hfunction
    (fun _ _ hg hp => ⟨⟨Indexing.get_mono hg.strings hp.1.1, Indexing.get_mono hg.strings hp.1.2⟩,
      Indexing.get_mono hg.strings hp.2⟩) ?_
  rintro d ⟨⟨hn, hs⟩, hf⟩ hget line
  unfold ProfilesDictionary.resolveLine
  rw [hget]
  dsimp only [bind, Option.bind_some, functionOf]
  rw [hn, hs, hf]
  rfl

/-- The key of a frame's lines tells the lines. -/
theorem lines_eq (symbols : List ProfileSymbol) :
    (b.lines symbols).1.1 =
      (b.lines symbols).1.2.map fun (functionIndex, line) => ⟨functionIndex, line, 0⟩ := by
  induction symbols generalizing b with
  | nil => rfl
  | cons symbol symbols ih => exact congrArg _ ih

theorem lines_spec (h : b.Inv) (symbols : List ProfileSymbol) :
    Spec b (fun d r => r.1.mapM d.resolveLine = some (symbols.map ProfileSymbol.resolved))
      (b.lines symbols) := by
  induction symbols generalizing b with
  | nil => exact .pure h rfl
  | cons symbol symbols ih =>
    unfold lines
    have hfunction := function_spec h symbol
    generalize b.function symbol = r at hfunction ⊢
    obtain ⟨functionIndex, b₁⟩ := r
    have hrest := ih hfunction.inv
    dsimp only at hrest ⊢
    generalize b₁.lines symbols = r at hrest ⊢
    obtain ⟨⟨rest, restKey⟩, b₂⟩ := r
    refine ⟨hrest.inv, hfunction.grows.trans hrest.grows, fun hfits => ?_⟩
    have hline := hrest.grows.resolveLine
      (hfunction.holds (hrest.grows.fits hfits) symbol.line)
    have hlines := hrest.holds hfits
    dsimp only at hlines hline ⊢
    rw [List.mapM_cons, hline, hlines]
    rfl

theorem location_spec (h : b.Inv) (frame : ProfileFrame) :
    Spec b (fun d i => i.toList.mapM d.resolveFrame =
        some (([frame].filter ProfileFrame.hasSymbols).map ProfileFrame.resolved))
      (b.location frame) := by
  unfold location
  split
  next hempty =>
    refine .pure h ?_
    rw [List.filter_cons_of_neg (by simp [ProfileFrame.hasSymbols, hempty])]
    rfl
  next hsymbols =>
    rw [List.filter_cons_of_pos (by simpa [ProfileFrame.hasSymbols] using hsymbols)]
    have hlines := lines_spec h frame.symbols
    have heq : (b.lines frame.symbols).1.1 = _ := lines_eq frame.symbols
    generalize b.lines frame.symbols = r at hlines heq ⊢
    obtain ⟨⟨lines, lineKey⟩, b₁⟩ := r
    dsimp only at hlines heq ⊢
    subst heq
    have hlocation := internLocation_spec hlines.inv
      ((frame.symbols.head?.map (·.address)).getD 0, lineKey) fun hfits => by
        refine ⟨.of_get (a := {}) rfl, fun line hline => ?_, nofun⟩
        obtain ⟨r, hr⟩ := exists_of_mapM (hlines.holds hfits) line hline
        exact .of_bind hr
    have hframe := hlines.then (R := fun d i => d.resolveFrame i = some frame.resolved) hlocation
      (fun _ _ hg => mapM_mono fun _ _ => hg.resolveLine)
      fun d hlines hget => by
        unfold ProfilesDictionary.resolveFrame
        rw [hget]
        dsimp only [bind, Option.bind_some, locationOf] at hlines ⊢
        rw [hlines]
        rfl
    exact ⟨hframe.inv, hframe.grows,
      fun hfits => mapM_eq_some_iff.mpr (.cons (hframe.holds hfits) .nil)⟩

theorem locationIndices_spec (h : b.Inv) (frames : List ProfileFrame) :
    Spec b (fun d is => is.mapM d.resolveFrame =
        some ((frames.filter ProfileFrame.hasSymbols).map ProfileFrame.resolved))
      (b.locationIndices frames) := by
  induction frames generalizing b with
  | nil => exact .pure h rfl
  | cons frame frames ih =>
    unfold locationIndices
    have hframe := location_spec h frame
    generalize b.location frame = r at hframe ⊢
    obtain ⟨index, b₁⟩ := r
    have hrest := ih hframe.inv
    dsimp only at hrest ⊢
    generalize b₁.locationIndices frames = r at hrest ⊢
    obtain ⟨indices, b₂⟩ := r
    refine ⟨hrest.inv, hframe.grows.trans hrest.grows, fun hfits => ?_⟩
    have hfirst := mapM_mono (fun _ _ => hrest.grows.resolveFrame)
      (hframe.holds (hrest.grows.fits hfits))
    have hsplit : frame :: frames = [frame] ++ frames := rfl
    rw [hsplit, List.filter_append, List.map_append]
    exact mapM_eq_some_iff.mpr (List.rel_append (mapM_eq_some_iff.mp hfirst)
      (mapM_eq_some_iff.mp (hrest.holds hfits)))

/-- A stack is made exactly for the samples with a frame to show. -/
theorem stack_spec (h : b.Inv) (sample : ProfileSample) :
    Spec b (fun d i => if sample.frames.any ProfileFrame.hasSymbols then
        ∃ index, i = some index ∧ d.resolveStack index =
          some ((sample.frames.filter ProfileFrame.hasSymbols).map ProfileFrame.resolved)
      else i = none) (b.stack sample) := by
  unfold stack
  have hindices := locationIndices_spec h sample.frames
  generalize b.locationIndices sample.frames = r at hindices ⊢
  obtain ⟨indices, b₁⟩ := r
  dsimp only at hindices ⊢
  have hnone : b₁.build.Fits → (indices.isEmpty = true ↔
      ¬ sample.frames.any ProfileFrame.hasSymbols = true) := by
    intro hfits
    have hlen := (mapM_eq_some_iff.mp (hindices.holds hfits)).length_eq
    rw [List.length_map] at hlen
    rw [List.isEmpty_iff, ← List.length_eq_zero_iff, hlen, List.length_eq_zero_iff,
      List.filter_eq_nil_iff, List.any_eq_true]
    simp
  by_cases hempty : indices.isEmpty = true
  · rw [if_pos hempty]
    refine ⟨hindices.inv, hindices.grows, fun hfits => ?_⟩
    rw [if_neg ((hnone hfits).mp hempty)]
  · rw [if_neg hempty]
    have hstack := internStack_spec hindices.inv indices fun hfits i hi => by
      obtain ⟨r, hr⟩ := exists_of_mapM (hindices.holds hfits) i hi
      exact .of_bind hr
    have hresolved := hindices.then (R := fun d i => d.resolveStack i = some
        ((sample.frames.filter ProfileFrame.hasSymbols).map ProfileFrame.resolved)) hstack
      (fun _ _ hg => mapM_mono fun _ _ => hg.resolveFrame)
      fun d hindices hget => by
        unfold ProfilesDictionary.resolveStack
        rw [hget]
        exact hindices
    refine ⟨hresolved.inv, hresolved.grows, fun hfits => ?_⟩
    have hany : sample.frames.any ProfileFrame.hasSymbols = true := by
      by_contra hnot
      exact hempty ((hnone (hstack.grows.fits hfits)).mpr hnot)
    rw [if_pos hany]
    exact ⟨_, rfl, hresolved.holds hfits⟩

theorem threadAttribute_spec (h : b.Inv) (name : Text) :
    Spec b (fun d i => d.resolveAttribute i = some ("thread.name".toList, name))
      (b.threadAttribute name) := by
  unfold threadAttribute
  have hkey := intern_spec h "thread.name".toList
  generalize b.intern "thread.name".toList = r at hkey ⊢
  obtain ⟨key, b₁⟩ := r
  dsimp only at hkey ⊢
  have hattribute := internAttribute_spec hkey.inv (key, name) fun hfits =>
    ⟨.of_get (hkey.holds hfits),
      (.of_get (a := []) rfl : ProfilesDictionary.InRange [[]] 0).mono hkey.inv.zero.strings⟩
  refine hkey.then hattribute (fun _ _ hg => Indexing.get_mono hg.strings) fun d hkey hget => ?_
  unfold ProfilesDictionary.resolveAttribute
  rw [hget]
  dsimp only [bind, Option.bind_some, attributeOf]
  rw [hkey]
  rfl

theorem attributeIndices_spec (h : b.Inv) (sample : ProfileSample) :
    Spec b (fun d is => is.mapM d.resolveAttribute =
        some ((trimmedThreadName sample).toList.map fun name => ("thread.name".toList, name)))
      (b.attributeIndices sample) := by
  unfold attributeIndices
  cases trimmedThreadName sample with
  | none => exact .pure h rfl
  | some name =>
    have hattribute := threadAttribute_spec h name
    exact ⟨hattribute.inv, hattribute.grows,
      fun hfits => mapM_eq_some_iff.mpr (.cons (hattribute.holds hfits) .nil)⟩

end DictionaryBuilder

/-! ## What the builder keeps of a sample -/

/-- A sample as it is read back from what the builder interned for it. -/
def ProfileSample.resolved (frequency : Int32) (sample : ProfileSample) : ResolvedSample where
  frames := (sample.frames.filter ProfileFrame.hasSymbols).map ProfileFrame.resolved
  attributes := (trimmedThreadName sample).toList.map fun name => ("thread.name".toList, name)
  values := [min (2 ^ 63 - 1) (sample.count.toInt * (10 ^ 9 / max frequency.toInt 1))]

theorem ProfileSample.namesThread_trimmed (sample : ProfileSample) :
    sample.NamesThread
      ((trimmedThreadName sample).toList.map fun name => ("thread.name".toList, name)) := by
  unfold ProfileSample.NamesThread trimmedThreadName
  cases sample.threadName with
  | none => rfl
  | some text =>
    refine ⟨trim text, trim_trims text, ?_⟩
    rw [Option.map_some, Option.filter_some]
    cases trim text <;> rfl

theorem ProfileSample.resolved_comesBack (frequency : Int32) (sample : ProfileSample) :
    sample.ComesBack frequency (sample.resolved frequency) :=
  ⟨rfl, sample.namesThread_trimmed, rfl⟩

/-! ## Values -/

theorem toInt_periodNs (frequency : Int32) :
    (periodNs frequency).toInt = 10 ^ 9 / max frequency.toInt 1 := by
  have hmax : (max frequency 1).toInt = max frequency.toInt 1 := by
    show (if frequency ≤ 1 then 1 else frequency).toInt = _
    split
    next h => exact (Int.max_eq_right (Int32.le_iff_toInt_le.mp h)).symm
    next h =>
      have hlt := Int.not_le.mp (mt Int32.le_iff_toInt_le.mpr h)
      exact (Int.max_eq_left (Int.le_of_lt hlt)).symm
  unfold periodNs
  rw [Int64.toInt_div_of_ne_left _ _ (by decide), Int32.toInt_toInt64, hmax]
  exact Int.tdiv_eq_ediv_of_nonneg (by decide)

theorem toInt_saturatingMul {a b : Int64} (ha : 0 ≤ a.toInt) (hb : 0 ≤ b.toInt) :
    (saturatingMul a b).toInt = min (2 ^ 63 - 1) (a.toInt * b.toInt) := by
  have hmul := Int.mul_nonneg ha hb
  unfold saturatingMul
  rw [Int64.toInt_minValue, Int64.toInt_maxValue,
    Int.max_eq_right (by omega), Int64.toInt_ofInt_of_le (by omega) (by omega)]

theorem values_resolved {frequency : Int32} {sample : ProfileSample} (h : ¬ sample.count ≤ 0) :
    [saturatingMul sample.count (periodNs frequency)].map Int64.toInt =
      (sample.resolved frequency).values := by
  have hcount := Int.not_le.mp (mt Int64.le_iff_toInt_le.mpr h)
  rw [Int64.toInt_zero] at hcount
  have hperiod : 0 ≤ (periodNs frequency).toInt := by
    rw [toInt_periodNs]
    exact Int.ediv_nonneg (by decide) (by omega)
  rw [List.map_singleton, toInt_saturatingMul (Int.le_of_lt hcount) hperiod, toInt_periodNs]
  rfl

/-! ## The whole profile -/

/-- The indices of a sample are in range. -/
def ProfilesDictionary.SampleIn (d : ProfilesDictionary) (s : Sample) : Prop :=
  InRange d.stackTable s.stackIndex ∧ (∀ i ∈ s.attributeIndices, InRange d.attributeTable i) ∧
    InRange d.linkTable s.linkIndex

def ProfilesDictionary.ValueTypeIn (d : ProfilesDictionary) (t : ValueType) : Prop :=
  InRange d.stringTable t.typeStrindex ∧ InRange d.stringTable t.unitStrindex

structure ProfilesDictionary.ProfileIn (d : ProfilesDictionary) (profile : Profile) : Prop where
  samples : ∀ s ∈ profile.samples, d.SampleIn s
  sampleType : ∀ t ∈ profile.sampleType, d.ValueTypeIn t
  periodType : ∀ t ∈ profile.periodType, d.ValueTypeIn t

/-- The zero value of its type is in front of every table. -/
structure ProfilesDictionary.ZeroFirst (d : ProfilesDictionary) : Prop where
  mappings : d.mappingTable[0]? = some ({} : Mapping)
  locations : d.locationTable[0]? = some ({} : Location)
  functions : d.functionTable[0]? = some ({} : Function)
  links : d.linkTable[0]? = some ({} : Link)
  strings : d.stringTable[0]? = some []
  attributes : d.attributeTable[0]? = some ({} : KeyValueAndUnit)
  «stacks» : d.stackTable[0]? = some ({} : Stack)

/-- Behind their fronts the tables hold no entry twice. -/
structure ProfilesDictionary.Distinct (d : ProfilesDictionary) : Prop where
  strings : (d.stringTable.drop 1).Nodup
  functions : (d.functionTable.drop 1).Nodup
  locations : (d.locationTable.drop 1).Nodup
  «stacks» : (d.stackTable.drop 1).Nodup
  attributes : (d.attributeTable.drop 1).Nodup

theorem ProfilesDictionary.Grows.sampleIn {d d' : ProfilesDictionary} (h : d.Grows d') {s : Sample}
    (hs : d.SampleIn s) : d'.SampleIn s :=
  ⟨hs.1.mono h.stacks, fun i hi => (hs.2.1 i hi).mono h.attributes, hs.2.2.mono h.links⟩

namespace DictionaryBuilder

/-- What the emitted samples are: resolvable, in range, and the collected ones in order. -/
def Emits (frequency : Int32) (samples : List ProfileSample) (d : ProfilesDictionary)
    (emitted : List Sample) : Prop :=
  emitted.mapM d.resolveSample =
      some ((samples.filter ProfileSample.emitted).map (ProfileSample.resolved frequency)) ∧
    ∀ s ∈ emitted, d.SampleIn s

variable {b : DictionaryBuilder}

theorem emits_skip {frequency : Int32} {sample : ProfileSample} (h : sample.emitted = false)
    (samples : List ProfileSample) :
    Emits frequency (sample :: samples) = Emits frequency samples := by
  unfold Emits
  rw [List.filter_cons_of_neg (by rw [h]; exact Bool.false_ne_true)]

theorem emits_cons {frequency : Int32} {sample : ProfileSample} (h : sample.emitted = true)
    {samples : List ProfileSample} {d : ProfilesDictionary} {first : Sample} {rest : List Sample}
    (hfirst : d.resolveSample first = some (sample.resolved frequency)) (hin : d.SampleIn first)
    (hrest : Emits frequency samples d rest) :
    Emits frequency (sample :: samples) d (first :: rest) := by
  refine ⟨?_, List.forall_mem_cons.mpr ⟨hin, hrest.2⟩⟩
  rw [List.filter_cons_of_pos h, List.mapM_cons, hfirst, hrest.1]
  rfl

/-- A sample whose stack and attributes read back is emitted as it was collected. -/
theorem emits_kept {frequency : Int32} {sample : ProfileSample} {samples : List ProfileSample}
    {d : ProfilesDictionary} {first : Sample} {rest : List Sample} (hcount : ¬ sample.count ≤ 0)
    (hany : sample.frames.any ProfileFrame.hasSymbols = true)
    (hframes : d.resolveStack first.stackIndex = some (sample.resolved frequency).frames)
    (hattrs : first.attributeIndices.mapM d.resolveAttribute =
      some (sample.resolved frequency).attributes)
    (hvalues : first.values = [saturatingMul sample.count (periodNs frequency)])
    (hlink : ProfilesDictionary.InRange d.linkTable first.linkIndex)
    (hrest : Emits frequency samples d rest) :
    Emits frequency (sample :: samples) d (first :: rest) := by
  refine emits_cons ?_ ?_ ?_ hrest
  · unfold ProfileSample.emitted
    rw [hany, decide_eq_true (Int64.not_le.mp hcount)]
    rfl
  · unfold ProfilesDictionary.resolveSample
    rw [hframes]
    dsimp only [bind, Option.bind_some]
    rw [hattrs, hvalues, values_resolved hcount]
    rfl
  · refine ⟨.of_bind hframes, fun i hi => ?_, hlink⟩
    obtain ⟨r, hr⟩ := exists_of_mapM hattrs i hi
    exact .of_bind hr

theorem samples_spec (h : b.Inv) (frequency : Int32) (samples : List ProfileSample) :
    Spec b (Emits frequency samples) (b.samples (periodNs frequency) samples) := by
  induction samples generalizing b with
  | nil => exact .pure h ⟨rfl, nofun⟩
  | cons sample samples ih =>
    unfold DictionaryBuilder.samples
    by_cases hcount : sample.count ≤ 0
    · have hskip : sample.emitted = false := by
        unfold ProfileSample.emitted
        rw [decide_eq_false (Int64.not_lt.mpr hcount), Bool.false_and]
      rw [if_pos hcount, emits_skip hskip]
      exact ih h
    · rw [if_neg hcount]
      have hstack := stack_spec h sample
      generalize b.stack sample = r at hstack ⊢
      obtain ⟨_ | stackIndex, b₁⟩ := r
      · have hrest := ih hstack.inv
        refine ⟨hrest.inv, hstack.grows.trans hrest.grows, fun hfits => ?_⟩
        have hskip : sample.emitted = false := by
          have hnone := hstack.holds (hrest.grows.fits hfits)
          split at hnone
          next =>
            obtain ⟨index, hindex, -⟩ := hnone
            cases hindex
          next hany =>
            unfold ProfileSample.emitted
            rw [Bool.eq_false_iff.mpr hany, Bool.and_false]
        rw [emits_skip hskip]
        exact hrest.holds hfits
      · have hattributes := attributeIndices_spec hstack.inv sample
        dsimp only at hattributes ⊢
        generalize b₁.attributeIndices sample = r at hattributes ⊢
        obtain ⟨attributeIndices, b₂⟩ := r
        have hrest := ih hattributes.inv
        dsimp only at hrest ⊢
        generalize b₂.samples (periodNs frequency) samples = r at hrest ⊢
        obtain ⟨rest, b₃⟩ := r
        refine ⟨hrest.inv, hstack.grows.trans (hattributes.grows.trans hrest.grows),
          fun hfits => ?_⟩
        have hattrs := mapM_mono (fun _ _ => hrest.grows.resolveAttribute)
          (hattributes.holds (hrest.grows.fits hfits))
        have hsome := hstack.holds (hattributes.grows.fits (hrest.grows.fits hfits))
        split at hsome
        next hany =>
          obtain ⟨index, hindex, hresolved⟩ := hsome
          cases hindex
          have hframes := (hattributes.grows.trans hrest.grows).resolveStack hresolved
          exact emits_kept hcount hany hframes hattrs rfl (.of_get (a := {}) rfl)
            (hrest.holds hfits)
        next => cases hsome

theorem Inv.distinct (h : b.Inv) (hfits : b.build.Fits) : b.build.Distinct where
  strings := h.strings.nodup Function.injective_id (Nat.le_of_lt hfits.strings)
  functions := h.functions.nodup functionOf_injective (Nat.le_of_lt hfits.functions)
  locations := h.locations.nodup locationOf_injective (Nat.le_of_lt hfits.locations)
  «stacks» := h.stacks.nodup stackMk_injective (Nat.le_of_lt hfits.stacks)
  attributes := h.attributes.nodup attributeOf_injective (Nat.le_of_lt hfits.attributes)

theorem Inv.zeroFirst (h : b.Inv) : b.build.ZeroFirst where
  mappings := List.prefix_iff_getElem?.mp h.zero.mappings 0 Nat.one_pos
  locations := List.prefix_iff_getElem?.mp h.zero.locations 0 Nat.one_pos
  functions := List.prefix_iff_getElem?.mp h.zero.functions 0 Nat.one_pos
  links := List.prefix_iff_getElem?.mp h.zero.links 0 Nat.one_pos
  strings := List.prefix_iff_getElem?.mp h.zero.strings 0 Nat.one_pos
  attributes := List.prefix_iff_getElem?.mp h.zero.attributes 0 Nat.one_pos
  «stacks» := List.prefix_iff_getElem?.mp h.zero.stacks 0 Nat.one_pos

end DictionaryBuilder

def ExportProfilesServiceRequest.profiles {R : Type} (request : ExportProfilesServiceRequest R) :
    List Profile :=
  request.resourceProfiles.flatMap fun resource => resource.scopeProfiles.flatMap (·.profiles)

/-- What a request is for the samples it was made of. -/
structure RoundTrips (collected : CollectedProfile) (d : ProfilesDictionary) (profile : Profile) :
    Prop where
  zeroFirst : d.ZeroFirst
  closed : d.Closed
  profileIn : d.ProfileIn profile
  distinct : d.Distinct
  samples : ∃ resolved, profile.samples.mapM d.resolveSample = some resolved ∧
    List.Forall₂ (ProfileSample.ComesBack collected.frequency)
      (collected.samples.filter ProfileSample.emitted) resolved

theorem buildExportRequest_roundTrips {R : Type} (resource : R) (collected : CollectedProfile)
    (timestamp sequence : UInt64)
    (hfits : ∀ d ∈ (buildExportRequest resource collected timestamp sequence).dictionary,
      d.Fits) :
    ∃ d profile,
      (buildExportRequest resource collected timestamp sequence).dictionary = some d ∧
      (buildExportRequest resource collected timestamp sequence).profiles = [profile] ∧
      RoundTrips collected d profile := by
  unfold buildExportRequest at hfits ⊢
  have hsamples := DictionaryBuilder.samples_spec DictionaryBuilder.new_inv collected.frequency
    collected.samples
  dsimp only at hfits ⊢
  generalize DictionaryBuilder.new.samples (periodNs collected.frequency) collected.samples = r
    at hsamples hfits ⊢
  obtain ⟨samples, b₁⟩ := r
  have hcpu := DictionaryBuilder.intern_spec hsamples.inv "cpu".toList
  dsimp only at hcpu hfits ⊢
  generalize b₁.intern "cpu".toList = r at hcpu hfits ⊢
  obtain ⟨cpu, b₂⟩ := r
  have hunit := DictionaryBuilder.intern_spec hcpu.inv "nanoseconds".toList
  dsimp only at hunit hfits ⊢
  generalize b₂.intern "nanoseconds".toList = r at hunit hfits ⊢
  obtain ⟨nanoseconds, b₃⟩ := r
  have hb : b₃.build.Fits := hfits _ rfl
  have hgrows := hcpu.grows.trans hunit.grows
  obtain ⟨hresolved, hin⟩ := hsamples.holds (hgrows.fits hb)
  have htype : b₃.build.ValueTypeIn ⟨cpu, nanoseconds⟩ :=
    ⟨(ProfilesDictionary.InRange.of_get (hcpu.holds (hunit.grows.fits hb))).mono
      hunit.grows.strings, .of_get (hunit.holds hb)⟩
  refine ⟨_, _, rfl, rfl, hunit.inv.zeroFirst, hunit.inv.closed hb, ?_, hunit.inv.distinct hb,
    ⟨_, mapM_mono (fun _ _ => hgrows.resolveSample) hresolved, ?_⟩⟩
  · refine ⟨fun s hs => hgrows.sampleIn (hin s hs), fun t ht => ?_, fun t ht => ?_⟩
    · cases ht
      exact htype
    · cases ht
      exact htype
  · exact List.forall₂_map_right_iff.mpr
      (List.forall₂_same.mpr fun sample _ => sample.resolved_comesBack collected.frequency)

def sampleSymbol (name : String) (line : Int64) : ProfileSymbol :=
  ⟨name.toList, name.toList, "cache.rs".toList, line, 4096⟩

/-- Two frames around one without symbols, then a sample that was never seen. -/
def sampleCollected : CollectedProfile where
  samples := [
    { frames := [⟨[sampleSymbol "get" 7, sampleSymbol "lookup" 40]⟩, ⟨[]⟩,
        ⟨[sampleSymbol "lookup" 41]⟩]
      count := 3
      threadName := some " worker ".toList },
    { frames := [⟨[sampleSymbol "idle" 1]⟩], count := 0, threadName := none }]
  timeUnixNano := 0
  durationNano := 1000000000
  frequency := 99

/-- The thread of the sample that is kept comes back without the blanks around its name. -/
theorem sampleCollected_roundTrips :
    (∀ d ∈ (buildExportRequest () sampleCollected 0 1).dictionary, d.Fits) ∧
      ∃ d profile,
        (buildExportRequest () sampleCollected 0 1).dictionary = some d ∧
        (buildExportRequest () sampleCollected 0 1).profiles = [profile] ∧
        RoundTrips sampleCollected d profile ∧
        (profile.samples.mapM d.resolveSample).map (List.map ResolvedSample.attributes) =
          some [[("thread.name".toList, "worker".toList)]] := by
  have hfits : ∀ d ∈ (buildExportRequest () sampleCollected 0 1).dictionary, d.Fits := by
    intro d hd
    cases hd
    exact ⟨by decide, by decide, by decide, by decide, by decide⟩
  obtain ⟨d, profile, hd, hprofile, hback⟩ :=
    buildExportRequest_roundTrips () sampleCollected 0 1 hfits
  refine ⟨hfits, d, profile, hd, hprofile, hback, ?_⟩
  cases hd
  cases hprofile
  decide +kernel

end DoggyDns.Profiles
