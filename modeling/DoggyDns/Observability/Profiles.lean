import DoggyDns.Basic.Toml
import DoggyDns.Lib.Intern
import Mathlib.Tactic.Ring

/-!
# OTLP profiles

`build_export_request` turns collected CPU samples into an OTLP profile. Strings,
functions, locations, stacks and attributes are interned in the tables of a
dictionary and refer to one another by index, with the zero value of each type
in front. Resolving the indices of a sample through the tables gives back what
was collected.

The protobuf messages have the fields the source sets; those it always leaves
empty are left out. The resource is a parameter, as are the clock and the
counter of a profile's id.
-/

namespace DoggyDns.Profiles

open Intern

/-! ## What was collected -/

structure ProfileSymbol where
  name : Text
  systemName : Text
  filename : Text
  line : Int64
  address : UInt64
  deriving DecidableEq

structure ProfileFrame where
  /-- Inline frames, innermost first. -/
  symbols : List ProfileSymbol
  deriving DecidableEq

structure ProfileSample where
  /-- Leaf frame first. -/
  frames : List ProfileFrame
  count : Int64
  threadName : Option Text
  deriving DecidableEq

structure CollectedProfile where
  samples : List ProfileSample
  timeUnixNano : UInt64
  durationNano : UInt64
  frequency : Int32
  deriving DecidableEq

/-! ## The messages -/

structure Function where
  nameStrindex : Int32 := 0
  systemNameStrindex : Int32 := 0
  filenameStrindex : Int32 := 0
  startLine : Int64 := 0
  deriving DecidableEq

structure Line where
  functionIndex : Int32 := 0
  line : Int64 := 0
  column : Int64 := 0
  deriving DecidableEq

structure Location where
  mappingIndex : Int32 := 0
  address : UInt64 := 0
  lines : List Line := []
  attributeIndices : List Int32 := []
  deriving DecidableEq

structure Stack where
  locationIndices : List Int32 := []
  deriving DecidableEq

inductive AnyValue where
  | stringValue (value : Text)
  deriving DecidableEq

structure KeyValueAndUnit where
  keyStrindex : Int32 := 0
  value : Option AnyValue := none
  unitStrindex : Int32 := 0
  deriving DecidableEq

structure Mapping where
  memoryStart : UInt64 := 0
  memoryLimit : UInt64 := 0
  fileOffset : UInt64 := 0
  filenameStrindex : Int32 := 0
  attributeIndices : List Int32 := []
  deriving DecidableEq

structure Link where
  traceId : List UInt8 := []
  spanId : List UInt8 := []
  deriving DecidableEq

structure ProfilesDictionary where
  mappingTable : List Mapping
  locationTable : List Location
  functionTable : List Function
  linkTable : List Link
  stringTable : List Text
  attributeTable : List KeyValueAndUnit
  stackTable : List Stack
  deriving DecidableEq

structure Sample where
  stackIndex : Int32
  attributeIndices : List Int32
  linkIndex : Int32
  values : List Int64
  timestampsUnixNano : List UInt64
  deriving DecidableEq

structure ValueType where
  typeStrindex : Int32
  unitStrindex : Int32
  deriving DecidableEq

structure Profile where
  sampleType : Option ValueType
  samples : List Sample
  timeUnixNano : UInt64
  durationNano : UInt64
  periodType : Option ValueType
  period : Int64
  profileId : List UInt8
  deriving DecidableEq

structure InstrumentationScope where
  name : String
  version : String
  deriving DecidableEq

structure ScopeProfiles where
  scope : Option InstrumentationScope
  profiles : List Profile
  deriving DecidableEq

structure ResourceProfiles (R : Type) where
  resource : Option R
  scopeProfiles : List ScopeProfiles

structure ExportProfilesServiceRequest (R : Type) where
  resourceProfiles : List (ResourceProfiles R)
  dictionary : Option ProfilesDictionary

/-! ## The dictionary -/

/-- Positions as `len as i32` stores them. -/
def i32 : Indexing Int32 where
  cast := Int32.ofNat
  read i := if 0 ≤ i.toInt then some i.toNatClampNeg else none
  bound := 2 ^ 31
  read_cast h := by
    rw [Int32.toInt_ofNat_of_lt h, if_pos (Int.natCast_nonneg _),
      Int32.toNatClampNeg_ofNat_of_lt h]

structure DictionaryBuilder where
  strings : Table Int32 Text Text
  functions : Table Int32 (Int32 × Int32 × Int32) Function
  locations : Table Int32 (UInt64 × List (Int32 × Int64)) Location
  «stacks» : Table Int32 (List Int32) Stack
  attributes : Table Int32 (Int32 × Text) KeyValueAndUnit

namespace DictionaryBuilder

def new : DictionaryBuilder where
  strings := ⟨[[]], [([], 0)]⟩
  functions := ⟨[{}], []⟩
  locations := ⟨[{}], []⟩
  «stacks» := ⟨[{}], []⟩
  attributes := ⟨[{}], []⟩

def intern (b : DictionaryBuilder) (value : Text) : Int32 × DictionaryBuilder :=
  let (index, strings) := b.strings.intern i32 value value
  (index, { b with strings })

def function (b : DictionaryBuilder) (symbol : ProfileSymbol) : Int32 × DictionaryBuilder :=
  let (name, b) := b.intern symbol.name
  let (systemName, b) := b.intern symbol.systemName
  let (filename, b) := b.intern symbol.filename
  let (index, functions) := b.functions.intern i32 (name, systemName, filename)
    { nameStrindex := name
      systemNameStrindex := systemName
      filenameStrindex := filename
      startLine := 0 }
  (index, { b with functions })

/-- The loop over a frame's symbols: the lines, and the key made of them. -/
def lines (b : DictionaryBuilder) :
    List ProfileSymbol → (List Line × List (Int32 × Int64)) × DictionaryBuilder
  | [] => (([], []), b)
  | symbol :: symbols =>
    let (functionIndex, b) := b.function symbol
    let ((lines, lineKey), b) := b.lines symbols
    (({ functionIndex, line := symbol.line, column := 0 } :: lines,
      (functionIndex, symbol.line) :: lineKey), b)

def location (b : DictionaryBuilder) (frame : ProfileFrame) : Option Int32 × DictionaryBuilder :=
  if frame.symbols.isEmpty then (none, b)
  else
    let ((lines, lineKey), b) := b.lines frame.symbols
    let address := (frame.symbols.head?.map (·.address)).getD 0
    let (index, locations) := b.locations.intern i32 (address, lineKey)
      { mappingIndex := 0, address, lines, attributeIndices := [] }
    (some index, { b with locations })

/-- `frames.iter().filter_map(|frame| self.location(frame))`. -/
def locationIndices (b : DictionaryBuilder) :
    List ProfileFrame → List Int32 × DictionaryBuilder
  | [] => ([], b)
  | frame :: frames =>
    let (index, b) := b.location frame
    let (indices, b) := b.locationIndices frames
    (index.toList ++ indices, b)

def stack (b : DictionaryBuilder) (sample : ProfileSample) : Option Int32 × DictionaryBuilder :=
  let (locationIndices, b) := b.locationIndices sample.frames
  if locationIndices.isEmpty then (none, b)
  else
    let (index, «stacks») := b.stacks.intern i32 locationIndices { locationIndices }
    (some index, { b with «stacks» })

def threadAttribute (b : DictionaryBuilder) (threadName : Text) : Int32 × DictionaryBuilder :=
  let (key, b) := b.intern "thread.name".toList
  let (index, attributes) := b.attributes.intern i32 (key, threadName)
    { keyStrindex := key, value := some (.stringValue threadName), unitStrindex := 0 }
  (index, { b with attributes })

def build (b : DictionaryBuilder) : ProfilesDictionary where
  mappingTable := [{}]
  locationTable := b.locations.entries
  functionTable := b.functions.entries
  linkTable := [{}]
  stringTable := b.strings.entries
  attributeTable := b.attributes.entries
  stackTable := b.stacks.entries

end DictionaryBuilder

/-! ## The request -/

/-- `i64::saturating_mul`. -/
def saturatingMul (a b : Int64) : Int64 :=
  Int64.ofInt (max Int64.minValue.toInt (min Int64.maxValue.toInt (a.toInt * b.toInt)))

/-- `1_000_000_000 / frequency`, with no frequency below 1. -/
def periodNs (frequency : Int32) : Int64 := 1000000000 / (max frequency 1).toInt64

/-- The thread name that makes an attribute. -/
def trimmedThreadName (sample : ProfileSample) : Option Text :=
  (sample.threadName.map trim).filter (!·.isEmpty)

def DictionaryBuilder.attributeIndices (b : DictionaryBuilder) (sample : ProfileSample) :
    List Int32 × DictionaryBuilder :=
  match trimmedThreadName sample with
  | some name =>
    let (index, b) := b.threadAttribute name
    ([index], b)
  | none => ([], b)

/-- The loop over the samples. -/
def DictionaryBuilder.samples (b : DictionaryBuilder) (period : Int64) :
    List ProfileSample → List Sample × DictionaryBuilder
  | [] => ([], b)
  | sample :: rest =>
    if sample.count ≤ 0 then b.samples period rest
    else
      match b.stack sample with
      | (none, b) => b.samples period rest
      | (some stackIndex, b) =>
        let (attributeIndices, b) := b.attributeIndices sample
        let (samples, b) := b.samples period rest
        ({ stackIndex
           attributeIndices
           linkIndex := 0
           values := [saturatingMul sample.count period]
           timestampsUnixNano := [] } :: samples, b)

def be64Bytes (v : UInt64) : List UInt8 :=
  ([56, 48, 40, 32, 24, 16, 8, 0] : List UInt64).map fun shift => (v >>> shift).toUInt8

def newProfileId (timestamp sequence : UInt64) : List UInt8 :=
  be64Bytes timestamp ++ be64Bytes sequence

def APP_NAME : String := "doggy-dns"

def CARGO_PKG_VERSION : String := "0.1.0"

def buildExportRequest {R : Type} (resource : R) (collected : CollectedProfile)
    (timestamp sequence : UInt64) : ExportProfilesServiceRequest R :=
  let period := periodNs collected.frequency
  let (samples, dictionary) := DictionaryBuilder.new.samples period collected.samples
  let (cpu, dictionary) := dictionary.intern "cpu".toList
  let (nanoseconds, dictionary) := dictionary.intern "nanoseconds".toList
  let sampleType : ValueType := { typeStrindex := cpu, unitStrindex := nanoseconds }
  let profile : Profile :=
    { sampleType := some sampleType
      samples
      timeUnixNano := collected.timeUnixNano
      durationNano := collected.durationNano
      periodType := some sampleType
      period
      profileId := newProfileId timestamp sequence }
  { resourceProfiles := [{
      resource := some resource
      scopeProfiles := [{
        scope := some { name := APP_NAME, version := CARGO_PKG_VERSION }
        profiles := [profile] }] }]
    dictionary := some dictionary.build }

/-! ## Resolving -/

/-- A symbol as the tables give it back: its three strings and its line. -/
structure ResolvedLine where
  name : Text
  systemName : Text
  filename : Text
  line : Int64
  deriving DecidableEq

structure ResolvedFrame where
  address : UInt64
  lines : List ResolvedLine
  deriving DecidableEq

structure ResolvedSample where
  frames : List ResolvedFrame
  attributes : List (Text × Text)
  values : List Int
  deriving DecidableEq

namespace ProfilesDictionary

variable (d : ProfilesDictionary)

def resolveLine (line : Line) : Option ResolvedLine := do
  let function ← i32.get d.functionTable line.functionIndex
  let name ← i32.get d.stringTable function.nameStrindex
  let systemName ← i32.get d.stringTable function.systemNameStrindex
  let filename ← i32.get d.stringTable function.filenameStrindex
  return ⟨name, systemName, filename, line.line⟩

def resolveFrame (index : Int32) : Option ResolvedFrame := do
  let location ← i32.get d.locationTable index
  let lines ← location.lines.mapM d.resolveLine
  return ⟨location.address, lines⟩

def resolveStack (index : Int32) : Option (List ResolvedFrame) := do
  let stack ← i32.get d.stackTable index
  stack.locationIndices.mapM d.resolveFrame

def resolveAttribute (index : Int32) : Option (Text × Text) := do
  let entry ← i32.get d.attributeTable index
  let key ← i32.get d.stringTable entry.keyStrindex
  match entry.value with
  | some (.stringValue value) => return (key, value)
  | none => none

def resolveSample (sample : Sample) : Option ResolvedSample := do
  let frames ← d.resolveStack sample.stackIndex
  let attributes ← sample.attributeIndices.mapM d.resolveAttribute
  return ⟨frames, attributes, sample.values.map Int64.toInt⟩

end ProfilesDictionary

/-! ## What should come back -/

def ProfileSymbol.resolved (symbol : ProfileSymbol) : ResolvedLine :=
  ⟨symbol.name, symbol.systemName, symbol.filename, symbol.line⟩

/-- A frame with symbols, at its first symbol's address. -/
def ProfileFrame.resolved (frame : ProfileFrame) : ResolvedFrame :=
  ⟨(frame.symbols.head?.map (·.address)).getD 0, frame.symbols.map ProfileSymbol.resolved⟩

def ProfileFrame.hasSymbols (frame : ProfileFrame) : Bool := !frame.symbols.isEmpty

/-- Samples that were seen and have a frame to show. -/
def ProfileSample.emitted (sample : ProfileSample) : Bool :=
  0 < sample.count && sample.frames.any ProfileFrame.hasSymbols

/-- The attributes name a sample's thread: without the white space around the name, and only if
something is left of it. -/
def ProfileSample.NamesThread (sample : ProfileSample) (attributes : List (Text × Text)) : Prop :=
  match sample.threadName with
  | none => attributes = []
  | some text => ∃ name, Trims text name ∧
      attributes = if name = [] then [] else [("thread.name".toList, name)]

/-- What the tables give back for a sample. -/
structure ProfileSample.ComesBack (frequency : Int32) (sample : ProfileSample)
    (r : ResolvedSample) : Prop where
  frames : r.frames = (sample.frames.filter ProfileFrame.hasSymbols).map ProfileFrame.resolved
  attributes : sample.NamesThread r.attributes
  values : r.values = [min (2 ^ 63 - 1) (sample.count.toInt * (10 ^ 9 / max frequency.toInt 1))]

end DoggyDns.Profiles
