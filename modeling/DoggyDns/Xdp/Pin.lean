import DoggyDns.Basic.Xdp
import DoggyDns.Xdp.Layout

/-!
# The pinned map

`pin.rs`, and what `XdpManager::new` does with it: where the cache map is
pinned, which capacity the loader is asked for, and what the log says about the
map the program ended up on. The path ends in the layout version, so builds of
different layouts never meet on one path (`pinPathAt_inj`).
-/

namespace DoggyDns

open ReprC

/-! ## The path -/

/-- Layout version of the cache entries, written into the pin path. -/
def CACHE_FORMAT_VERSION : Nat := 1

/-- The path a build of layout `version` pins. -/
def pinPathAt (version : Nat) (base : Text) : Text :=
  base ++ '_' :: 'v' :: version.repr.toList

def versionedPinPath (base : Text) : Text := pinPathAt CACHE_FORMAT_VERSION base

theorem splitOnce_reverse_pinPathAt (version : Nat) (base : Text) :
    splitOnce 'v' (pinPathAt version base).reverse =
      some ((Nat.toDigits 10 version).reverse, '_' :: base.reverse) := by
  rw [splitOnce_eq_some, pinPathAt, Nat.toList_repr]
  constructor
  · simp
  · intro hv
    have hdigit := Nat.isDigit_of_mem_toDigits (by decide) (by decide) (List.mem_reverse.mp hv)
    exact absurd hdigit (by decide)

/-- The version is what stands behind the last `v`. -/
theorem pinPathAt_inj {version version' : Nat} {base base' : Text}
    (h : pinPathAt version base = pinPathAt version' base') :
    version = version' ∧ base = base' := by
  have hsplit := splitOnce_reverse_pinPathAt version base
  rw [h, splitOnce_reverse_pinPathAt] at hsplit
  obtain ⟨hdigits, hbase⟩ := Prod.mk.inj (Option.some.inj hsplit)
  constructor
  · have hvalue := congrArg (Nat.ofDigitChars 10 · 0) (List.reverse_inj.mp hdigits)
    simp only [Nat.ofDigitChars_toDigits (by decide : 1 < 10) (Nat.le_refl 10)] at hvalue
    exact hvalue.symm
  · exact (List.reverse_inj.mp (List.cons.inj hbase).2).symm

/-- What this build requires of the map behind that path. -/
structure DeclaredCacheShape where
  keySize : UInt32
  valueSize : UInt32
  maxEntries : UInt32
  deriving DecidableEq, Repr

def declaredCacheShape (maxEntries : UInt32) : DeclaredCacheShape where
  keySize := UInt32.ofNat (size Xdp.CacheKey.fields)
  valueSize := UInt32.ofNat (size Xdp.CacheValue.fields)
  maxEntries

/-- What the kernel reports about an already-pinned map. -/
structure PinnedCacheShape where
  isLruHash : Bool
  keySize : UInt32
  valueSize : UInt32
  maxEntries : UInt32
  deriving DecidableEq, Repr

/-- One way a pinned map fails to fit this build. -/
inductive CacheShapeMismatch where
  | notLruHash
  | keySize (actual expected : UInt32)
  | valueSize (actual expected : UInt32)
  | maxEntries (actual expected : UInt32)
  deriving DecidableEq, Repr

/-- Every reason the pinned map does not fit this build. -/
def cacheShapeMismatch (pinned : PinnedCacheShape) (declared : DeclaredCacheShape) :
    List CacheShapeMismatch :=
  (if !pinned.isLruHash then [.notLruHash] else []) ++
    (if pinned.keySize ≠ declared.keySize then [.keySize pinned.keySize declared.keySize]
      else []) ++
    (if pinned.valueSize ≠ declared.valueSize then
      [.valueSize pinned.valueSize declared.valueSize] else []) ++
    if pinned.maxEntries ≠ declared.maxEntries then
      [.maxEntries pinned.maxEntries declared.maxEntries] else []

/-- `Display`. -/
def CacheShapeMismatch.fmt : CacheShapeMismatch → String
  | .notLruHash => "map type is not LRU hash"
  | .keySize actual expected => s!"key size {actual} != {expected}"
  | .valueSize actual expected => s!"value size {actual} != {expected}"
  | .maxEntries actual expected => s!"capacity {actual} != configured {expected}"

/-! ## Loading -/

/-- The capacity `XdpManager::new` declares for `DNS_CACHE`; `pinned` is what `MapInfo::from_pin`
says if the path is occupied. -/
def declaredCacheSize (pinned : Option (Except Error UInt32)) (cacheSize : UInt32) : UInt32 :=
  match pinned with
  | some (.ok maxEntries) => maxEntries
  -- "cannot read the pinned DNS_CACHE map, falling back to the configured capacity"
  | some (.error _) => cacheSize
  | none => cacheSize

/-- The log line about the map the fast path ended up on. -/
inductive Provenance where
  /-- "cannot read DNS_CACHE map info, so a reused map cannot be checked against this
  configuration" -/
  | unreadable (error : Error)
  /-- "created a cold DNS_CACHE map at the pin path" -/
  | cold (capacity : UInt32)
  /-- "reusing the pinned DNS_CACHE map; cached answers survive this restart" -/
  | reused (capacity : UInt32)
  /-- "reusing the pinned DNS_CACHE map although it does not fit this configuration; the pinned
  map's own values win until its file is removed" -/
  | misfit (details : String) (configuredCacheSize : UInt32)
  deriving DecidableEq

def logCacheProvenance (shape : Except Error PinnedCacheShape) (configuredEntries : UInt32)
    (reusedPinnedMap : Bool) : Provenance :=
  match shape with
  | .error error => .unreadable error
  | .ok shape =>
    if !reusedPinnedMap then .cold shape.maxEntries
    else
      match cacheShapeMismatch shape (declaredCacheShape configuredEntries) with
      | [] => .reused shape.maxEntries
      | mismatches =>
        .misfit (", ".intercalate (mismatches.map CacheShapeMismatch.fmt)) configuredEntries

/-- A map of this build's own layout differs from the configuration in its capacity only. -/
theorem cacheShapeMismatch_of_layout (capacity configured : UInt32) :
    cacheShapeMismatch ⟨true, (declaredCacheShape configured).keySize,
        (declaredCacheShape configured).valueSize, capacity⟩ (declaredCacheShape configured) =
      if capacity = configured then [] else [.maxEntries capacity configured] := by
  by_cases h : capacity = configured
  · simp [cacheShapeMismatch, declaredCacheShape, h]
  · simp [cacheShapeMismatch, declaredCacheShape, h]

end DoggyDns
