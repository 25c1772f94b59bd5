import DoggyDns.Lib.Bytes

/-!
# Domain names

A `Name` is a list of labels of 1 to 63 arbitrary bytes whose wire encoding
fits 255 bytes, root label included: what hickory admits, on the wire and from
configuration. `wire` is the uncompressed encoding and `readQname` reads it
back the way RFC 1035 says: length-prefixed labels up to a zero length byte,
with no compression pointer.
-/

namespace DoggyDns

open Bytes

/-- `u8::to_ascii_lowercase`. -/
def toAsciiLowercase (b : UInt8) : UInt8 := if 0x41 ≤ b ∧ b ≤ 0x5A then b + 0x20 else b

theorem toNat_toAsciiLowercase (b : UInt8) :
    (toAsciiLowercase b).toNat = if 65 ≤ b.toNat ∧ b.toNat ≤ 90 then b.toNat + 32 else b.toNat := by
  unfold toAsciiLowercase
  simp only [UInt8.le_iff_toNat_le, show (0x41 : UInt8).toNat = 65 from rfl,
    show (0x5A : UInt8).toNat = 90 from rfl]
  split
  · rw [UInt8.toNat_add, show (0x20 : UInt8).toNat = 32 from rfl]; omega
  · rfl

/-- Lowercasing neither makes nor removes a zero byte. -/
@[simp] theorem toAsciiLowercase_eq_zero {b : UInt8} : toAsciiLowercase b = 0 ↔ b = 0 := by
  simp only [← UInt8.toNat_inj, toNat_toAsciiLowercase, show (0 : UInt8).toNat = 0 from rfl]
  split <;> omega

/-- A byte that lowercases to a label length is that length. -/
theorem eq_of_toAsciiLowercase_le {b : UInt8} (h : (toAsciiLowercase b).toNat ≤ 63) :
    toAsciiLowercase b = b := by
  apply UInt8.toNat_inj.mp
  rw [toNat_toAsciiLowercase] at h ⊢
  split_ifs at h ⊢ <;> omega

theorem toAsciiLowercase_of_le {b : UInt8} (h : b.toNat ≤ 63) : toAsciiLowercase b = b := by
  apply eq_of_toAsciiLowercase_le
  rw [toNat_toAsciiLowercase]
  split <;> omega

abbrev Label := List UInt8

/-- A label lowercased byte by byte. -/
def Label.lower (l : Label) : Label := l.map toAsciiLowercase

@[simp] theorem Label.length_lower (l : Label) : l.lower.length = l.length := by
  simp [Label.lower]

/-- Labels a name may hold. -/
def LabelsOk (ls : List Label) : Prop := ∀ l ∈ ls, 1 ≤ l.length ∧ l.length ≤ 63

instance (ls : List Label) : Decidable (LabelsOk ls) :=
  inferInstanceAs (Decidable (∀ l ∈ ls, 1 ≤ l.length ∧ l.length ≤ 63))

theorem LabelsOk.nil : LabelsOk [] := fun _ hl => nomatch hl

/-- The uncompressed wire encoding: length-prefixed labels and the root's zero. -/
def wire : List Label → List UInt8
  | [] => [0]
  | l :: ls => UInt8.ofNat l.length :: (l ++ wire ls)

/-- `Name::MAX_LENGTH`. -/
def Name.MAX_LENGTH : Nat := 255

/-- A domain name hickory admits. -/
structure Name where
  labels : List Label
  labels_ok : LabelsOk labels
  wire_le : (wire labels).length ≤ Name.MAX_LENGTH
  deriving DecidableEq

namespace Name

/-- The root name. -/
def root : Name := ⟨[], LabelsOk.nil, by decide⟩

/-- Equality ignoring ASCII case. -/
def EqIgnoreCase (a b : Name) : Prop := a.labels.map Label.lower = b.labels.map Label.lower

end Name

/-! ## The wire encoding -/

theorem length_wire_map_lower (ls : List Label) :
    (wire (ls.map Label.lower)).length = (wire ls).length := by
  induction ls with
  | nil => rfl
  | cons l ls ih => simp [wire, ih]

theorem toNat_lengthByte {l : Label} (h : l.length ≤ 63) :
    (UInt8.ofNat l.length).toNat = l.length := by
  rw [UInt8.toNat_ofNat_of_lt' (by simp [UInt8.size]; omega)]

theorem LabelsOk.cons {l : Label} {ls : List Label} :
    LabelsOk (l :: ls) ↔ (1 ≤ l.length ∧ l.length ≤ 63) ∧ LabelsOk ls := by
  simp [LabelsOk]

theorem LabelsOk.map_lower {ls : List Label} (h : LabelsOk ls) : LabelsOk (ls.map Label.lower) := by
  intro l hl
  obtain ⟨l', hl', rfl⟩ := List.mem_map.mp hl
  simpa using h l' hl'

/-- Length bytes are no letters, so lowercasing the wire form lowercases the labels. -/
theorem map_lower_wire {ls : List Label} (h : LabelsOk ls) :
    (wire ls).map toAsciiLowercase = wire (ls.map Label.lower) := by
  induction ls with
  | nil => rfl
  | cons l ls ih =>
    obtain ⟨hl, hls⟩ := LabelsOk.cons.mp h
    have hlen : toAsciiLowercase (UInt8.ofNat l.length) = UInt8.ofNat l.length :=
      toAsciiLowercase_of_le (by rw [toNat_lengthByte hl.2]; exact hl.2)
    simp only [wire, List.map_cons, List.map_append, hlen, ih hls, Label.length_lower]
    rfl

/-- The root's zero is the last byte. -/
theorem wire_eq_append_zero (ls : List Label) : ∃ body, wire ls = body ++ [0] := by
  induction ls with
  | nil => exact ⟨[], rfl⟩
  | cons l ls ih =>
    obtain ⟨body, hb⟩ := ih
    exact ⟨UInt8.ofNat l.length :: (l ++ body), by simp [wire, hb]⟩

/-! ## Reading it back -/

/-- Read labels off `bs`, at most `fuel` of them; the rest of the bytes follow the root. -/
def readLabels : Nat → List UInt8 → Option (List Label × List UInt8)
  | 0, _ => none
  | _ + 1, [] => none
  | fuel + 1, n :: rest =>
    if n = 0 then some ([], rest)
    -- a length byte above 63 is a compression pointer or reserved
    else if n.toNat ≤ 63 ∧ n.toNat ≤ rest.length then
      (readLabels fuel (rest.drop n.toNat)).map fun (ls, r) => (rest.take n.toNat :: ls, r)
    else none

/-- The QNAME at the front of `bs`, and what follows it. -/
def readQname (bs : List UInt8) : Option (List Label × List UInt8) := readLabels bs.length bs

theorem readLabels_wire {ls : List Label} (h : LabelsOk ls) (rest : List UInt8) :
    ∀ {fuel : Nat}, ls.length < fuel → readLabels fuel (wire ls ++ rest) = some (ls, rest) := by
  induction ls with
  | nil =>
    intro fuel hf
    obtain ⟨n, rfl⟩ : ∃ n, fuel = n + 1 := ⟨fuel - 1, by omega⟩
    rfl
  | cons l ls ih =>
    intro fuel hf
    obtain ⟨n, rfl⟩ : ∃ n, fuel = n + 1 := ⟨fuel - 1, by omega⟩
    obtain ⟨hl, hls⟩ := LabelsOk.cons.mp h
    have hlen := toNat_lengthByte hl.2
    have hne : UInt8.ofNat l.length ≠ 0 := by
      intro h0
      rw [h0, show (0 : UInt8).toNat = 0 from rfl] at hlen
      omega
    simp only [wire, List.cons_append, readLabels, hne, ↓reduceIte, hlen, List.append_assoc,
      List.length_append]
    rw [if_pos ⟨hl.2, by omega⟩, List.drop_left, List.take_left,
      ih hls (by simp at hf; omega)]
    rfl

theorem length_labels_lt_wire (ls : List Label) : ls.length < (wire ls).length := by
  induction ls with
  | nil => decide
  | cons l ls ih => simp only [wire, List.length_cons, List.length_append]; omega

/-- The encoding reads back, whatever follows it. -/
theorem readQname_wire {ls : List Label} (h : LabelsOk ls) (rest : List UInt8) :
    readQname (wire ls ++ rest) = some (ls, rest) := by
  refine readLabels_wire h rest ?_
  have := length_labels_lt_wire ls
  rw [List.length_append]
  omega

/-- What the reader accepts is an encoding of legal labels. -/
theorem readLabels_sound : ∀ {fuel : Nat} {bs : List UInt8} {ls : List Label} {rest : List UInt8},
    readLabels fuel bs = some (ls, rest) → LabelsOk ls ∧ bs = wire ls ++ rest
  | 0, _, _, _, h => by cases h
  | _ + 1, [], _, _, h => by cases h
  | fuel + 1, n :: bs, ls, rest, h => by
    simp only [readLabels] at h
    split at h
    · next h0 =>
      cases h
      exact ⟨LabelsOk.nil, by simp [wire, h0]⟩
    · next h0 =>
      split at h
      · next hn =>
        obtain ⟨⟨ls', r⟩, hr, heq⟩ := Option.map_eq_some_iff.mp h
        cases heq
        obtain ⟨hok, hbs⟩ := readLabels_sound hr
        have hlen : (bs.take n.toNat).length = n.toNat := by simp [hn.2]
        have hpos : n.toNat ≠ 0 := fun h' => h0 (UInt8.toNat_inj.mp h')
        refine ⟨LabelsOk.cons.mpr ⟨by omega, hok⟩, ?_⟩
        unfold wire
        rw [hlen, UInt8.ofNat_toNat, List.cons_append, List.append_assoc, ← hbs,
          List.take_append_drop]
      · cases h

theorem readQname_sound {bs : List UInt8} {ls : List Label} {rest : List UInt8}
    (h : readQname bs = some (ls, rest)) : LabelsOk ls ∧ bs = wire ls ++ rest :=
  readLabels_sound h

end DoggyDns
