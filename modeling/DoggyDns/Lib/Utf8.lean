import Mathlib.Data.List.Infix
import Mathlib.Tactic.Common

/-!
# Texts by byte offset

A text is a list of characters, and its string the bytes of their UTF-8
encodings. `find` and `slice` work on the bytes: `find` yields the byte offset
of the first occurrence of a pattern, and `slice` fails where an offset stands
inside a character.

A pattern occurs in the bytes exactly where it occurs in the text: no encoding
is the beginning of another, and the bytes that begin a character stand nowhere
else in one.
-/

namespace Utf8

def encode (t : List Char) : List UInt8 := t.flatMap String.utf8EncodeChar

def decode (bytes : List UInt8) : Option (List Char) :=
  bytes.toByteArray.utf8Decode?.map Array.toList

/-- Every byte but a continuation byte. -/
def isBoundaryByte (b : UInt8) : Bool := b < 0x80 || 0xC0 ≤ b

/-- No character's encoding goes on at offset `i`. -/
def isCharBoundary (bytes : List UInt8) (i : Nat) : Bool :=
  i = 0 || match bytes[i]? with
    | none => i = bytes.length
    | some b => isBoundaryByte b

/-- The text between two byte offsets, if both stand between characters. -/
def slice (t : List Char) (start stop : Nat) : Option (List Char) :=
  let bytes := encode t
  if start ≤ stop ∧ isCharBoundary bytes start ∧ isCharBoundary bytes stop then
    decode ((bytes.take stop).drop start)
  else none

def findBytes (pattern : List UInt8) : List UInt8 → Option Nat
  | [] => if pattern.isEmpty then some 0 else none
  | b :: bytes =>
    if pattern <+: b :: bytes then some 0 else (findBytes pattern bytes).map (· + 1)

/-- The byte offset of the first occurrence of `pattern`. -/
def find (pattern t : List Char) : Option Nat := findBytes (encode pattern) (encode t)

/-! ### Encoding -/

section
variable {c d : Char} {t u : List Char} {bytes : List UInt8}

theorem encode_cons : encode (c :: t) = String.utf8EncodeChar c ++ encode t := List.flatMap_cons

theorem encode_append : encode (t ++ u) = encode t ++ encode u := List.flatMap_append

theorem decode_encode : decode (encode t) = some t := by
  show t.utf8Encode.utf8Decode?.map Array.toList = some t
  rw [List.utf8Decode?_utf8Encode]
  rfl

theorem encode_of_decode (h : decode bytes = some t) : encode t = bytes := by
  obtain ⟨array, harray, rfl⟩ := Option.map_eq_some_iff.mp h
  have hencode : (bytes.toByteArray.utf8Decode?.get (by rw [harray]; rfl)).toList.utf8Encode =
      bytes.toByteArray := ByteArray.utf8Encode_get_utf8Decode?
  simp only [harray, Option.get_some] at hencode
  exact List.toByteArray_inj.mp hencode

/-- No encoding is the beginning of another. -/
theorem utf8EncodeChar_inj {rest rest' : List UInt8}
    (h : String.utf8EncodeChar c ++ rest = String.utf8EncodeChar d ++ rest') : c = d := by
  have hc := ByteArray.utf8DecodeChar?_utf8EncodeChar_append (b := rest.toByteArray) (c := c)
  have hd := ByteArray.utf8DecodeChar?_utf8EncodeChar_append (b := rest'.toByteArray) (c := d)
  rw [← List.toByteArray_append] at hc hd
  rw [h, hd] at hc
  exact (Option.some.inj hc).symm

theorem encode_prefix_iff : encode t <+: encode u ↔ t <+: u := by
  constructor
  · intro h
    induction t generalizing u with
    | nil => exact List.nil_prefix
    | cons c t ih =>
      obtain ⟨rest, hrest⟩ := h
      cases u with
      | nil =>
        rw [encode_cons, List.append_assoc] at hrest
        exact absurd (List.append_eq_nil_iff.mp hrest).1 String.utf8EncodeChar_ne_nil
      | cons d u =>
        rw [encode_cons, encode_cons, List.append_assoc] at hrest
        obtain rfl := utf8EncodeChar_inj hrest
        have hprefix : encode t <+: encode u := ⟨rest, List.append_cancel_left hrest⟩
        exact List.cons_prefix_cons.mpr ⟨rfl, ih hprefix⟩
  · rintro ⟨rest, rfl⟩
    exact ⟨encode rest, encode_append.symm⟩

/-- The first byte of a character, and the bytes behind it. -/
theorem utf8EncodeChar_eq_cons (c : Char) :
    ∃ first rest, String.utf8EncodeChar c = first :: rest ∧ first.IsUTF8FirstByte ∧
      ∀ b ∈ rest, ¬ b.IsUTF8FirstByte := by
  cases h : String.utf8EncodeChar c with
  | nil => exact absurd h String.utf8EncodeChar_ne_nil
  | cons first rest =>
    have hfirst : ∀ (i : Nat) (b : UInt8), (first :: rest)[i]? = some b →
        (b.IsUTF8FirstByte ↔ i = 0) := by
      intro i b hb
      rw [← h] at hb
      obtain ⟨hi, rfl⟩ := List.getElem?_eq_some_iff.mp hb
      exact UInt8.isUTF8FirstByte_getElem_utf8EncodeChar
    refine ⟨first, rest, rfl, (hfirst 0 first rfl).mpr rfl, fun b hb hfb => ?_⟩
    obtain ⟨i, hi⟩ := List.mem_iff_getElem?.mp hb
    exact absurd ((hfirst (i + 1) b hi).mp hfb) (Nat.succ_ne_zero i)

theorem isBoundaryByte_of_first {b : UInt8} (h : b.IsUTF8FirstByte) : isBoundaryByte b = true := by
  have hall : ∀ n < 256, (UInt8.ofNat n).IsUTF8FirstByte →
      isBoundaryByte (UInt8.ofNat n) = true := by
    decide +kernel
  have hb := hall b.toNat b.toNat_lt
  rw [UInt8.ofNat_toNat] at hb
  exact hb h

/-! ### Slicing -/

theorem isCharBoundary_encode (t u : List Char) :
    isCharBoundary (encode (t ++ u)) (encode t).length = true := by
  unfold isCharBoundary
  rw [encode_append]
  cases u with
  | nil => simp [encode]
  | cons c u =>
    obtain ⟨first, rest, hc, hfirst, -⟩ := utf8EncodeChar_eq_cons c
    rw [List.getElem?_append_right (Nat.le_refl _), Nat.sub_self, encode_cons, hc]
    exact Bool.or_eq_true_iff.mpr (.inr (isBoundaryByte_of_first hfirst))

/-- Between two offsets that stand between characters is the text between them. -/
theorem slice_append (t u v : List Char) :
    slice (t ++ u ++ v) (encode t).length (encode (t ++ u)).length = some u := by
  unfold slice
  have hstart := isCharBoundary_encode t (u ++ v)
  rw [← List.append_assoc] at hstart
  have hle : (encode t).length ≤ (encode (t ++ u)).length := by
    rw [encode_append, List.length_append]
    exact Nat.le_add_right _ _
  dsimp only
  rw [if_pos ⟨hle, hstart, isCharBoundary_encode (t ++ u) v⟩, encode_append (t := t ++ u),
    List.take_left, encode_append, List.drop_left, decode_encode]

theorem encode_of_slice {start stop : Nat} (h : slice t start stop = some u) :
    start ≤ stop ∧ encode u = ((encode t).take stop).drop start := by
  unfold slice at h
  dsimp only at h
  split at h
  next hbounds => exact ⟨hbounds.1, encode_of_decode h⟩
  next => cases h

/-! ### Finding -/

/-- A pattern that begins with a character occurs at no byte behind the first of one. -/
theorem findBytes_skip {first : UInt8} (hfirst : first.IsUTF8FirstByte) (pattern : List UInt8)
    {rest : List UInt8} (hrest : ∀ b ∈ rest, ¬ b.IsUTF8FirstByte) (bytes : List UInt8) :
    findBytes (first :: pattern) (rest ++ bytes) =
      (findBytes (first :: pattern) bytes).map (· + rest.length) := by
  induction rest with
  | nil => exact Option.map_id'.symm
  | cons b rest ih =>
    rw [List.forall_mem_cons] at hrest
    have hno : ¬ first :: pattern <+: b :: (rest ++ bytes) := by
      intro hprefix
      obtain ⟨rfl, -⟩ := List.cons_prefix_cons.mp hprefix
      exact hrest.1 hfirst
    rw [List.cons_append, findBytes, if_neg hno, ih hrest.2, Option.map_map]
    rfl

theorem find_nil (h : t ≠ []) : find t [] = none := by
  obtain ⟨c, t, rfl⟩ := List.exists_cons_of_ne_nil h
  obtain ⟨first, rest, hc, -⟩ := utf8EncodeChar_eq_cons c
  unfold find
  rw [encode_cons, hc]
  rfl

/-- The search in the bytes goes on from character to character. -/
theorem find_cons (h : t ≠ []) :
    find t (c :: u) =
      if t <+: c :: u then some 0 else (find t u).map (· + (String.utf8EncodeChar c).length) := by
  obtain ⟨first, rest, hc, -, hrest⟩ := utf8EncodeChar_eq_cons c
  have hiff : encode t <+: first :: (rest ++ encode u) ↔ t <+: c :: u := by
    rw [← encode_prefix_iff, encode_cons, hc]
    rfl
  unfold find
  rw [encode_cons, hc, List.cons_append, findBytes, if_congr hiff rfl rfl]
  obtain ⟨d, t, rfl⟩ := List.exists_cons_of_ne_nil h
  obtain ⟨first', rest', hd, hfirst', -⟩ := utf8EncodeChar_eq_cons d
  rw [encode_cons, hd, List.cons_append, findBytes_skip hfirst' _ hrest, Option.map_map]
  rfl

end

end Utf8
