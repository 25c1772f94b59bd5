import DoggyDns.Lib.Bytes
import DoggyDns.Lib.Swar

/-!
# Hashing a byte string one word at a time

A `WordHasher` folds 64-bit words into a running value. `words bs` is the
stream it folds for a byte string: little-endian words of eight bytes, the last
one zero-padded. `stream` is the free hasher, whose running value is the stream
itself; every other hasher is a function of it, so a statement about `stream`
is the statement about an injective hash.

`words_eq_iff` says what the padding forgets: two byte strings have one stream
exactly when they take as many words and agree on every byte, reading zero past
the end.
-/

namespace WordHash

open Bytes Swar

/-- A running hash over 64-bit words. -/
structure WordHasher (H : Type) where
  basis : H
  word : H → UInt64 → H

/-- The hash of a word stream. -/
def WordHasher.run {H : Type} (hs : WordHasher H) (ws : List UInt64) : H :=
  ws.foldl hs.word hs.basis

/-- The free hasher: its value is the stream of words it was given. -/
def stream : WordHasher (List UInt64) where
  basis := []
  word ws w := ws ++ [w]

theorem run_stream (ws : List UInt64) : stream.run ws = ws := by
  have h : ∀ acc, ws.foldl stream.word acc = acc ++ ws := by
    induction ws with
    | nil => simp
    | cons w ws ih => intro acc; rw [List.foldl_cons, ih]; simp [stream]
  exact h []

/-- A step loses neither the running value nor the word. -/
structure WordHasher.Cancels {H : Type} (hs : WordHasher H) : Prop where
  hash : ∀ {h h' w}, hs.word h w = hs.word h' w → h = h'
  word : ∀ {h w w'}, hs.word h w = hs.word h w' → w = w'

theorem WordHasher.Cancels.foldl {H : Type} {hs : WordHasher H} (hc : hs.Cancels)
    {ws : List UInt64} {h h' : H} (heq : ws.foldl hs.word h = ws.foldl hs.word h') : h = h' := by
  induction ws generalizing h h' with
  | nil => exact heq
  | cons w ws ih => exact hc.hash (ih heq)

/-- Streams that differ in one word alone hash differently. -/
theorem WordHasher.Cancels.run_ne {H : Type} {hs : WordHasher H} (hc : hs.Cancels)
    {as bs : List UInt64} (hlen : as.length = bs.length) (hone : ∃! i : Nat, as[i]? ≠ bs[i]?) :
    hs.run as ≠ hs.run bs := by
  unfold WordHasher.run
  generalize hs.basis = h
  induction as generalizing bs h with
  | nil =>
    obtain ⟨i, hi, -⟩ := hone
    rw [List.length_eq_zero_iff.mp hlen.symm] at hi
    exact absurd rfl hi
  | cons a as ih =>
    cases bs with
    | nil => cases hlen
    | cons b bs =>
    obtain ⟨i, hi, honly⟩ := hone
    rw [List.foldl_cons, List.foldl_cons]
    cases i with
    | zero =>
      -- the rest agrees word for word
      have hrest : as = bs := by
        apply List.ext_getElem?
        intro j
        by_contra hj
        cases honly (j + 1) hj
      rw [hrest]
      intro heq
      refine hi ?_
      rw [List.getElem?_cons_zero, List.getElem?_cons_zero, hc.word (hc.foldl heq)]
    | succ i =>
      have hab : a = b := by
        by_contra hne
        cases honly 0 fun h => hne (Option.some.inj h)
      rw [hab]
      exact ih (Nat.succ.inj hlen) ⟨i, hi, fun j hj => Nat.succ.inj (honly (j + 1) hj)⟩ _

/-- Whole eight-byte chunks and the shorter tail. -/
def asChunks : List UInt8 → List (List UInt8) × List UInt8
  | b0 :: b1 :: b2 :: b3 :: b4 :: b5 :: b6 :: b7 :: rest =>
    let (chunks, tail) := asChunks rest
    ([b0, b1, b2, b3, b4, b5, b6, b7] :: chunks, tail)
  | tail => ([], tail)

/-- The zero-padded little-endian words of a byte string. -/
def words : List UInt8 → List UInt64
  | [] => []
  | b0 :: b1 :: b2 :: b3 :: b4 :: b5 :: b6 :: b7 :: rest =>
    le64 [b0, b1, b2, b3, b4, b5, b6, b7] :: words rest
  | b :: tail => [le64 (b :: tail)]

theorem words_nil : words [] = [] := rfl

theorem exists_eight : ∀ {as : List UInt8}, as.length = 8 →
    ∃ b0 b1 b2 b3 b4 b5 b6 b7, as = [b0, b1, b2, b3, b4, b5, b6, b7]
  | [b0, b1, b2, b3, b4, b5, b6, b7], _ => ⟨b0, b1, b2, b3, b4, b5, b6, b7, rfl⟩

theorem words_append {as : List UInt8} (h : as.length = 8) (bs : List UInt8) :
    words (as ++ bs) = le64 as :: words bs := by
  obtain ⟨b0, b1, b2, b3, b4, b5, b6, b7, rfl⟩ := exists_eight h
  rfl

theorem words_tail : ∀ {bs : List UInt8}, bs ≠ [] → bs.length < 8 → words bs = [le64 bs]
  | [], h, _ => absurd rfl h
  | [_], _, _ => rfl
  | [_, _], _, _ => rfl
  | [_, _, _], _, _ => rfl
  | [_, _, _, _], _, _ => rfl
  | [_, _, _, _, _], _, _ => rfl
  | [_, _, _, _, _, _], _, _ => rfl
  | [_, _, _, _, _, _, _], _, _ => rfl
  | _ :: _ :: _ :: _ :: _ :: _ :: _ :: _ :: _, _, h => by simp at h; omega

/-- A short non-empty string is one word, and so is a string of exactly eight. -/
theorem words_one {bs : List UInt8} (h0 : bs ≠ []) (h : bs.length ≤ 8) : words bs = [le64 bs] := by
  rcases Nat.lt_or_eq_of_le h with hlt | heq
  · exact words_tail h0 hlt
  · rw [← List.append_nil bs, words_append heq, words_nil, List.append_nil]

/-- Induction along the chunks of a byte string. -/
theorem chunkInduction {P : List UInt8 → Prop} (tail : ∀ bs, bs.length < 8 → P bs)
    (step : ∀ as bs, as.length = 8 → P bs → P (as ++ bs)) : ∀ bs, P bs := by
  intro bs
  induction hn : bs.length using Nat.strongRecOn generalizing bs with
  | _ n ih =>
    by_cases h : bs.length < 8
    · exact tail bs h
    · rw [← List.take_append_drop 8 bs]
      exact step _ _ (by simp; omega) (ih _ (by simp; omega) _ rfl)

theorem asChunks_append {as : List UInt8} (h : as.length = 8) (bs : List UInt8) :
    asChunks (as ++ bs) = (as :: (asChunks bs).1, (asChunks bs).2) := by
  obtain ⟨b0, b1, b2, b3, b4, b5, b6, b7, rfl⟩ := exists_eight h
  rfl

theorem asChunks_tail : ∀ {bs : List UInt8}, bs.length < 8 → asChunks bs = ([], bs)
  | [], _ => rfl
  | [_], _ => rfl
  | [_, _], _ => rfl
  | [_, _, _], _ => rfl
  | [_, _, _, _], _ => rfl
  | [_, _, _, _, _], _ => rfl
  | [_, _, _, _, _, _], _ => rfl
  | [_, _, _, _, _, _, _], _ => rfl
  | _ :: _ :: _ :: _ :: _ :: _ :: _ :: _ :: _, h => by simp at h; omega

/-- The stream is the chunks' words and then the padded tail, if there is one. -/
theorem words_eq_asChunks (bs : List UInt8) :
    words bs = (asChunks bs).1.map le64 ++
      if (asChunks bs).2.isEmpty then [] else [le64 (asChunks bs).2] := by
  induction bs using chunkInduction with
  | tail bs h =>
    rw [asChunks_tail h]
    cases bs with
    | nil => rfl
    | cons b bs => exact words_tail (List.cons_ne_nil b bs) h
  | step as bs h ih => rw [words_append h, asChunks_append h, ih]; rfl

/-! ## What the padding forgets -/

/-- `bs` zero-padded to a whole number of words. -/
def pad (bs : List UInt8) : List UInt8 := bs ++ List.replicate ((8 - bs.length % 8) % 8) 0

theorem length_pad (bs : List UInt8) : (pad bs).length = 8 * ((bs.length + 7) / 8) := by
  simp only [pad, List.length_append, List.length_replicate]
  omega

theorem byteAt_append_zeros (bs : List UInt8) (n i : Nat) :
    byteAt (bs ++ List.replicate n 0) i = byteAt bs i := by
  simp only [byteAt, List.getD_eq_getElem?_getD]
  by_cases h : i < bs.length
  · rw [List.getElem?_append_left h]
  · have hnone : bs[i]? = none := List.getElem?_eq_none (by omega)
    rw [List.getElem?_append_right (by omega), hnone, List.getElem?_replicate]
    split <;> rfl

theorem pad_append {as : List UInt8} (h : as.length = 8) (bs : List UInt8) :
    pad (as ++ bs) = as ++ pad bs := by
  simp [pad, h]

theorem words_pad (bs : List UInt8) : words (pad bs) = words bs := by
  induction bs using chunkInduction with
  | tail bs h =>
    rcases bs with _ | ⟨b, bs⟩
    · rfl
    · rw [words_tail (List.cons_ne_nil b bs) h,
        words_one (by simp [pad]) (by rw [length_pad]; omega),
        pad, le64_append_zeros]
  | step as bs h ih => rw [pad_append h, words_append h, words_append h, ih]

theorem words_inj_of_aligned {as bs : List UInt8} (ha : as.length % 8 = 0) (hb : bs.length % 8 = 0)
    (h : words as = words bs) : as = bs := by
  induction as using chunkInduction generalizing bs with
  | tail as hlt =>
    obtain rfl : as = [] := List.length_eq_zero_iff.mp (by omega)
    rcases bs with _ | ⟨b, bs⟩
    · rfl
    · rw [← List.take_append_drop 8 (b :: bs), words_append (by simp at hb ⊢; omega)] at h
      cases h
  | step as as' h8 ih =>
    simp only [List.length_append, h8] at ha
    by_cases hlt : bs.length < 8
    · obtain rfl : bs = [] := List.length_eq_zero_iff.mp (by omega)
      rw [words_append h8] at h
      cases h
    · rw [← List.take_append_drop 8 bs] at h ⊢
      have ht : (bs.take 8).length = 8 := by simp; omega
      rw [words_append h8, words_append ht] at h
      injection h with h1 h2
      rw [le64_inj (by omega) (by omega) h1, ih (by omega) (by simp; omega) h2]

theorem pad_eq_iff (as bs : List UInt8) :
    pad as = pad bs ↔
      (as.length + 7) / 8 = (bs.length + 7) / 8 ∧ ∀ i, byteAt as i = byteAt bs i := by
  constructor
  · intro h
    refine ⟨?_, fun i => ?_⟩
    · have := congrArg List.length h
      rw [length_pad, length_pad] at this
      omega
    · rw [← byteAt_append_zeros as, ← byteAt_append_zeros bs]
      exact congrArg (byteAt · i) h
  · rintro ⟨hl, hb⟩
    apply List.ext_getElem?
    intro i
    have hlen : (pad as).length = (pad bs).length := by rw [length_pad, length_pad, hl]
    by_cases hi : i < (pad as).length
    · rw [getElem?_of_lt hi, getElem?_of_lt (hlen ▸ hi)]
      simp only [pad, byteAt_append_zeros, hb]
    · rw [List.getElem?_eq_none (by omega), List.getElem?_eq_none (by omega)]

/-- Two byte strings make one word stream exactly when they fill as many words
and agree on every byte, zero past the end. -/
theorem words_eq_iff (as bs : List UInt8) :
    words as = words bs ↔
      (as.length + 7) / 8 = (bs.length + 7) / 8 ∧ ∀ i, byteAt as i = byteAt bs i := by
  rw [← pad_eq_iff]
  constructor
  · intro h
    rw [← words_pad as, ← words_pad bs] at h
    exact words_inj_of_aligned (by rw [length_pad]; omega) (by rw [length_pad]; omega) h
  · intro h
    rw [← words_pad as, ← words_pad bs, h]

/-- Padding forgets trailing zeros as long as they stay in one word. -/
theorem words_append_zeros (body : List UInt8) (z : Nat) :
    words (body ++ [0]) = words (body ++ List.replicate (z + 1) 0) ↔
      body.length / 8 = (body.length + z) / 8 := by
  rw [words_eq_iff, show ([0] : List UInt8) = List.replicate 1 0 from rfl]
  simp only [byteAt_append_zeros, implies_true, and_true, List.length_append, List.length_replicate]
  omega

/-- A zero-terminated string with the stream of a string cut at its first zero is
that cut string and more zeros. -/
theorem eq_append_zeros_of_words_eq {body w : List UInt8} (h0 : 0 ∉ body) (hw : ∃ b, w = b ++ [0])
    (h : words (body ++ [0]) = words w) : ∃ z, w = body ++ List.replicate (z + 1) 0 := by
  obtain ⟨-, hb⟩ := (words_eq_iff _ _).mp h
  rw [show ([0] : List UInt8) = List.replicate 1 0 from rfl] at hb
  simp only [byteAt_append_zeros] at hb
  obtain ⟨b, rfl⟩ := hw
  have hlast : byteAt (b ++ [0]) b.length = 0 := by simp [byteAt, List.getD_eq_getElem?_getD]
  -- the last zero stands past the body, where every byte before it is nonzero
  have hlen : body.length ≤ b.length := by
    by_contra hlt
    refine h0 (List.mem_iff_getElem?.mpr ⟨b.length, ?_⟩)
    rw [getElem?_of_lt (by omega), hb, hlast]
  refine ⟨b.length - body.length, ?_⟩
  have hl : (b ++ [0]).length = (body ++ List.replicate (b.length - body.length + 1) 0).length := by
    simp only [List.length_append, List.length_singleton, List.length_replicate]
    omega
  apply List.ext_getElem?
  intro i
  by_cases hi : i < (b ++ [0]).length
  · rw [getElem?_of_lt hi, getElem?_of_lt (hl ▸ hi), byteAt_append_zeros, hb]
  · rw [List.getElem?_eq_none (by omega), List.getElem?_eq_none (by omega)]

end WordHash
