import Mathlib.Tactic.Ring
import DoggyDns.Lib.Bytes

/-!
# One's-complement sums

The 16-bit sum with end-around carry that the internet checksum is built on. It
is the ordinary total modulo `2^16 - 1`, except that the residue zero has two
representations: `0x0000` for a total of zero and `0xFFFF` for every other
multiple. `sum_eq_ones_iff` says so, and reduces a checksum that verifies to a
congruence of totals.
-/

namespace OnesComplement

open Bytes

/-- Addition with end-around carry. -/
def add (a b : Nat) : Nat := if a + b < 2 ^ 16 then a + b else a + b - (2 ^ 16 - 1)

/-- The one's-complement sum of 16-bit words. -/
def sum (ws : List UInt16) : Nat := ws.foldl (fun s w => add s w.toNat) 0

/-- The ordinary sum. -/
def total (ws : List UInt16) : Nat := (ws.map UInt16.toNat).sum

/-- The big-endian words of a byte string; an odd last byte is padded with zero. -/
def beWords : List UInt8 → List UInt16
  | a :: b :: rest => be16 a b :: beWords rest
  | [a] => [be16 a 0]
  | [] => []

/-- One fold of the carries into the low 16 bits. -/
def foldCarry (n : Nat) : Nat := n % 2 ^ 16 + n / 2 ^ 16

@[simp] theorem total_append (ws vs : List UInt16) : total (ws ++ vs) = total ws + total vs := by
  simp [total]

theorem beWords_append {xs : List UInt8} (ys : List UInt8) (h : xs.length % 2 = 0) :
    beWords (xs ++ ys) = beWords xs ++ beWords ys := by
  induction xs using beWords.induct with
  | case1 a b rest ih =>
    simp only [List.cons_append, beWords]
    rw [ih (by simp only [List.length_cons] at h; omega)]
  | case2 a => simp at h
  | case3 => rfl

/-- Each addition keeps the residue, stays in range and is zero only for zeros. -/
theorem foldl_add (ws : List UInt16) : ∀ {s : Nat}, s < 2 ^ 16 →
    ws.foldl (fun s w => add s w.toNat) s < 2 ^ 16 ∧
    ws.foldl (fun s w => add s w.toNat) s % (2 ^ 16 - 1) = (s + total ws) % (2 ^ 16 - 1) ∧
    (ws.foldl (fun s w => add s w.toNat) s = 0 ↔ s + total ws = 0) := by
  induction ws with
  | nil => intro s hs; simpa [total] using hs
  | cons w ws ih =>
    intro s hs
    have hw := w.toNat_lt
    have htotal : total (w :: ws) = w.toNat + total ws := by simp [total]
    have hadd : add s w.toNat = s + w.toNat ∨
        2 ^ 16 ≤ s + w.toNat ∧ add s w.toNat = s + w.toNat - (2 ^ 16 - 1) := by
      unfold add
      split
      · exact .inl rfl
      · exact .inr ⟨by omega, rfl⟩
    obtain ⟨hlt, hmod, hzero⟩ := @ih (add s w.toNat) (by unfold add; split <;> omega)
    rw [List.foldl_cons, htotal]
    exact ⟨hlt, by omega, by omega⟩

/-- The sum reads `0xFFFF` exactly for a non-zero multiple of `2^16 - 1`. -/
theorem sum_eq_ones_iff (ws : List UInt16) :
    sum ws = 0xFFFF ↔ total ws % (2 ^ 16 - 1) = 0 ∧ total ws ≠ 0 := by
  obtain ⟨hlt, hmod, hzero⟩ := foldl_add ws (s := 0) (by decide)
  simp only [Nat.zero_add] at hmod hzero
  unfold sum
  omega

theorem foldCarry_mod (n : Nat) : foldCarry n % (2 ^ 16 - 1) = n % (2 ^ 16 - 1) := by
  unfold foldCarry
  omega

/-- Two folds bring five 16-bit addends back to 16 bits. -/
theorem foldCarry_foldCarry_lt {n : Nat} (h : n ≤ 5 * (2 ^ 16 - 1)) :
    foldCarry (foldCarry n) < 2 ^ 16 := by
  unfold foldCarry
  omega

end OnesComplement
