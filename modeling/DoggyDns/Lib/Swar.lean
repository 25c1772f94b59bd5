import Mathlib.Data.List.Basic
import Mathlib.Tactic.Common
import Mathlib.Tactic.Ring

/-!
# Bytes packed into a word

`leNat bs` is the little-endian value of the bytes `bs` and `le64 bs` the
64-bit word eight of them make. An operation that keeps every byte lane to
itself is a map over the bytes (`le64_map_or`, `le64_map_sub`, ...), which turns a
statement about all words into one about all bytes.

The zero-byte test `(w - 0x01..) & !w & 0x80..` does not keep its lanes apart:
above the lowest zero byte its flags are junk. `zeroFlags_eq` gives what is
exact, the lowest flag, and `lowBit` isolates it.
-/

namespace Swar

/-- The little-endian value of a byte list. -/
def leNat : List UInt8 → Nat
  | [] => 0
  | b :: bs => b.toNat + 256 * leNat bs

theorem leNat_lt (bs : List UInt8) : leNat bs < 256 ^ bs.length := by
  induction bs with
  | nil => simp [leNat]
  | cons b bs ih =>
    have hb := b.toNat_lt
    simp only [leNat, List.length_cons, Nat.pow_succ]
    omega

theorem leNat_append (as bs : List UInt8) :
    leNat (as ++ bs) = leNat as + 256 ^ as.length * leNat bs := by
  induction as with
  | nil => simp [leNat]
  | cons a as ih =>
    simp only [List.cons_append, leNat, ih, List.length_cons, Nat.pow_succ]
    ring

theorem leNat_zeros (n : Nat) : leNat (List.replicate n 0) = 0 := by
  induction n with
  | zero => rfl
  | succ n ih => simp [List.replicate_succ, leNat, ih]

/-- Zero padding on the high side leaves the value alone. -/
theorem leNat_append_zeros (bs : List UInt8) (n : Nat) :
    leNat (bs ++ List.replicate n 0) = leNat bs := by
  rw [leNat_append, leNat_zeros, Nat.mul_zero, Nat.add_zero]

theorem leNat_inj : ∀ {as bs : List UInt8}, as.length = bs.length → leNat as = leNat bs → as = bs
  | [], [], _, _ => rfl
  | a :: as, b :: bs, hl, h => by
    simp only [leNat] at h
    have ha := a.toNat_lt
    have hb := b.toNat_lt
    have h1 : a = b := UInt8.toNat_inj.mp (by omega)
    have h2 : leNat as = leNat bs := by omega
    rw [h1, leNat_inj (by simpa using hl) h2]

/-! ## Lane-wise operations -/

theorem land_lane {a b : Nat} (ha : a < 256) (hb : b < 256) (x y : Nat) :
    (a + 256 * x) &&& (b + 256 * y) = (a &&& b) + 256 * (x &&& y) := by
  have hab : a &&& b < 2 ^ 8 := Nat.lt_of_le_of_lt Nat.and_le_left ha
  apply Nat.eq_of_testBit_eq
  intro i
  rw [Nat.testBit_and, Nat.add_comm a, Nat.add_comm b, Nat.add_comm (a &&& b),
    show (256 : Nat) = 2 ^ 8 from rfl, Nat.testBit_two_pow_mul_add x ha,
    Nat.testBit_two_pow_mul_add y hb, Nat.testBit_two_pow_mul_add _ hab]
  split <;> rw [Nat.testBit_and]

theorem lor_lane {a b : Nat} (ha : a < 256) (hb : b < 256) (x y : Nat) :
    (a + 256 * x) ||| (b + 256 * y) = (a ||| b) + 256 * (x ||| y) := by
  have hab : a ||| b < 2 ^ 8 := Nat.or_lt_two_pow ha hb
  apply Nat.eq_of_testBit_eq
  intro i
  rw [Nat.testBit_or, Nat.add_comm a, Nat.add_comm b, Nat.add_comm (a ||| b),
    show (256 : Nat) = 2 ^ 8 from rfl, Nat.testBit_two_pow_mul_add x ha,
    Nat.testBit_two_pow_mul_add y hb, Nat.testBit_two_pow_mul_add _ hab]
  split <;> rw [Nat.testBit_or]

section Lanes

variable (bs : List UInt8) (f g : UInt8 → UInt8)

theorem leNat_map_and :
    leNat (bs.map f) &&& leNat (bs.map g) = leNat (bs.map fun b => f b &&& g b) := by
  induction bs with
  | nil => simp [leNat]
  | cons b bs ih =>
    simp only [List.map_cons, leNat, land_lane (f b).toNat_lt (g b).toNat_lt, ih, UInt8.toNat_and]

theorem leNat_map_or :
    leNat (bs.map f) ||| leNat (bs.map g) = leNat (bs.map fun b => f b ||| g b) := by
  induction bs with
  | nil => simp [leNat]
  | cons b bs ih =>
    simp only [List.map_cons, leNat, lor_lane (f b).toNat_lt (g b).toNat_lt, ih, UInt8.toNat_or]

variable {f g} in
/-- Subtraction borrows from no lane when no byte needs to. -/
theorem leNat_map_sub (h : ∀ b, g b ≤ f b) :
    leNat (bs.map g) ≤ leNat (bs.map f) ∧
      leNat (bs.map f) - leNat (bs.map g) = leNat (bs.map fun b => f b - g b) := by
  induction bs with
  | nil => exact ⟨Nat.le_refl _, rfl⟩
  | cons b bs ih =>
    have hb : (g b).toNat ≤ (f b).toNat := UInt8.le_iff_toNat_le.mp (h b)
    simp only [List.map_cons, leNat, UInt8.toNat_sub_of_le _ _ (h b)]
    omega

theorem leNat_map_not :
    256 ^ bs.length - 1 - leNat (bs.map f) = leNat (bs.map fun b => ~~~(f b)) := by
  induction bs with
  | nil => rfl
  | cons b bs ih =>
    have hb := (f b).toNat_lt
    have hlt := leNat_lt (bs.map f)
    have hnot : (~~~(f b)).toNat = 255 - (f b).toNat := by simp [UInt8.toNat_not]
    simp only [List.length_map] at hlt
    simp only [List.map_cons, leNat, List.length_cons, Nat.pow_succ, hnot]
    omega

variable {f} in
/-- A right shift that no lane loses bits in. -/
theorem leNat_map_shiftRight_two (h : ∀ b, (f b).toNat % 4 = 0) :
    leNat (bs.map f) % 4 = 0 ∧ leNat (bs.map f) >>> 2 = leNat (bs.map fun b => f b >>> 2) := by
  induction bs with
  | nil => simp [leNat]
  | cons b bs ih =>
    have hb := h b
    have hs : (f b >>> 2).toNat = (f b).toNat / 4 := by
      simp [UInt8.toNat_shiftRight, Nat.shiftRight_eq_div_pow]
    rw [Nat.shiftRight_eq_div_pow] at ih ⊢
    simp only [List.map_cons, leNat, hs]
    omega

end Lanes

/-! ## The 64-bit word -/

/-- The little-endian word of (at most) eight bytes. -/
def le64 (bs : List UInt8) : UInt64 := UInt64.ofNat (leNat bs)

theorem leNat_lt_size {bs : List UInt8} (h : bs.length ≤ 8) : leNat bs < UInt64.size := by
  calc leNat bs < 256 ^ bs.length := leNat_lt bs
    _ ≤ 256 ^ 8 := Nat.pow_le_pow_right (by decide) h

theorem toNat_le64 {bs : List UInt8} (h : bs.length ≤ 8) : (le64 bs).toNat = leNat bs :=
  UInt64.toNat_ofNat_of_lt' (leNat_lt_size h)

theorem le64_append_zeros (bs : List UInt8) (n : Nat) :
    le64 (bs ++ List.replicate n 0) = le64 bs := by
  rw [le64, leNat_append_zeros, le64]

theorem le64_inj {as bs : List UInt8} (hl : as.length = bs.length) (h8 : as.length ≤ 8)
    (h : le64 as = le64 bs) : as = bs := by
  refine leNat_inj hl ?_
  rw [← toNat_le64 h8, ← toNat_le64 (hl ▸ h8), h]

section Lanes64

variable {bs : List UInt8} (h8 : bs.length = 8) (f g : UInt8 → UInt8)
include h8

theorem le64_map_and :
    le64 (bs.map f) &&& le64 (bs.map g) = le64 (bs.map fun b => f b &&& g b) := by
  apply UInt64.toNat_inj.mp
  rw [UInt64.toNat_and, toNat_le64 (by simp [h8]), toNat_le64 (by simp [h8]),
    toNat_le64 (by simp [h8]), leNat_map_and]

theorem le64_map_or :
    le64 (bs.map f) ||| le64 (bs.map g) = le64 (bs.map fun b => f b ||| g b) := by
  apply UInt64.toNat_inj.mp
  rw [UInt64.toNat_or, toNat_le64 (by simp [h8]), toNat_le64 (by simp [h8]),
    toNat_le64 (by simp [h8]), leNat_map_or]

variable {f g} in
theorem le64_map_sub (h : ∀ b, g b ≤ f b) :
    le64 (bs.map f) - le64 (bs.map g) = le64 (bs.map fun b => f b - g b) := by
  obtain ⟨hle, hsub⟩ := leNat_map_sub bs h
  apply UInt64.toNat_inj.mp
  rw [UInt64.toNat_sub_of_le _ _ (UInt64.le_iff_toNat_le.mpr
      (by rw [toNat_le64 (by simp [h8]), toNat_le64 (by simp [h8])]; exact hle)),
    toNat_le64 (by simp [h8]), toNat_le64 (by simp [h8]), toNat_le64 (by simp [h8]), hsub]

theorem le64_map_not : ~~~(le64 (bs.map f)) = le64 (bs.map fun b => ~~~(f b)) := by
  apply UInt64.toNat_inj.mp
  rw [UInt64.toNat_not, toNat_le64 (by simp [h8]), toNat_le64 (by simp [h8]), ← leNat_map_not, h8]
  rfl

variable {f} in
theorem le64_map_shiftRight_two (h : ∀ b, (f b).toNat % 4 = 0) :
    le64 (bs.map f) >>> 2 = le64 (bs.map fun b => f b >>> 2) := by
  apply UInt64.toNat_inj.mp
  rw [UInt64.toNat_shiftRight, toNat_le64 (by simp [h8]), toNat_le64 (by simp [h8]),
    ← (leNat_map_shiftRight_two bs h).2]
  rfl

end Lanes64

/-- The word with the byte `c` in every lane. -/
theorem le64_map_const {bs : List UInt8} (h8 : bs.length = 8) (c : UInt8) :
    le64 (bs.map fun _ => c) = le64 (List.replicate 8 c) := by
  rw [List.map_const', h8]

/-- Lane `i` of the value, counted from the low end. -/
theorem leNat_lane : ∀ (bs : List UInt8) (i : Nat),
    leNat bs / 256 ^ i % 256 = (bs.getD i 0).toNat
  | [], i => by simp [leNat]
  | b :: bs, 0 => by
    have hb := b.toNat_lt
    simp only [leNat, Nat.pow_zero, Nat.div_one, List.getD_cons_zero]
    omega
  | b :: bs, i + 1 => by
    have hb := b.toNat_lt
    unfold leNat
    rw [Nat.pow_succ', ← Nat.div_div_eq_div_mul, Nat.add_mul_div_left _ _ (by decide),
      Nat.div_eq_of_lt hb, Nat.zero_add, leNat_lane bs i, List.getD_cons_succ]

theorem toNat_lane_le64 {bs : List UInt8} (h8 : bs.length = 8) {i : Nat} (hi : i < 8) :
    ((le64 bs >>> UInt64.ofNat (i * 8)) &&& 0xFF).toNat = (bs.getD i 0).toNat := by
  rw [UInt64.toNat_and, UInt64.toNat_shiftRight,
    UInt64.toNat_ofNat_of_lt' (by simp [UInt64.size]; omega),
    Nat.mod_eq_of_lt (by omega), toNat_le64 (by omega),
    show (0xFF : UInt64).toNat = 2 ^ 8 - 1 from rfl,
    Nat.and_two_pow_sub_one_eq_mod, Nat.shiftRight_eq_div_pow, Nat.mul_comm i, Nat.pow_mul]
  exact leNat_lane bs i

/-- Placing one more byte above the ones already packed. -/
theorem le64_snoc {bs : List UInt8} (h : bs.length < 8) (b : UInt8) :
    le64 bs ||| (b.toUInt64 <<< UInt64.ofNat (bs.length * 8)) = le64 (bs ++ [b]) := by
  have hb := b.toNat_lt
  have hlt := leNat_lt bs
  have hpow : 256 ^ bs.length = 2 ^ (bs.length * 8) := by
    rw [show 256 = 2 ^ 8 from rfl, ← Nat.pow_mul, Nat.mul_comm]
  have hbound : b.toNat * 2 ^ (bs.length * 8) < 2 ^ 64 := by
    calc b.toNat * 2 ^ (bs.length * 8) < 2 ^ 8 * 2 ^ (bs.length * 8) :=
          Nat.mul_lt_mul_of_pos_right hb (Nat.two_pow_pos _)
      _ = 2 ^ (8 + bs.length * 8) := (Nat.pow_add 2 8 _).symm
      _ ≤ 2 ^ 64 := Nat.pow_le_pow_right (by decide) (by omega)
  apply UInt64.toNat_inj.mp
  rw [UInt64.toNat_or, UInt64.toNat_shiftLeft,
    UInt64.toNat_ofNat_of_lt' (by simp [UInt64.size]; omega),
    Nat.mod_eq_of_lt (by omega : bs.length * 8 < 64), toNat_le64 (by omega),
      toNat_le64 (by simp; omega),
    UInt8.toNat_toUInt64, leNat_append, leNat, leNat, Nat.shiftLeft_eq, Nat.mod_eq_of_lt hbound,
    Nat.or_comm, Nat.mul_comm b.toNat, hpow, Nat.mul_zero, Nat.add_zero, Nat.add_comm]
  rw [hpow] at hlt
  exact (Nat.two_pow_add_eq_or_of_lt hlt b.toNat).symm

/-! ## The lowest set bit -/

/-- `x & -x` on `N`-bit words keeps the lowest set bit. -/
theorem land_neg_eq {x N j m : Nat} (hx : x = 2 ^ j * (2 * m + 1)) (hN : x < 2 ^ N) :
    x &&& (2 ^ N - x) = 2 ^ j := by
  have hj : 0 < 2 ^ j := Nat.two_pow_pos j
  have hpred : x = 2 ^ j * (2 * m) + (2 ^ j - 1) + 1 := by rw [hx, Nat.mul_add]; omega
  apply Nat.eq_of_testBit_eq
  intro i
  have h1 : x.testBit i = if i < j then false else (2 * m + 1).testBit (i - j) := by
    rw [hx, ← Nat.add_zero (2 ^ j * _), Nat.testBit_two_pow_mul_add _ hj, Nat.zero_testBit]
  have h2 : (2 ^ j * (2 * m) + (2 ^ j - 1)).testBit i
      = if i < j then true else (2 * m).testBit (i - j) := by
    rw [Nat.testBit_two_pow_mul_add _ (by omega), Nat.testBit_two_pow_sub_one]
    by_cases hi : i < j <;> simp [hi]
  have hNi : x.testBit i = true → i < N := by
    intro hb
    by_contra hge
    rw [Nat.testBit_lt_two_pow (Nat.lt_of_lt_of_le hN
      (Nat.pow_le_pow_right (by decide) (Nat.le_of_not_lt hge)))] at hb
    cases hb
  rw [Nat.testBit_and, Nat.testBit_two_pow]
  -- complement of the predecessor, bit by bit
  have h3 : (2 ^ N - x).testBit i
      = (decide (i < N) && !(2 ^ j * (2 * m) + (2 ^ j - 1)).testBit i) := by
    rw [hpred, Nat.testBit_two_pow_sub_succ (by omega)]
  rw [h3, h2]
  rcases Nat.lt_trichotomy i j with hlt | heq | hgt
  · simp [h1, hlt, Nat.ne_of_gt hlt]
  · subst heq
    have hb : x.testBit i = true := by simp [h1]
    simp [hb, hNi hb]
  · rw [h1, if_neg (by omega), if_neg (by omega)]
    obtain ⟨d, hd⟩ : ∃ d, i - j = d + 1 := ⟨i - j - 1, by omega⟩
    have hodd : (2 * m + 1).testBit (d + 1) = m.testBit d := by
      rw [Nat.testBit_succ]; congr 1; omega
    have heven : (2 * m).testBit (d + 1) = m.testBit d := by
      rw [Nat.testBit_succ]; congr 1; omega
    rw [hd, hodd, heven]
    cases m.testBit d <;> simp <;> omega

/-- Masking below a single bit is reduction modulo it. -/
theorem toNat_and_sub_one {w first : UInt64} {j : Nat} (h : first.toNat = 2 ^ j) :
    (w &&& (first - 1)).toNat = w.toNat % 2 ^ j := by
  have hpos : 0 < 2 ^ j := Nat.two_pow_pos j
  rw [UInt64.toNat_and, UInt64.toNat_sub_of_le _ _
    (UInt64.le_iff_toNat_le.mpr (by rw [h]; exact hpos)),
    h, show (1 : UInt64).toNat = 1 from rfl, Nat.and_two_pow_sub_one_eq_mod]

/-! ## The zero-byte test -/

/-- `(w - 0x01..) & !w & 0x80..` over `n` byte lanes. -/
def zeroFlags (n w : Nat) : Nat :=
  ((256 ^ n - leNat (List.replicate n 1) + w) % 256 ^ n) &&& (256 ^ n - 1 - w) &&&
    leNat (List.replicate n 0x80)

theorem leNat_replicate_lt (n : Nat) (c : UInt8) : leNat (List.replicate n c) < 256 ^ n := by
  simpa using leNat_lt (List.replicate n c)

theorem zero_flag_of_pos : ∀ {b : Nat}, 0 < b → b < 256 → (b - 1) &&& (255 - b) &&& 128 = 0 := by
  have h : ∀ b : Fin 256, 0 < b.val → (b.val - 1) &&& (255 - b.val) &&& 128 = 0 := by
    decide +kernel
  exact fun {b} h0 hb => h ⟨b, hb⟩ h0

theorem toNat_pos_of_notMem {b : UInt8} {bs : List UInt8} (h : 0 ∉ b :: bs) : 0 < b.toNat := by
  apply Nat.pos_of_ne_zero
  intro h0
  have : b = 0 := UInt8.toNat_inj.mp h0
  simp [this] at h

/-- A non-zero low byte raises no flag and passes no borrow on. -/
theorem zeroFlags_cons_ne {n b w : Nat} (h0 : 0 < b) (hb : b < 256) (hw : w < 256 ^ n) :
    zeroFlags (n + 1) (b + 256 * w) = 256 * zeroFlags n w := by
  have h1 := leNat_replicate_lt n 1
  have hsub : (256 ^ (n + 1) - leNat (List.replicate (n + 1) 1) + (b + 256 * w)) % 256 ^ (n + 1)
      = (b - 1) + 256 * ((256 ^ n - leNat (List.replicate n 1) + w) % 256 ^ n) := by
    have : 256 ^ (n + 1) - leNat (List.replicate (n + 1) 1) + (b + 256 * w)
        = (b - 1) + 256 * (256 ^ n - leNat (List.replicate n 1) + w) := by
      simp only [List.replicate_succ, leNat, Nat.pow_succ, show (1 : UInt8).toNat = 1 from rfl]
      omega
    rw [this, Nat.pow_succ, Nat.mul_comm (256 ^ n), Nat.mod_mul, Nat.add_mul_mod_self_left,
      Nat.mod_eq_of_lt (by omega), Nat.add_mul_div_left _ _ (by decide),
      Nat.div_eq_of_lt (by omega), Nat.zero_add]
  have hnot : 256 ^ (n + 1) - 1 - (b + 256 * w) = (255 - b) + 256 * (256 ^ n - 1 - w) := by
    rw [Nat.pow_succ]; omega
  have hlow : (b - 1) &&& (255 - b) &&& 128 = 0 := zero_flag_of_pos h0 hb
  unfold zeroFlags
  rw [hsub, hnot, land_lane (by omega) (by omega), List.replicate_succ, leNat,
    show (0x80 : UInt8).toNat = 128 from rfl,
    land_lane (Nat.lt_of_le_of_lt Nat.and_le_left (by omega)) (by decide), hlow, Nat.zero_add]

/-- A zero low byte raises its flag; what the borrow does above it is junk. -/
theorem zeroFlags_cons_zero {n w : Nat} (hw : w < 256 ^ n) :
    ∃ junk, zeroFlags (n + 1) (256 * w) = 128 + 256 * junk := by
  have h1 := leNat_replicate_lt n 1
  have hsub : (256 ^ (n + 1) - leNat (List.replicate (n + 1) 1) + 256 * w) % 256 ^ (n + 1)
      = 255 + 256 * ((256 ^ n - leNat (List.replicate n 1) + w - 1) % 256 ^ n) := by
    have : 256 ^ (n + 1) - leNat (List.replicate (n + 1) 1) + 256 * w
        = 255 + 256 * (256 ^ n - leNat (List.replicate n 1) + w - 1) := by
      simp only [List.replicate_succ, leNat, Nat.pow_succ, show (1 : UInt8).toNat = 1 from rfl]
      omega
    rw [this, Nat.pow_succ, Nat.mul_comm (256 ^ n), Nat.mod_mul, Nat.add_mul_mod_self_left,
      Nat.mod_eq_of_lt (by omega), Nat.add_mul_div_left _ _ (by decide),
      Nat.div_eq_of_lt (by omega), Nat.zero_add]
  have hnot : 256 ^ (n + 1) - 1 - 256 * w = 255 + 256 * (256 ^ n - 1 - w) := by
    rw [Nat.pow_succ]; omega
  unfold zeroFlags
  rw [hsub, hnot, land_lane (by decide) (by decide), List.replicate_succ, leNat,
    show (0x80 : UInt8).toNat = 128 from rfl, land_lane (by decide) (by decide)]
  exact ⟨_, rfl⟩

theorem zeroFlags_eq_zero {bs : List UInt8} (h : 0 ∉ bs) : zeroFlags bs.length (leNat bs) = 0 := by
  induction bs with
  | nil => simp [zeroFlags, leNat]
  | cons b bs ih =>
    rw [List.length_cons, leNat, zeroFlags_cons_ne (toNat_pos_of_notMem h) b.toNat_lt (leNat_lt bs),
      ih fun hm => h (List.mem_cons_of_mem _ hm), Nat.mul_zero]

/-- The lowest flag stands in the lane of the first zero byte. -/
theorem zeroFlags_eq {pre : List UInt8} (post : List UInt8) (h : 0 ∉ pre) :
    ∃ m, zeroFlags (pre ++ 0 :: post).length (leNat (pre ++ 0 :: post))
      = 2 ^ (8 * pre.length + 7) * (2 * m + 1) := by
  induction pre with
  | nil =>
    obtain ⟨junk, hj⟩ := zeroFlags_cons_zero (leNat_lt post)
    refine ⟨junk, ?_⟩
    simp only [List.nil_append, List.length_cons, leNat, List.length_nil,
      show (0 : UInt8).toNat = 0 from rfl, Nat.zero_add, hj]
    omega
  | cons b pre ih =>
    obtain ⟨m, hm⟩ := ih fun hm => h (List.mem_cons_of_mem _ hm)
    refine ⟨m, ?_⟩
    rw [List.cons_append, List.length_cons, leNat,
      zeroFlags_cons_ne (toNat_pos_of_notMem h) b.toNat_lt (leNat_lt _), hm,
      List.length_cons, Nat.mul_add 8,
      show 8 * pre.length + 8 * 1 + 7 = 8 * pre.length + 7 + 8 by omega,
      Nat.pow_add 2 _ 8]
    ring

/-- The test on 64-bit words. -/
def zeroFlags64 (w : UInt64) : UInt64 :=
  (w - 0x0101010101010101) &&& ~~~w &&& 0x8080808080808080

theorem toNat_zeroFlags64 {bs : List UInt8} (h8 : bs.length = 8) :
    (zeroFlags64 (le64 bs)).toNat = zeroFlags 8 (leNat bs) := by
  unfold zeroFlags64
  rw [UInt64.toNat_and, UInt64.toNat_and, UInt64.toNat_sub, UInt64.toNat_not,
    toNat_le64 (by omega)]
  rfl

theorem zeroFlags64_eq_zero_iff {bs : List UInt8} (h8 : bs.length = 8) :
    zeroFlags64 (le64 bs) = 0 ↔ 0 ∉ bs := by
  rw [← UInt64.toNat_inj, toNat_zeroFlags64 h8]
  constructor
  · intro hz hmem
    obtain ⟨pre, post, rfl, hpre⟩ := List.eq_append_cons_of_mem hmem
    obtain ⟨m, hm⟩ := zeroFlags_eq post hpre
    rw [h8, hz] at hm
    have := Nat.two_pow_pos (8 * pre.length + 7)
    simp at hm
  · intro h
    rw [← h8, zeroFlags_eq_zero h]
    rfl

/-- Isolating the lowest flag gives bit 7 of the first zero byte's lane. -/
theorem toNat_lowBit_zeroFlags64 {pre post : List UInt8} (h8 : (pre ++ 0 :: post).length = 8)
    (h : 0 ∉ pre) :
    (zeroFlags64 (le64 (pre ++ 0 :: post)) &&& -zeroFlags64 (le64 (pre ++ 0 :: post))).toNat
      = 2 ^ (8 * pre.length + 7) := by
  obtain ⟨m, hm⟩ := zeroFlags_eq post h
  rw [h8, ← toNat_zeroFlags64 h8] at hm
  generalize zeroFlags64 (le64 (pre ++ 0 :: post)) = z at hm
  have hz : z.toNat < 2 ^ 64 := z.toNat_lt
  have hpos : 0 < z.toNat := by rw [hm]; exact Nat.mul_pos (Nat.two_pow_pos _) (by omega)
  rw [UInt64.toNat_and, UInt64.toNat_neg, Nat.mod_eq_of_lt (Nat.sub_lt (by decide) hpos)]
  exact land_neg_eq hm hz

/-- The bytes below the first zero byte, by the mask below its flag. -/
theorem le64_and_below {pre post : List UInt8} (h8 : (pre ++ 0 :: post).length = 8) {first : UInt64}
    (hf : first.toNat = 2 ^ (8 * pre.length + 7)) :
    le64 (pre ++ 0 :: post) &&& (first - 1) = le64 pre := by
  have hlen : pre.length ≤ 8 := by simp at h8; omega
  apply UInt64.toNat_inj.mp
  rw [toNat_and_sub_one hf, toNat_le64 (by omega), toNat_le64 hlen, leNat_append, leNat]
  have hlt : leNat pre < 2 ^ (8 * pre.length + 7) :=
    calc leNat pre < 256 ^ pre.length := leNat_lt pre
      _ = 2 ^ (8 * pre.length) := by rw [show 256 = 2 ^ 8 from rfl, ← Nat.pow_mul]
      _ ≤ 2 ^ (8 * pre.length + 7) := Nat.pow_le_pow_right (by decide) (by omega)
  have hmul : 256 ^ pre.length * ((0 : UInt8).toNat + 256 * leNat post)
      = 2 ^ (8 * pre.length + 7) * (2 * leNat post) := by
    rw [show 256 ^ pre.length = 2 ^ (8 * pre.length) by
      rw [show 256 = 2 ^ 8 from rfl, ← Nat.pow_mul], Nat.pow_add,
      show (0 : UInt8).toNat = 0 from rfl]
    ring
  rw [hmul, Nat.add_mul_mod_self_left, Nat.mod_eq_of_lt hlt]

end Swar
