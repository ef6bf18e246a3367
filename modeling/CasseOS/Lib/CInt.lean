import Mathlib.Data.Int.Basic
import Mathlib.Data.UInt
import Mathlib.Tactic.Common

/-! # Fixed-width integers of C

`int` values are integers kept in range by `wrap32` (two's complement), and
`uint32_t` values are naturals reduced by `u32`, `size_t` values by `u64`.
Conversions to narrower types reduce modulo the width; `/` on `int` truncates
and is written `Int.tdiv`. -/

namespace CasseOS.CInt

def wrap32 (x : ℤ) : ℤ := (x + 2147483648) % 4294967296 - 2147483648
def u32 (x : ℕ) : ℕ := x % 4294967296
def u16 (x : ℕ) : ℕ := x % 65536
def u64 (x : ℕ) : ℕ := x % 18446744073709551616

/- `(uint32_t)x` for an `int`. -/
def toU32 (x : ℤ) : ℕ := (x % 4294967296).toNat

/- `(unsigned char)x` for an `int`. -/
def toByte (x : ℤ) : UInt8 := UInt8.ofNat (x % 256).toNat

theorem wrap32_of_range {x : ℤ} (hl : -2147483648 ≤ x) (hu : x < 2147483648) :
    wrap32 x = x := by
  unfold wrap32
  omega

theorem u32_of_lt {x : ℕ} (h : x < 4294967296) : u32 x = x := Nat.mod_eq_of_lt h

theorem u16_of_lt {x : ℕ} (h : x < 65536) : u16 x = x := Nat.mod_eq_of_lt h

theorem u64_of_lt {x : ℕ} (h : x < 18446744073709551616) : u64 x = x := Nat.mod_eq_of_lt h

theorem toU32_natCast {x : ℕ} (h : x < 4294967296) : toU32 x = x := by
  unfold toU32
  omega

theorem toByte_toNat (x : ℤ) : ((toByte x).toNat : ℤ) = x % 256 := by
  have h1 : (x % 256).toNat < 256 := by omega
  have h2 : (toByte x).toNat = (x % 256).toNat := by
    simp only [toByte, UInt8.toNat_ofNat']
    exact Nat.mod_eq_of_lt h1
  rw [h2]
  omega

/- Truncating division of a non-negative number. -/
theorem tdiv_natCast (a b : ℕ) : Int.tdiv (a : ℤ) (b : ℤ) = ((a / b : ℕ) : ℤ) :=
  (Int.ofNat_tdiv a b).symm

theorem tmod_natCast (a b : ℕ) : Int.tmod (a : ℤ) (b : ℤ) = ((a % b : ℕ) : ℤ) :=
  (Int.ofNat_tmod a b).symm

/- Masking the low `k` bits of a word of `w` bits rounds down. -/
theorem and_mask {w x k : ℕ} (hk : k ≤ w) (hx : x < 2 ^ w) :
    x &&& (2 ^ w - 1 - (2 ^ k - 1)) = x / 2 ^ k * 2 ^ k := by
  have hpow : 2 ^ k ≤ 2 ^ w := Nat.pow_le_pow_right (by decide) hk
  have hpos : 0 < 2 ^ k := Nat.two_pow_pos k
  have hmask : 2 ^ w - 1 - (2 ^ k - 1) = 2 ^ w - ((2 ^ k - 1) + 1) := by omega
  refine Nat.eq_of_testBit_eq fun i => ?_
  rw [hmask, Nat.testBit_and, Nat.testBit_two_pow_sub_succ (by omega), Nat.testBit_two_pow_sub_one,
    Nat.testBit_mul_two_pow, Nat.testBit_div_two_pow]
  by_cases hi : k ≤ i
  · rw [decide_eq_false (by omega : ¬i < k), decide_eq_true hi, Nat.sub_add_cancel hi]
    by_cases hw : i < w
    · simp [hw]
    · have hz : x.testBit i = false := Nat.testBit_lt_two_pow
        (Nat.lt_of_lt_of_le hx (Nat.pow_le_pow_right (by decide) (by omega)))
      simp [hz]
  · rw [decide_eq_true (by omega : i < k), decide_eq_false hi]
    simp

/- A field above all bits of `x` is added to it, but for its bits that do not fit. -/
theorem toNat_or_field {x y k : UInt32} {n : ℕ} (hk : k.toNat = n) (hn : n < 32)
    (hx : x.toNat < 2 ^ n) :
    (x ||| y <<< k).toNat = x.toNat + y.toNat % 2 ^ (32 - n) * 2 ^ n := by
  have hpow : (2 : ℕ) ^ 32 = 2 ^ (32 - n) * 2 ^ n := by
    rw [← pow_add, Nat.sub_add_cancel (Nat.le_of_lt hn)]
  have hshift : (y <<< k).toNat = (y.toNat % 2 ^ (32 - n)) <<< n := by
    rw [UInt32.toNat_shiftLeft, hk, Nat.mod_eq_of_lt hn, Nat.shiftLeft_eq, Nat.shiftLeft_eq,
      hpow, Nat.mul_mod_mul_right]
  rw [UInt32.toNat_or, hshift, Nat.or_comm, ← Nat.shiftLeft_add_eq_or_of_lt hx,
    Nat.shiftLeft_eq, Nat.add_comm]

end CasseOS.CInt
