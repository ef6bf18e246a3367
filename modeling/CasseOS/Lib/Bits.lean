import Mathlib.Data.BitVec
import Mathlib.Data.UInt
import Mathlib.Tactic.Common

/-! # Words by the bit

Machine words that agree in every bit are the same, and the bits of what the
operations give. -/

namespace CasseOS.Bits

def bitOf (v : UInt32) (i : ℕ) : Bool := v.toBitVec.getLsbD i

theorem eq_of_bits {v w : UInt32} (h : ∀ i < 32, bitOf v i = bitOf w i) : v = w :=
  UInt32.toBitVec_inj.mp (BitVec.eq_of_getLsbD_eq h)

theorem bitOf_or (v w : UInt32) (i : ℕ) : bitOf (v ||| w) i = (bitOf v i || bitOf w i) := by
  simp [bitOf]

theorem bitOf_and (v w : UInt32) (i : ℕ) : bitOf (v &&& w) i = (bitOf v i && bitOf w i) := by
  simp [bitOf]

theorem bitOf_xor (v w : UInt32) (i : ℕ) : bitOf (v ^^^ w) i = (bitOf v i ^^ bitOf w i) := by
  simp [bitOf]

theorem bitOf_not (v : UInt32) {i : ℕ} (hi : i < 32) : bitOf (~~~v) i = !bitOf v i := by
  simp [bitOf, hi]

theorem and_bit_ne_zero (v : UInt32) {m : UInt32} {k : ℕ} (hm : m.toBitVec = BitVec.twoPow 32 k)
    (hk : k < 32) : v &&& m ≠ 0 ↔ bitOf v k = true := by
  rw [ne_eq, ← UInt32.toBitVec_inj, UInt32.toBitVec_and, hm, BitVec.and_twoPow, bitOf]
  cases hbit : v.toBitVec.getLsbD k with
  | false => simp
  | true =>
    simp only [if_true, iff_true]
    intro hzero
    have hcontra := congrArg (fun b : BitVec 32 => b.getLsbD k) hzero
    simp [hk] at hcontra

theorem bitOf_twoPow {m : UInt32} {k i : ℕ} (hm : m.toBitVec = BitVec.twoPow 32 k) (hi : i < 32) :
    bitOf m i = decide (k = i) := by
  rw [bitOf, hm, BitVec.getLsbD_twoPow]
  by_cases hk : k = i
  · subst hk
    simp [hi]
  · simp [hk]

/- Bits set in the lower half of a word that is taken apart and put together. -/
theorem halves_or (v : UInt64) (w : UInt32) :
    ((v >>> 32).toUInt32.toUInt64 <<< 32) ||| (v.toUInt32 ||| w).toUInt64 = v ||| w.toUInt64 := by
  have hamount : (32 : UInt64).toBitVec % 64 = 32 := rfl
  refine UInt64.toBitVec_inj.mp (BitVec.eq_of_getLsbD_eq fun i hi => ?_)
  simp only [UInt64.toBitVec_or, UInt64.toBitVec_shiftLeft, UInt64.toBitVec_shiftRight, hamount,
    UInt32.toBitVec_toUInt64, UInt64.toBitVec_toUInt32, UInt32.toBitVec_or, BitVec.getLsbD_or,
    BitVec.getLsbD_setWidth, BitVec.shiftLeft_eq', BitVec.ushiftRight_eq', BitVec.getLsbD_shiftLeft,
    BitVec.getLsbD_ushiftRight, hi, decide_true, Bool.true_and]
  by_cases h : i < 32
  · simp [h]
  · have hlow : i - 32 < 32 := by omega
    have hwide : i - 32 < 64 := by omega
    have hsum : 32 + (i - 32) = i := by omega
    simp [h, hlow, hwide, hsum, hi]

/- A bit that was set is set. -/
theorem or_and_bit (v m : UInt32) : (v ||| m) &&& m = m := by
  refine eq_of_bits fun i hi => ?_
  rw [bitOf_and, bitOf_or]
  cases bitOf m i <;> simp

theorem or_and_bit64 (v m : UInt64) : (v ||| m) &&& m = m := by
  refine UInt64.toBitVec_inj.mp (BitVec.eq_of_getLsbD_eq fun i hi => ?_)
  rw [UInt64.toBitVec_and, UInt64.toBitVec_or, BitVec.getLsbD_and, BitVec.getLsbD_or]
  cases m.toBitVec.getLsbD i <;> simp

end CasseOS.Bits
