import Mathlib.Data.UInt
import Mathlib.Logic.Function.Basic
import Mathlib.Tactic.Common

/-! # A stack in memory

The stack grows down by words of eight bytes; its pointer wraps around. What is on
it is the list of the words from the pointer on, the last one pushed first. -/

namespace CasseOS
variable {V : Type*}

structure Stack (V : Type*) where
  sp : UInt64
  mem : UInt64 → V

namespace Stack

def push (s : Stack V) (v : V) : Stack V := ⟨s.sp - 8, Function.update s.mem (s.sp - 8) v⟩

/- The address of the word number `i` from `a` on. -/
def slot (a : UInt64) (i : ℕ) : UInt64 := a + 8 * UInt64.ofNat i

theorem slot_zero (a : UInt64) : slot a 0 = a := by
  rw [slot]
  exact (congrArg (a + ·) (UInt64.mul_zero)).trans (UInt64.add_zero a)

theorem slot_succ (a : UInt64) (i : ℕ) : slot a (i + 1) = slot (a + 8) i := by
  have hone : UInt64.ofNat 1 = 1 := rfl
  rw [slot, slot, UInt64.ofNat_add, hone]
  grind

/- The words in memory from an address on. -/
def Holds (mem : UInt64 → V) : UInt64 → List V → Prop
  | _, [] => True
  | a, w :: ws => mem a = w ∧ Holds mem (a + 8) ws

variable {s : Stack V} {mem mem' : UInt64 → V} {a b : UInt64} {ws : List V}

/- A word that is stored beyond them changes none of them. -/
theorem Holds.update (h : Holds mem a ws) (hb : 8 * ws.length ≤ (b - a).toNat) (v : V) :
    Holds (Function.update mem b v) a ws := by
  induction ws generalizing a with
  | nil => trivial
  | cons w ws ih =>
    rw [List.length_cons] at hb
    have hne : a ≠ b := by
      rintro rfl
      rw [UInt64.sub_self] at hb
      exact absurd hb (by simp)
    have hrest : (b - (a + 8)).toNat = (b - a).toNat - 8 := by
      have hsub : b - (a + 8) = b - a - 8 := by grind
      rw [hsub, UInt64.toNat_sub_of_le]
      · rfl
      · rw [UInt64.le_iff_toNat_le]
        have height : (8 : UInt64).toNat = 8 := rfl
        omega
    refine ⟨?_, ih h.2 (by omega)⟩
    rw [Function.update_of_ne hne]
    exact h.1

theorem Holds.push (h : Holds s.mem s.sp ws) (hroom : ws.length < 2 ^ 60) (v : V) :
    Holds (s.push v).mem (s.push v).sp (v :: ws) := by
  have hback : s.sp - 8 + 8 = s.sp := by grind
  have hdist : (s.sp - 8 - s.sp).toNat = 2 ^ 64 - 8 := by
    have hsub : s.sp - 8 - s.sp = 0 - 8 := by grind
    rw [hsub]
    rfl
  refine ⟨Function.update_self .., ?_⟩
  show Holds (Function.update s.mem (s.sp - 8) v) (s.sp - 8 + 8) ws
  rw [hback]
  exact h.update (by omega) v

theorem Holds.pushes (h : Holds s.mem s.sp ws) (vs : List V) (hroom : vs.length + ws.length < 2 ^ 60) :
    Holds (vs.foldl Stack.push s).mem (vs.foldl Stack.push s).sp
      (vs.reverse ++ ws) := by
  induction vs generalizing s ws with
  | nil => exact h
  | cons v vs ih =>
    rw [List.length_cons] at hroom
    have hnext := ih (h.push (by omega) v) (by rw [List.length_cons]; omega)
    rwa [List.foldl_cons, List.reverse_cons, List.append_assoc]

theorem sp_pushes (s : Stack V) (vs : List V) :
    slot (vs.foldl push s).sp vs.length = s.sp := by
  induction vs generalizing s with
  | nil => exact slot_zero s.sp
  | cons v vs ih =>
    rw [List.foldl_cons, List.length_cons, slot, UInt64.ofNat_add]
    have hone : UInt64.ofNat 1 = 1 := rfl
    have hrest : slot (vs.foldl push (s.push v)).sp vs.length = s.sp - 8 := ih (s.push v)
    rw [slot] at hrest
    rw [hone]
    grind

/- Memories that agree there hold the same words. -/
theorem Holds.congr (h : Holds mem a ws) (hmem : ∀ i < ws.length, mem' (slot a i) = mem (slot a i)) :
    Holds mem' a ws := by
  induction ws generalizing a with
  | nil => trivial
  | cons w ws ih =>
    refine ⟨?_, ih h.2 fun i hi => ?_⟩
    · have hfirst := hmem 0 (Nat.succ_pos _)
      rw [slot_zero] at hfirst
      rw [hfirst, h.1]
    · rw [← slot_succ]
      exact hmem (i + 1) (Nat.succ_lt_succ hi)

/- The word at a place. -/
theorem Holds.get (h : Holds mem a ws) {i : ℕ} (hi : i < ws.length) : mem (slot a i) = ws[i] := by
  induction ws generalizing a i with
  | nil => exact absurd hi (Nat.not_lt_zero _)
  | cons w ws ih =>
    cases i with
    | zero =>
      rw [slot_zero]
      exact h.1
    | succ i =>
      rw [slot_succ]
      exact ih h.2 (Nat.lt_of_succ_lt_succ hi)

end Stack

end CasseOS
