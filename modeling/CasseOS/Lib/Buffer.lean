import Mathlib.Data.List.Basic
import Mathlib.Data.Int.Basic
import Mathlib.Tactic.Common

/-! # Buffers with checked accesses

A buffer is the list of its cells. A store or a load outside it is a fault, which
names the index. What is stored one after the other from some index on takes the
place of the cells there, and faults at the end of the buffer if it is too long. -/

namespace CasseOS.Buffer
variable {V : Type*}

inductive Fault where
  | write (index : ℤ)
  | read (index : ℤ)
  /-- The program has no meaning for another reason. -/
  | undefined
deriving DecidableEq

def store (buf : List V) (i : ℤ) (v : V) : Except Fault (List V) :=
  if 0 ≤ i ∧ i < buf.length then pure (buf.set i.toNat v) else .error (.write i)

def load (buf : List V) (i : ℤ) : Except Fault V :=
  if h : 0 ≤ i ∧ i.toNat < buf.length then pure (buf.get ⟨i.toNat, h.2⟩) else .error (.read i)

/- Values stored one after the other. -/
def storeAll : List V → ℤ → List V → Except Fault (List V)
  | buf, _, [] => pure buf
  | buf, i, v :: vs => do
    let buf ← store buf i v
    storeAll buf (i + 1) vs

variable {buf pre post vs : List V} {i : ℤ}

theorem store_append (hi : i = pre.length) (x v : V) :
    store (pre ++ x :: post) i v = pure (pre ++ v :: post) := by
  have hin : 0 ≤ i ∧ i < (pre ++ x :: post).length := by
    rw [List.length_append, List.length_cons]
    omega
  rw [store, if_pos hin, hi, Int.toNat_natCast, List.set_append_right _ _ le_rfl, Nat.sub_self,
    List.set_cons_zero]

theorem load_append (hi : i = pre.length) (x : V) : load (pre ++ x :: post) i = pure x := by
  have hin : 0 ≤ i ∧ i.toNat < (pre ++ x :: post).length := by
    rw [List.length_append, List.length_cons]
    omega
  have hn : i.toNat = pre.length := by omega
  rw [load, dif_pos hin]
  simp [hn]

theorem store_end (hi : i = buf.length) (v : V) : store buf i v = .error (.write i) := by
  have hout : ¬(0 ≤ i ∧ i < buf.length) := by omega
  rw [store, if_neg hout]

theorem storeAll_append (buf : List V) (i : ℤ) (vs ws : List V) :
    storeAll buf i (vs ++ ws) = storeAll buf i vs >>= fun buf => storeAll buf (i + vs.length) ws := by
  induction vs generalizing buf i with
  | nil =>
    rw [List.nil_append, storeAll, pure_bind, List.length_nil]
    exact congrArg (storeAll buf · ws) (Int.add_zero i).symm
  | cons v vs ih =>
    rw [List.cons_append, storeAll, storeAll, bind_assoc]
    refine bind_congr fun buf => ?_
    have hnext : i + 1 + (vs.length : ℤ) = i + ((v :: vs).length : ℤ) := by
      rw [List.length_cons]
      omega
    rw [ih, hnext]

/- What there is room for takes the place of what was there. -/
theorem storeAll_fits (hi : i = pre.length) (h : vs.length ≤ post.length) :
    storeAll (pre ++ post) i vs = pure (pre ++ vs ++ post.drop vs.length) := by
  induction vs generalizing pre post i with
  | nil => rw [storeAll, List.append_nil, List.length_nil, List.drop_zero]
  | cons v vs ih =>
    cases post with
    | nil => exact absurd h (by simp)
    | cons x post =>
      have hnext : i + 1 = ((pre ++ [v]).length : ℤ) := by
        rw [List.length_append, List.length_singleton]
        omega
      have hroom : vs.length ≤ post.length := by simpa using h
      have hsplit : pre ++ v :: post = pre ++ [v] ++ post := by simp
      rw [storeAll, store_append hi, pure_bind, hsplit, ih hnext hroom]
      simp

/- What there is no room for faults at the end of the buffer. -/
theorem storeAll_overruns (hi : i = pre.length) (h : post.length < vs.length) :
    storeAll (pre ++ post) i vs = .error (.write (pre.length + post.length)) := by
  induction vs generalizing pre post i with
  | nil => exact absurd h (Nat.not_lt_zero _)
  | cons v vs ih =>
    cases post with
    | nil =>
      have hend : i = ((pre ++ []).length : ℤ) := by rw [List.append_nil, hi]
      rw [storeAll, store_end hend, hi]
      simp
      rfl
    | cons x post =>
      have hnext : i + 1 = ((pre ++ [v]).length : ℤ) := by
        rw [List.length_append, List.length_singleton]
        omega
      have hroom : post.length < vs.length := by simpa using h
      have hsplit : pre ++ v :: post = pre ++ [v] ++ post := by simp
      have hindex : (((pre ++ [v]).length : ℕ) : ℤ) + (post.length : ℤ) =
          (pre.length : ℤ) + ((x :: post).length : ℤ) := by
        rw [List.length_append, List.length_singleton, List.length_cons]
        omega
      rw [storeAll, store_append hi, pure_bind, hsplit, ih hnext hroom, hindex]

end CasseOS.Buffer
