import CasseOS.Lib.Run
import Mathlib.Data.List.Range
import Mathlib.Tactic.Common

/-! # Loops over machine counters

`forLoop` tests a counter, runs the body and moves the counter on; a body may leave
the loop. The counter is of a fixed width, so a bound it cannot pass makes the loop
endless: it is given a fuel. Where the counter runs through a list of values, the
loop is the sequence of its rounds. -/

namespace CasseOS.ForLoop
open Run
variable {C S : Type*}

/- A body answers `false` to leave the loop. -/
def forLoop (test : C → Bool) (next : C → C) (body : C → S → Option (S × Bool)) :
    ℕ → C → S → Option (S × Bool)
  | 0, _, _ => none
  | fuel + 1, i, s =>
    if test i then
      (body i s).bind fun r => if r.2 then forLoop test next body fuel (next i) r.1 else some r
    else some (s, true)

/- The counter runs through the values of the list and then fails the test. -/
def Counts (test : C → Bool) (next : C → C) : C → List C → Prop
  | i, [] => test i = false
  | i, a :: l => a = i ∧ test i = true ∧ Counts test next (next i) l

variable {test : C → Bool} {next : C → C}

theorem counts_range' {c : ℕ → C} {n : ℕ} (htest : ∀ k < n, test (c k) = true)
    (hnext : ∀ k < n, next (c k) = c (k + 1)) (hend : test (c n) = false) (m : ℕ) (hm : m ≤ n) :
    Counts test next (c (n - m)) ((List.range' (n - m) m).map c) := by
  induction m with
  | zero => exact hend
  | succ m ih =>
    rw [List.range'_succ, List.map_cons]
    refine ⟨rfl, htest _ (by omega), ?_⟩
    have hstep : n - (m + 1) + 1 = n - m := by omega
    rw [hnext _ (by omega), hstep]
    exact ih (by omega)

/- A counter that takes the values of `c` up to `n`. -/
theorem counts_range (test : C → Bool) (next : C → C) (c : ℕ → C) {n : ℕ}
    (htest : ∀ k < n, test (c k) = true) (hnext : ∀ k < n, next (c k) = c (k + 1))
    (hend : test (c n) = false) :
    Counts test next (c 0) ((List.range n).map c) := by
  have h := counts_range' htest hnext hend n le_rfl
  rwa [Nat.sub_self, ← List.range_eq_range'] at h

theorem forLoop_eq {body : C → S → Option (S × Bool)} {f : C → S → S × Bool} {i : C} {l : List C}
    (hbody : ∀ a ∈ l, ∀ s, body a s = some (f a s)) (hl : Counts test next i l) {fuel : ℕ}
    (hfuel : l.length < fuel) (s : S) :
    forLoop test next body fuel i s = some (bail (l.map f) s) := by
  induction l generalizing i fuel s with
  | nil =>
    obtain ⟨fuel, rfl⟩ := Nat.exists_eq_succ_of_ne_zero (Nat.ne_of_gt hfuel)
    have hend : test i = false := hl
    rw [forLoop, hend]
    rfl
  | cons a l ih =>
    obtain ⟨fuel, rfl⟩ := Nat.exists_eq_succ_of_ne_zero (Nat.ne_of_gt (Nat.zero_lt_of_lt hfuel))
    obtain ⟨rfl, htest, hrest⟩ := hl
    have ha := hbody a (List.mem_cons_self ..) s
    have hlt : l.length < fuel := Nat.lt_of_succ_lt_succ hfuel
    rw [forLoop, if_pos htest, ha, Option.bind_some, List.map_cons, bail]
    obtain ⟨s', ok⟩ := f a s
    cases ok with
    | false => rfl
    | true => exact ih (fun b hb => hbody b (List.mem_cons_of_mem a hb)) hrest hlt _

/-! ### Sequences of sequences -/

theorem bail_append (fs gs : List (S → S × Bool)) (s : S) :
    bail (fs ++ gs) s = if (bail fs s).2 then bail gs (bail fs s).1 else bail fs s := by
  induction fs generalizing s with
  | nil => rfl
  | cons f fs ih =>
    rw [List.cons_append, bail, bail]
    cases (f s).2 with
    | false => rfl
    | true => exact ih _

/- A nest of loops is one loop. -/
theorem bail_flatten (l : List (List (S → S × Bool))) (s : S) :
    bail (l.map bail) s = bail l.flatten s := by
  induction l generalizing s with
  | nil => rfl
  | cons fs l ih =>
    rw [List.map_cons, List.flatten_cons, bail_append, bail, ih]
    obtain ⟨s', ok⟩ := bail fs s
    cases ok with
    | false => rfl
    | true => rfl

theorem bail_flatMap {A : Type*} (l : List A) (g : A → List (S → S × Bool)) :
    bail (l.map fun a => bail (g a)) = bail (l.flatMap g) := by
  funext s
  rw [List.flatMap_def, ← bail_flatten, List.map_map]
  rfl

end CasseOS.ForLoop
