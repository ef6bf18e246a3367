import Mathlib.Data.List.FinRange
import Mathlib.Logic.Function.Basic

/-! # Requests in the order of their priority

Marks on the elements of a list, the first of which has priority. Taking the
first that is marked, and taking its mark off, over and over, goes through all of
them in the order of the list. For numbered lines the lowest number has
priority, and a request is let through only if nothing of the same or of a
higher priority is being served. -/

namespace CasseOS.Priority
variable {α : Type*} [DecidableEq α]

def clear (p : α → Bool) (a : α) : α → Bool := Function.update p a false
def mark (p : α → Bool) (a : α) : α → Bool := Function.update p a true

@[simp] theorem clear_self (p : α → Bool) (a : α) : clear p a a = false :=
  Function.update_self ..

@[simp] theorem mark_self (p : α → Bool) (a : α) : mark p a a = true := Function.update_self ..

theorem clear_of_ne (p : α → Bool) {a b : α} (h : b ≠ a) : clear p a b = p b :=
  Function.update_of_ne h ..

theorem mark_of_ne (p : α → Bool) {a b : α} (h : b ≠ a) : mark p a b = p b :=
  Function.update_of_ne h ..

theorem clear_mark {p : α → Bool} {a : α} (h : p a = false) : clear (mark p a) a = p := by
  rw [clear, mark, Function.update_idem, ← h, Function.update_eq_self]

/- The marked elements, as they are taken. -/
def drain (order : List α) : ℕ → (α → Bool) → List α
  | 0, _ => []
  | k + 1, p =>
    match order.find? p with
    | none => []
    | some a => a :: drain order k (clear p a)

theorem drain_none {order : List α} {p : α → Bool} (h : order.find? p = none) (k : ℕ) :
    drain order k p = [] := by
  cases k with
  | zero => rfl
  | succ k => rw [drain, h]

/- The first mark taken off. -/
theorem filter_of_find {order : List α} (hnodup : order.Nodup) {p : α → Bool} {a : α}
    (h : order.find? p = some a) : order.filter p = a :: order.filter (clear p a) := by
  obtain ⟨ha, l₁, l₂, rfl, hl₁⟩ := List.find?_eq_some_iff_append.mp h
  have hdistinct := List.nodup_append.mp hnodup
  have hout : ∀ b ∈ l₂, b ≠ a := fun b hb heq =>
    (List.nodup_cons.mp hdistinct.2.1).1 (heq ▸ hb)
  have hnone : ∀ b ∈ l₁, p b = false := fun b hb => by simpa using hl₁ b hb
  have hnone' : ∀ b ∈ l₁, clear p a b = false := fun b hb => by
    rw [clear_of_ne p (hdistinct.2.2 b hb a List.mem_cons_self), hnone b hb]
  have hrest : l₂.filter (clear p a) = l₂.filter p :=
    List.filter_congr fun b hb => clear_of_ne p (hout b hb)
  have hleft : l₁.filter p = [] := by simpa [List.filter_eq_nil_iff] using hnone
  have hleft' : l₁.filter (clear p a) = [] := by simpa [List.filter_eq_nil_iff] using hnone'
  rw [List.filter_append, List.filter_append, hleft, hleft', List.filter_cons_of_pos ha,
    List.filter_cons_of_neg (by simp), hrest]
  rfl

/- Everything marked is taken, once, in the order of the list. -/
theorem drain_eq {order : List α} (hnodup : order.Nodup) {k : ℕ} {p : α → Bool}
    (hk : (order.filter p).length ≤ k) : drain order k p = order.filter p := by
  induction k generalizing p with
  | zero => exact (List.length_eq_zero_iff.mp (Nat.le_zero.mp hk)).symm
  | succ k ih =>
    rw [drain]
    cases hfind : order.find? p with
    | none =>
      symm
      exact List.filter_eq_nil_iff.mpr (List.find?_eq_none.mp hfind)
    | some a =>
      have hfirst := filter_of_find hnodup hfind
      rw [hfirst, List.length_cons] at hk
      rw [hfirst, ← ih (by omega)]

/-! ### Numbered lines -/
section Lines
variable {n : ℕ}

def highest (p : Fin n → Bool) : Option (Fin n) := (List.finRange n).find? p

theorem highest_eq_none {p : Fin n → Bool} : highest p = none ↔ ∀ i, p i = false := by
  simp [highest, List.find?_eq_none]

theorem highest_eq_some {p : Fin n → Bool} {i : Fin n} (h : highest p = some i) : p i = true :=
  List.find?_some h

/- The request let through while these are being served. -/
def granted (requested serving : Fin n → Bool) : Option (Fin n) :=
  (highest requested).filter fun i => decide (∀ j ≤ i, serving j = false)

theorem granted_idle {requested serving : Fin n → Bool} (h : ∀ i, serving i = false) :
    granted requested serving = highest requested := by
  rw [granted]
  cases highest requested with
  | none => rfl
  | some i => simp [h]

/- The one of the highest priority of what is being served is done. -/
def finish (serving : Fin n → Bool) : Fin n → Bool :=
  match highest serving with
  | none => serving
  | some i => clear serving i

theorem finish_idle {serving : Fin n → Bool} (h : ∀ i, serving i = false) :
    finish serving = serving := by
  rw [finish, highest_eq_none.mpr h]

theorem finish_mark {serving : Fin n → Bool} (h : ∀ i, serving i = false) (i : Fin n) :
    finish (mark serving i) = serving := by
  have honly : highest (mark serving i) = some i := by
    cases hfirst : highest (mark serving i) with
    | none =>
      have hmarked := highest_eq_none.mp hfirst i
      rw [mark_self] at hmarked
      cases hmarked
    | some j =>
      have hj := highest_eq_some hfirst
      by_cases heq : j = i
      · rw [heq]
      · rw [mark_of_ne serving heq, h j] at hj
        cases hj
  rw [finish, honly]
  exact clear_mark (h i)

end Lines

end CasseOS.Priority
