import Mathlib.Logic.Function.Basic
import Mathlib.Logic.Nontrivial.Defs
import Mathlib.Data.Int.Basic
import Mathlib.Tactic.Common

/-! # Counted loops and memories

`loop n body s` is `for (i = 0; i < n; ++i) body(i)` on the state `s`. The
lemmas give the closed form of the loops every driver is made of: one that
stores a computed value at consecutive addresses, one that copies forward
between ranges that do not overlap, one whose rounds write one value, and one that
stores a value at the addresses of a list. -/

namespace CasseOS.Loop
variable {S V : Type*}

def loop : ℕ → (ℕ → S → S) → S → S
  | 0, _, s => s
  | n + 1, body, s => body n (loop n body s)

theorem loop_invariant (Inv : ℕ → S → Prop) (n : ℕ) (body : ℕ → S → S) (s : S)
    (h0 : Inv 0 s) (hs : ∀ i t, i < n → Inv i t → Inv (i + 1) (body i t)) :
    Inv n (loop n body s) := by
  induction n with
  | zero => exact h0
  | succ n ih =>
    exact hs n _ (Nat.lt_succ_self n) (ih fun i t hi => hs i t (Nat.lt_succ_of_lt hi))

/- A loop that stores `val i` at `base + i`. -/
theorem loop_store (base : ℤ) (val : ℕ → V) (n : ℕ) (m : ℤ → V) (a : ℤ) :
    loop n (fun i m => Function.update m (base + i) (val i)) m a =
      if base ≤ a ∧ a < base + n then val (a - base).toNat else m a := by
  induction n with
  | zero =>
    have hn : ¬(base ≤ a ∧ a < base + (0 : ℕ)) := by omega
    rw [if_neg hn]
    rfl
  | succ n ih =>
    simp only [loop, Function.update_apply]
    by_cases ha : a = base + n
    · have hin : base ≤ a ∧ a < base + (n + 1 : ℕ) := by omega
      have hi : (a - base).toNat = n := by omega
      rw [if_pos ha, if_pos hin, hi]
    · rw [if_neg ha, ih]
      have he : (base ≤ a ∧ a < base + (n : ℕ)) ↔ (base ≤ a ∧ a < base + (n + 1 : ℕ)) := by
        omega
      simp only [he]

/- Forward copy of `n` cells; the source range does not meet the destination. -/
theorem loop_copy (dst src : ℤ) (n : ℕ) (m : ℤ → V)
    (hd : dst + n ≤ src ∨ src + n ≤ dst) (a : ℤ) :
    loop n (fun i m => Function.update m (dst + i) (m (src + i))) m a =
      if dst ≤ a ∧ a < dst + n then m (src + (a - dst)) else m a := by
  suffices key : ∀ k ≤ n, ∀ a, loop k (fun i m => Function.update m (dst + i) (m (src + i))) m a =
      if dst ≤ a ∧ a < dst + k then m (src + (a - dst)) else m a from key n le_rfl a
  intro k
  induction k with
  | zero =>
    intro _ a
    have hn : ¬(dst ≤ a ∧ a < dst + (0 : ℕ)) := by omega
    rw [if_neg hn]
    rfl
  | succ k ih =>
    intro hk a
    have hsrc : loop k (fun i m => Function.update m (dst + i) (m (src + i))) m (src + k) =
        m (src + k) := by
      have hn : ¬(dst ≤ src + (k : ℤ) ∧ src + (k : ℤ) < dst + k) := by omega
      rw [ih (by omega) (src + k), if_neg hn]
    simp only [loop, Function.update_apply, hsrc]
    by_cases ha : a = dst + k
    · have hin : dst ≤ a ∧ a < dst + (k + 1 : ℕ) := by omega
      have hi : src + (a - dst) = src + k := by omega
      rw [if_pos ha, if_pos hin, hi]
    · rw [if_neg ha, ih (by omega) a]
      have he : (dst ≤ a ∧ a < dst + (k : ℕ)) ↔ (dst ≤ a ∧ a < dst + (k + 1 : ℕ)) := by
        omega
      simp only [he]

/- `m'` is `m` with `v` at exactly the addresses of `P`. -/
structure Writes {α : Type*} (v : V) (P : α → Prop) (m m' : α → V) : Prop where
  at_written : ∀ a, P a → m' a = v
  elsewhere : ∀ a, ¬ P a → m' a = m a

section Writes
variable {α : Type*} {v : V} {P Q : α → Prop} {m m' m'' : α → V}

theorem Writes.congr (h : Writes v P m m') (he : ∀ a, P a ↔ Q a) : Writes v Q m m' :=
  ⟨fun a ha => h.at_written a ((he a).mpr ha), fun a ha => h.elsewhere a (mt (he a).mp ha)⟩

theorem Writes.nothing (hP : ∀ a, ¬ P a) (v : V) (m : α → V) : Writes v P m m :=
  ⟨fun a ha => absurd ha (hP a), fun _ _ => rfl⟩

theorem Writes.unique (h : Writes v P m m') (h' : Writes v P m m'') : m' = m'' := by
  funext a
  by_cases ha : P a
  · rw [h.at_written a ha, h'.at_written a ha]
  · rw [h.elsewhere a ha, h'.elsewhere a ha]

/- On a memory that does not hold the value yet, what is written can be seen. -/
theorem Writes.visible (h : Writes v P m m') (hm : ∀ a, m a ≠ v) (a : α) : m' a = v ↔ P a := by
  by_cases ha : P a
  · exact ⟨fun _ => ha, h.at_written a⟩
  · rw [h.elsewhere a ha]
    exact ⟨fun he => absurd he (hm a), fun hp => absurd hp ha⟩

theorem writes_update [DecidableEq α] (v : V) (a : α) (m : α → V) :
    Writes v (fun b => b = a) m (Function.update m a v) :=
  ⟨fun _ hb => hb ▸ Function.update_self .., fun _ hb => Function.update_of_ne hb ..⟩

/- A loop whose rounds write one value. -/
theorem writes_loop {n : ℕ} {body : ℕ → (α → V) → α → V} {R : ℕ → α → Prop}
    (hbody : ∀ i < n, ∀ m, Writes v (R i) m (body i m)) (m : α → V) :
    Writes v (fun a => ∃ i < n, R i a) m (loop n body m) := by
  refine loop_invariant (fun k m' => Writes v (fun a => ∃ i < k, R i a) m m') n body m ?_ ?_
  · exact .nothing (fun a ha => Nat.not_lt_zero _ ha.choose_spec.1) v m
  · intro k m' hk h
    have hround := hbody k hk m'
    constructor
    · rintro a ⟨i, hi, ha⟩
      by_cases hlast : R k a
      · exact hround.at_written a hlast
      · have hne : i ≠ k := fun he => hlast (he ▸ ha)
        rw [hround.elsewhere a hlast]
        exact h.at_written a ⟨i, Nat.lt_of_le_of_ne (Nat.lt_succ_iff.mp hi) hne, ha⟩
    · intro a ha
      rw [hround.elsewhere a fun hlast => ha ⟨k, Nat.lt_succ_self k, hlast⟩]
      exact h.elsewhere a fun ⟨i, hi, hRa⟩ => ha ⟨i, Nat.lt_succ_of_lt hi, hRa⟩

/- Two functions that write a given value are compared by where they write. -/
theorem writes_eq_iff [Nontrivial V] {f g : (α → V) → V → α → V}
    (hf : ∀ m v, Writes v P m (f m v)) (hg : ∀ m v, Writes v Q m (g m v)) :
    (∀ m v, f m v = g m v) ↔ ∀ a, P a ↔ Q a := by
  constructor
  · intro h a
    obtain ⟨v, w, hne⟩ := exists_pair_ne V
    have hP := (hf (fun _ => w) v).visible (fun _ => hne.symm) a
    have hQ := (hg (fun _ => w) v).visible (fun _ => hne.symm) a
    rw [← hP, ← hQ, h]
  · intro h m v
    exact ((hf m v).congr h).unique (hg m v)

theorem writes_iff [Nontrivial V] {f : (α → V) → V → α → V} (hf : ∀ m v, Writes v P m (f m v)) :
    (∀ m v, Writes v Q m (f m v)) ↔ ∀ a, P a ↔ Q a :=
  ⟨fun h => (writes_eq_iff hf h).mp fun _ _ => rfl, fun h m v => (hf m v).congr h⟩

end Writes

/- Storing one value at each address of a list. -/
theorem foldl_update_apply {α : Type*} [DecidableEq α] (l : List α) (v : V) (m : α → V) (a : α) :
    l.foldl (fun m b => Function.update m b v) m a = if a ∈ l then v else m a := by
  induction l generalizing m with
  | nil => rw [if_neg List.not_mem_nil]; rfl
  | cons b l ih =>
    rw [List.foldl_cons, ih, Function.update_apply]
    by_cases hl : a ∈ l
    · rw [if_pos hl, if_pos (List.mem_cons_of_mem b hl)]
    · by_cases hb : a = b
      · rw [if_neg hl, if_pos hb, if_pos (List.mem_cons.mpr (Or.inl hb))]
      · rw [if_neg hl, if_neg hb, if_neg (by simp [hb, hl])]

/-! ### Filling a table -/
section Table
variable {K I D : Type*} [DecidableEq K]

/- The entries of a list, each under its own key. -/
def fill (key : I → K) (entry : I → D) (table : K → D) (l : List I) : K → D :=
  l.foldl (fun table i => Function.update table (key i) (entry i)) table

theorem fill_other {key : I → K} {entry : I → D} {table : K → D} {l : List I} {k : K}
    (h : ∀ i ∈ l, key i ≠ k) : fill key entry table l k = table k := by
  induction l generalizing table with
  | nil => rfl
  | cons i l ih =>
    have hne : k ≠ key i := (h i List.mem_cons_self).symm
    exact (ih fun j hj => h j (List.mem_cons_of_mem i hj)).trans (Function.update_of_ne hne ..)

theorem fill_key {key : I → K} (hkey : Function.Injective key) {entry : I → D} {table : K → D}
    {l : List I} {i : I} (h : i ∈ l) : fill key entry table l (key i) = entry i := by
  induction l generalizing table with
  | nil => cases h
  | cons j l ih =>
    by_cases hl : i ∈ l
    · exact ih hl
    · have heq : i = j := (List.mem_cons.mp h).resolve_right hl
      have hout : ∀ x ∈ l, key x ≠ key i := fun x hx hsame => hl (hkey hsame ▸ hx)
      have hrest : fill key entry (Function.update table (key j) (entry j)) l (key i) =
          Function.update table (key j) (entry j) (key i) := fill_other hout
      refine hrest.trans ?_
      rw [heq, Function.update_self]

end Table

end CasseOS.Loop
