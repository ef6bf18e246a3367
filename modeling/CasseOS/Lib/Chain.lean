import Mathlib.Data.List.Nodup
import Mathlib.Tactic.Common

/-! # Null-terminated chains

`Chain next h l`: starting at address `h` and following `next` one meets the
addresses of `l`, in order, and then the null address 0. A chain is determined
by its start, so it never meets an address twice. -/

namespace CasseOS
variable {next next' : ℕ → ℕ}

def Chain (next : ℕ → ℕ) : ℕ → List ℕ → Prop
  | h, [] => h = 0
  | h, a :: l => h = a ∧ a ≠ 0 ∧ Chain next (next a) l

namespace Chain

theorem unique {h : ℕ} {l l' : List ℕ} (hl : Chain next h l) (hl' : Chain next h l') : l = l' := by
  induction l generalizing h l' with
  | nil =>
    cases l' with
    | nil => rfl
    | cons a l' => exact absurd (hl'.1.symm.trans hl) hl'.2.1
  | cons a l ih =>
    cases l' with
    | nil => exact absurd (hl.1.symm.trans hl') hl.2.1
    | cons a' l' =>
      obtain ⟨rfl, -, ht⟩ := hl
      obtain ⟨rfl, -, ht'⟩ := hl'
      rw [ih ht ht']

theorem suffix {h a : ℕ} {l r : List ℕ} (hl : Chain next h (l ++ a :: r)) :
    Chain next a (a :: r) := by
  induction l generalizing h with
  | nil => exact ⟨rfl, hl.2⟩
  | cons b l ih => exact ih hl.2.2

/- An address met twice would start two chains of different lengths. -/
theorem nodup {h : ℕ} {l : List ℕ} (hl : Chain next h l) : l.Nodup := by
  induction l generalizing h with
  | nil => exact List.nodup_nil
  | cons a l ih =>
    refine List.nodup_cons.mpr ⟨?_, ih hl.2.2⟩
    intro hmem
    obtain ⟨pre, post, rfl⟩ := List.append_of_mem hmem
    have hlong : Chain next a (a :: (pre ++ a :: post)) := ⟨rfl, hl.2⟩
    have hshort := suffix hl.2.2
    have hlen := congrArg List.length (unique hlong hshort)
    simp only [List.length_cons, List.length_append] at hlen
    omega

theorem congr {h : ℕ} {l : List ℕ} (hl : Chain next h l) (he : ∀ a ∈ l, next' a = next a) :
    Chain next' h l := by
  induction l generalizing h with
  | nil => exact hl
  | cons a l ih =>
    refine ⟨hl.1, hl.2.1, ?_⟩
    rw [he a (List.mem_cons_self ..)]
    exact ih hl.2.2 fun b hb => he b (List.mem_cons_of_mem _ hb)

/- One more address at the front. -/
theorem push {h a : ℕ} {l : List ℕ} (hl : Chain next h l) (ha : a ≠ 0) (hfirst : next' a = h)
    (he : ∀ c ∈ l, next' c = next c) : Chain next' a (a :: l) := by
  refine ⟨rfl, ha, ?_⟩
  rw [hfirst]
  exact congr hl he

/- Unlinking: the predecessor of `a` is made to point behind it. -/
theorem unlink {h p a : ℕ} {l r : List ℕ} (hl : Chain next h (l ++ p :: a :: r))
    (he : ∀ b, b ≠ p → next' b = next b) (hp : next' p = next a) :
    Chain next' h (l ++ p :: r) := by
  have hnodup := hl.nodup
  induction l generalizing h with
  | nil =>
    obtain ⟨rfl, hp0, ha, -, hr⟩ := hl
    refine ⟨rfl, hp0, ?_⟩
    rw [hp]
    refine hr.congr fun b hb => he b ?_
    rintro rfl
    rw [List.nil_append, List.nodup_cons] at hnodup
    exact hnodup.1 (List.mem_cons_of_mem _ hb)
  | cons b l ih =>
    rw [List.cons_append, List.nodup_cons] at hnodup
    refine ⟨hl.1, hl.2.1, ?_⟩
    rw [he b fun hb => hnodup.1 (hb ▸ List.mem_append_right _ (List.mem_cons_self ..))]
    exact ih hl.2.2 hnodup.2

end Chain

end CasseOS
