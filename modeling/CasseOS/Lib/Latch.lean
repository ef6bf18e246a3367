import Mathlib.Data.Set.Insert
import Mathlib.Logic.Relation

/-! # Latched interrupts

Items finish, and for each of them a latch is raised some time later. A handler
looks at the latch, clears what it saw and then visits the items one after the
other. Whatever the order of these steps, a finished item is never left alone:
the latch is raised, or about to be, or the handler is on its way. -/

namespace CasseOS.Latch
variable {I : Type*}

inductive Phase (I : Type*) where
  | idle
  /-- The handler has looked at the latch. -/
  | seen (cause : Bool)
  | visiting (todo : List I)

structure State (I : Type*) where
  raised : Bool
  /-- The items for which the latch is still to be raised. -/
  owed : List I
  finished : Set I
  phase : Phase I

inductive Step : State I → State I → Prop where
  | finish (s : State I) {i : I} {finished : Set I} (hfinished : finished ⊆ insert i s.finished) :
    Step s {s with finished, owed := i :: s.owed}
  | raise (s : State I) {i : I} {l l' : List I} (howed : s.owed = l ++ i :: l') :
    Step s {s with owed := l ++ l', raised := true}
  /- The latch may be raised for other reasons, and items may start anew. -/
  | other (s : State I) {raised : Bool} {finished : Set I} (hraised : s.raised = true → raised = true)
    (hfinished : finished ⊆ s.finished) : Step s {s with raised, finished}
  | look (s : State I) (hidle : s.phase = .idle) : Step s {s with phase := .seen s.raised}
  /- A handler that saw a cause visits every item; one that saw none clears none. -/
  | acknowledge (s : State I) {cause raised : Bool} {todo : List I} (hseen : s.phase = .seen cause)
    (htodo : cause = true → ∀ i, i ∈ todo) (hraised : cause = false → raised = s.raised) :
    Step s {s with raised, phase := .visiting todo}
  | ignore (s : State I) (hseen : s.phase = .seen false) : Step s {s with phase := .idle}
  | visit (s : State I) {i : I} {todo : List I} {finished : Set I} (hvisiting : s.phase = .visiting (i :: todo))
    (hfinished : finished ⊆ s.finished \ {i}) : Step s {s with finished, phase := .visiting todo}
  | leave (s : State I) (hvisiting : s.phase = .visiting []) : Step s {s with phase := .idle}

variable {s s' : State I} {i : I}

/- The handler is going to visit the item. -/
def Phase.Heads (i : I) : Phase I → Prop
  | idle => False
  | seen cause => cause = true
  | visiting todo => i ∈ todo

def Covered (s : State I) (i : I) : Prop := s.raised = true ∨ i ∈ s.owed ∨ s.phase.Heads i

/- Every finished item is covered. -/
def Inv (s : State I) : Prop := ∀ i ∈ s.finished, Covered s i

theorem Step.inv (hstep : Step s s') (h : Inv s) : Inv s' := by
  intro j hj
  cases hstep with
  | finish hfinished =>
    obtain rfl | hj := Set.mem_insert_iff.mp (hfinished hj)
    · exact Or.inr (Or.inl (List.mem_cons_self ..))
    · obtain hraised | howed | hheads := h j hj
      · exact Or.inl hraised
      · exact Or.inr (Or.inl (List.mem_cons_of_mem _ howed))
      · exact Or.inr (Or.inr hheads)
  | raise => exact Or.inl rfl
  | other hraised hfinished => exact (h j (hfinished hj)).imp_left hraised
  | look hidle =>
    obtain hraised | howed | hheads := h j hj
    · exact Or.inl hraised
    · exact Or.inr (Or.inl howed)
    · rw [hidle] at hheads
      exact hheads.elim
  | @acknowledge cause raised todo hseen htodo hraised =>
    cases cause with
    | true => exact Or.inr (Or.inr (htodo rfl j))
    | false =>
      obtain hup | howed | hheads := h j hj
      · exact Or.inl ((hraised rfl).trans hup)
      · exact Or.inr (Or.inl howed)
      · rw [hseen] at hheads
        cases hheads
  | ignore hseen =>
    obtain hraised | howed | hheads := h j hj
    · exact Or.inl hraised
    · exact Or.inr (Or.inl howed)
    · rw [hseen] at hheads
      cases hheads
  | visit hvisiting hfinished =>
    obtain ⟨hj, hne⟩ := hfinished hj
    obtain hraised | howed | hheads := h j hj
    · exact Or.inl hraised
    · exact Or.inr (Or.inl howed)
    · rw [hvisiting] at hheads
      exact Or.inr (Or.inr ((List.mem_cons.mp hheads).resolve_left hne))
  | leave hvisiting =>
    obtain hraised | howed | hheads := h j hj
    · exact Or.inl hraised
    · exact Or.inr (Or.inl howed)
    · rw [hvisiting] at hheads
      exact absurd hheads List.not_mem_nil

theorem inv_of_steps (hsteps : Relation.ReflTransGen Step s s') (h : Inv s) : Inv s' := by
  induction hsteps with
  | refl => exact h
  | tail _ hstep ih => exact hstep.inv ih

/- While the handler is away, the latch is what keeps a finished item. -/
theorem Inv.idle (h : Inv s) (hidle : s.phase = .idle) (hi : i ∈ s.finished) :
    s.raised = true ∨ i ∈ s.owed := by
  obtain hraised | howed | hheads := h i hi
  · exact Or.inl hraised
  · exact Or.inr howed
  · rw [hidle] at hheads
    exact hheads.elim

end CasseOS.Latch
