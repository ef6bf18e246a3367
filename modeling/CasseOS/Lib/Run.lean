import Mathlib.Data.List.Forall2

/-! # Runs of partial step functions

A step function `step : S → O → Option S` may fault (`none`). `exec` folds it
over a list of operations, `Guarded` says that every operation of the list
meets a condition in the state it is applied to, and `Throughout` says that
the run never faults and that a property holds in every state it visits, the
first and the last included. -/

namespace CasseOS.Run
variable {S T O : Type*}

def exec (step : S → O → Option S) : S → List O → Option S
  | s, [] => some s
  | s, o :: os => (step s o).bind fun s' => exec step s' os

theorem exec_append (step : S → O → Option S) (s : S) (os os' : List O) :
    exec step s (os ++ os') = (exec step s os).bind fun s' => exec step s' os' := by
  induction os generalizing s with
  | nil => rfl
  | cons o os ih =>
    rw [List.cons_append, exec, exec, Option.bind_assoc]
    exact congrArg _ (funext fun s' => ih s')

/- A step function that never faults. -/
theorem exec_some (step : S → O → S) (s : S) (os : List O) :
    exec (fun s o => some (step s o)) s os = some (os.foldl step s) := by
  induction os generalizing s with
  | nil => rfl
  | cons o os ih => exact ih (step s o)

def Guarded (step : S → O → Option S) (ok : S → O → Prop) : S → List O → Prop
  | _, [] => True
  | s, o :: os => ok s o ∧ ∀ s', step s o = some s' → Guarded step ok s' os

def Throughout (step : S → O → Option S) (P : S → Prop) : S → List O → Prop
  | s, [] => P s
  | s, o :: os => P s ∧ ∃ s', step s o = some s' ∧ Throughout step P s' os

/- The invariant rule: a condition that holds at the start, is enough for each
guarded step to succeed and is kept by it, holds all along a guarded run. -/
theorem throughout_of_invariant {step : S → O → Option S} {ok : S → O → Prop}
    {Inv : S → Prop}
    (hstep : ∀ s o, Inv s → ok s o → ∃ s', step s o = some s' ∧ Inv s')
    {s : S} {os : List O} (hs : Inv s) (hg : Guarded step ok s os) :
    Throughout step Inv s os := by
  induction os generalizing s with
  | nil => exact hs
  | cons o os ih =>
    obtain ⟨s', he, hi⟩ := hstep s o hs hg.1
    exact ⟨hs, s', he, ih hi (hg.2 s' he)⟩

theorem Throughout.mono {step : S → O → Option S} {P Q : S → Prop}
    (hpq : ∀ s, P s → Q s) {s : S} {os : List O} (h : Throughout step P s os) :
    Throughout step Q s os := by
  induction os generalizing s with
  | nil => exact hpq s h
  | cons o os ih =>
    obtain ⟨hp, s', he, ht⟩ := h
    exact ⟨hpq s hp, s', he, ih ht⟩

/- The last state is one of those the run visits. -/
theorem Throughout.last {step : S → O → Option S} {P : S → Prop} {s s' : S} {os : List O}
    (h : Throughout step P s os) (he : exec step s os = some s') : P s' := by
  induction os generalizing s with
  | nil =>
    cases he
    exact h
  | cons o os ih =>
    obtain ⟨-, s₁, hs₁, ht⟩ := h
    rw [exec, hs₁] at he
    exact ih ht he

theorem guarded_of_forall {step : S → O → Option S} {ok : S → O → Prop} (h : ∀ s o, ok s o) {s : S}
    {os : List O} : Guarded step ok s os := by
  induction os generalizing s with
  | nil => trivial
  | cons o os ih => exact ⟨h s o, fun _ _ => ih⟩

/- A test of every operation along a run. -/
def testRun (step : S → O → Option S) (test : S → O → Bool) : S → List O → Bool
  | _, [] => true
  | s, o :: os => test s o && (step s o).all fun s' => testRun step test s' os

/- A run that passes it meets every condition that the test is enough for. -/
theorem guarded_of_test {step : S → O → Option S} {test : S → O → Bool} {ok : S → O → Prop}
    (h : ∀ s o, test s o = true → ok s o) {s : S} {os : List O}
    (htest : testRun step test s os = true) : Guarded step ok s os := by
  induction os generalizing s with
  | nil => trivial
  | cons o os ih =>
    rw [testRun, Bool.and_eq_true] at htest
    refine ⟨h s o htest.1, fun s' hs' => ih ?_⟩
    have hrest := htest.2
    rw [hs'] at hrest
    exact hrest

/- The same rule for what holds of each step: with the invariant, the guard of a
step is enough for it. -/
theorem Guarded.of_invariant {step : S → O → Option S} {ok P : S → O → Prop} {Inv : S → Prop}
    (hstep : ∀ s o, Inv s → ok s o → P s o ∧ ∀ s', step s o = some s' → Inv s')
    {s : S} {os : List O} (hs : Inv s) (hg : Guarded step ok s os) : Guarded step P s os := by
  induction os generalizing s with
  | nil => trivial
  | cons o os ih =>
    obtain ⟨hp, hnext⟩ := hstep s o hs hg.1
    exact ⟨hp, fun s' he => ih (hnext s' he) (hg.2 s' he)⟩

/- In a run that keeps an invariant, what is the same of each step is the same of
the run. -/
theorem guarded_congr {step : S → O → Option S} {ok P Q : S → O → Prop} {Inv : S → Prop}
    (hstep : ∀ s o, Inv s → ok s o → (P s o ↔ Q s o) ∧ ∀ s', step s o = some s' → Inv s')
    {s : S} {os : List O} (hs : Inv s) (hg : Guarded step ok s os) :
    Guarded step P s os ↔ Guarded step Q s os := by
  induction os generalizing s with
  | nil => exact Iff.rfl
  | cons o os ih =>
    obtain ⟨hpq, hnext⟩ := hstep s o hs hg.1
    exact and_congr hpq (forall₂_congr fun s' he => ih (hnext s' he) (hg.2 s' he))

/- Every step of the run succeeds and is in the relation. -/
def Steps (step : S → O → Option S) (R : S → S → Prop) : S → List O → Prop
  | _, [] => True
  | s, o :: os => ∃ s', step s o = some s' ∧ R s s' ∧ Steps step R s' os

theorem steps_of_guarded {step : S → O → Option S} {ok : S → O → Prop} {R : S → S → Prop}
    (hstep : ∀ s o, ok s o → ∃ s', step s o = some s' ∧ R s s') {s : S} {os : List O}
    (hg : Guarded step ok s os) : Steps step R s os := by
  induction os generalizing s with
  | nil => trivial
  | cons o os ih =>
    obtain ⟨s', he, hr⟩ := hstep s o hg.1
    exact ⟨s', he, hr, ih (hg.2 s' he)⟩

/-! ### Stages

A sequence of stages, each of which may fail; the first failure ends it and
leaves the state as it is then. -/

def bail : List (S → S × Bool) → S → S × Bool
  | [], s => (s, true)
  | f :: fs, s => if (f s).2 then bail fs (f s).1 else ((f s).1, false)

def AllSucceed : List (S → S × Bool) → S → Prop
  | [], _ => True
  | f :: fs, s => (f s).2 = true ∧ AllSucceed fs (f s).1

/- How many stages succeed before the first that fails. -/
def passed : List (S → S × Bool) → S → ℕ
  | [], _ => 0
  | f :: fs, s => if (f s).2 then passed fs (f s).1 + 1 else 0

theorem bail_eq_true {fs : List (S → S × Bool)} {s : S} :
    (bail fs s).2 = true ↔ AllSucceed fs s := by
  induction fs generalizing s with
  | nil => exact ⟨fun _ => trivial, fun _ => rfl⟩
  | cons f fs ih =>
    rw [bail, AllSucceed, ← ih]
    cases (f s).2 with
    | false => simp
    | true => simp

/- What every stage keeps, the sequence keeps, however far it gets. -/
theorem bail_invariant {Inv : S → Prop} {fs : List (S → S × Bool)}
    (hfs : ∀ f ∈ fs, ∀ s, Inv s → Inv (f s).1) {s : S} (hs : Inv s) : Inv (bail fs s).1 := by
  induction fs generalizing s with
  | nil => exact hs
  | cons f fs ih =>
    have hf := hfs f (List.mem_cons_self ..) s hs
    rw [bail]
    split
    · exact ih (fun g hg => hfs g (List.mem_cons_of_mem _ hg)) hf
    · exact hf

/- Every stage the sequence gets to passes its check in the state it starts in. -/
def Checked : List (S → S × Bool) → List (S → Prop) → S → Prop
  | f :: fs, q :: qs, s => q s ∧ ((f s).2 = true → Checked fs qs (f s).1)
  | _, _, _ => True

theorem bail_checked {Inv : S → Prop} {fs : List (S → S × Bool)} {qs : List (S → Prop)}
    (hfs : List.Forall₂ (fun f q => ∀ s, Inv s → q s → Inv (f s).1) fs qs) {s : S} (hs : Inv s)
    (hc : Checked fs qs s) : Inv (bail fs s).1 := by
  induction hfs generalizing s with
  | nil => exact hs
  | cons hf _ ih =>
    have hnext := hf s hs hc.1
    rw [bail]
    split
    · next hok => exact ih hnext (hc.2 hok)
    · exact hnext

end CasseOS.Run
