import Mathlib.Logic.Relation

/-! # Small steps

A partial step function, and the states it gets to. As the step is a function, a
run that gets stuck gets stuck in one place. -/

namespace CasseOS.SmallStep
variable {S : Type*} (step : S → Option S)

def Reaches : S → S → Prop := Relation.ReflTransGen fun s s' => step s = some s'

variable {step} {s s' s₁ s₂ : S}

theorem Reaches.refl (s : S) : Reaches step s s := Relation.ReflTransGen.refl

theorem Reaches.head (h : step s = some s₁) (hr : Reaches step s₁ s') : Reaches step s s' :=
  Relation.ReflTransGen.head h hr

theorem Reaches.trans (h : Reaches step s s₁) (h' : Reaches step s₁ s') : Reaches step s s' :=
  Relation.ReflTransGen.trans h h'

/- What is reached on the way to a stuck state goes on to it. -/
theorem Reaches.onward (h : Reaches step s s₁) (hs : Reaches step s s') (hstuck : step s' = none) :
    Reaches step s₁ s' := by
  induction h using Relation.ReflTransGen.head_induction_on with
  | refl => exact hs
  | head hstep _ ih =>
    apply ih
    rcases Relation.ReflTransGen.cases_head hs with rfl | ⟨s₂, hstep₂, hrest⟩
    · rw [hstuck] at hstep
      cases hstep
    · rw [hstep] at hstep₂
      cases hstep₂
      exact hrest

theorem Reaches.stuck (h : Reaches step s s') (hstuck : step s = none) : s' = s := by
  rcases Relation.ReflTransGen.cases_head h with rfl | ⟨s₁, hstep, -⟩
  · rfl
  · rw [hstuck] at hstep
    cases hstep

/- Two stuck states that are reached from one state are the same. -/
theorem Reaches.unique (h₁ : Reaches step s s₁) (hs₁ : step s₁ = none) (h₂ : Reaches step s s₂)
    (hs₂ : step s₂ = none) : s₁ = s₂ :=
  ((h₁.onward h₂ hs₂).stuck hs₁).symm

end CasseOS.SmallStep
