import Mathlib.Data.List.TakeWhile

/-! # Trying alternatives in turn

An attempt runs in a state, leaves a state, and succeeds or fails. `tryEach`
makes the attempts of a list until one succeeds; a later attempt runs in the
state the earlier ones leave. -/

namespace CasseOS.Attempts
variable {A S E R : Type*}

/- The error of the last attempt is kept, `e` if there is none. -/
def tryEach (attempt : A → S → S × Except E R) : E → List A → S → S × Except E R
  | e, [], s => (s, .error e)
  | _, a :: as, s =>
    match attempt a s with
    | (s', .ok r) => (s', .ok r)
    | (s', .error e) => tryEach attempt e as s'

def succeedsIn (attempt : A → S → S × Except E R) (s : S) (a : A) : Bool := (attempt a s).2.isOk

/- The attempts before the first that succeeds in the state `s`. -/
def beforeSuccess (attempt : A → S → S × Except E R) (s : S) (as : List A) : List A :=
  as.takeWhile fun a => !succeedsIn attempt s a

variable {attempt : A → S → S × Except E R} {e : E} {s : S} {a : A} {as pre post : List A}

theorem tryEach_of_succeeds (h : succeedsIn attempt s a = true) :
    tryEach attempt e (a :: as) s = attempt a s := by
  rw [succeedsIn] at h
  rw [tryEach]
  split
  · next he => exact he.symm
  · next he =>
    rw [he] at h
    exact absurd h Bool.false_ne_true

theorem tryEach_of_fails (e : E) (as : List A) (h : succeedsIn attempt s a = false) :
    ∃ e', tryEach attempt e (a :: as) s = tryEach attempt e' as (attempt a s).1 := by
  rw [succeedsIn] at h
  rw [tryEach]
  split
  · next he =>
    rw [he] at h
    exact absurd h.symm Bool.false_ne_true
  · next e' he => exact ⟨e', by rw [he]⟩

theorem beforeSuccess_of_fails (h : succeedsIn attempt s a = false) :
    beforeSuccess attempt s (a :: as) = a :: beforeSuccess attempt s as := by
  rw [beforeSuccess, List.takeWhile_cons_of_pos (by rw [h]; rfl)]
  rfl

theorem fails_of_mem_beforeSuccess (h : a ∈ beforeSuccess attempt s as) :
    succeedsIn attempt s a = false :=
  eq_false_of_ne_true (by simpa using List.mem_takeWhile_imp h)

/- As long as the failing attempts put the state back, the next one starts where
the first did. -/
theorem tryEach_restores (h : ∀ a ∈ beforeSuccess attempt s (pre ++ post), (attempt a s).1 = s)
    (hfail : (tryEach attempt e pre s).2.isOk = false) :
    (tryEach attempt e pre s).1 = s ∧
      beforeSuccess attempt s (pre ++ post) = pre ++ beforeSuccess attempt s post := by
  induction pre generalizing e with
  | nil => exact ⟨rfl, rfl⟩
  | cons a pre ih =>
    cases ha : succeedsIn attempt s a with
    | true =>
      rw [tryEach_of_succeeds ha] at hfail
      rw [succeedsIn, hfail] at ha
      exact absurd ha Bool.false_ne_true
    | false =>
      obtain ⟨e', he⟩ := tryEach_of_fails e pre ha
      rw [List.cons_append, beforeSuccess_of_fails ha] at h
      have hstate := h a (List.mem_cons_self ..)
      rw [he, hstate] at hfail ⊢
      obtain ⟨hs, hsplit⟩ := ih (fun b hb => h b (List.mem_cons_of_mem a hb)) hfail
      refine ⟨hs, ?_⟩
      rw [List.cons_append, beforeSuccess_of_fails ha, hsplit, List.cons_append]

/- Then the loop succeeds if and only if some attempt does, made alone. -/
theorem tryEach_isOk (h : ∀ a ∈ beforeSuccess attempt s as, (attempt a s).1 = s) :
    (tryEach attempt e as s).2.isOk = as.any (succeedsIn attempt s) := by
  induction as generalizing e with
  | nil => rfl
  | cons a as ih =>
    rw [List.any_cons]
    cases ha : succeedsIn attempt s a with
    | true =>
      rw [tryEach_of_succeeds ha, Bool.true_or]
      exact ha
    | false =>
      obtain ⟨e', he⟩ := tryEach_of_fails e as ha
      rw [beforeSuccess_of_fails ha] at h
      rw [he, h a (List.mem_cons_self ..), Bool.false_or]
      exact ih fun b hb => h b (List.mem_cons_of_mem a hb)

/- If a property is all that keeps a failing attempt from putting the state back,
the loop reaches the first attempt that has it in the state it started in. -/
theorem exists_first {P : A → Prop}
    (hrestores : ∀ a, succeedsIn attempt s a = false → ¬ P a → (attempt a s).1 = s)
    (hmem : a ∈ beforeSuccess attempt s as) (ha : P a) :
    ∃ pre b post, as = pre ++ b :: post ∧ P b ∧ succeedsIn attempt s b = false ∧
      ∀ e, (tryEach attempt e pre s).2.isOk = false ∧ (tryEach attempt e pre s).1 = s := by
  induction as with
  | nil => exact absurd hmem List.not_mem_nil
  | cons c as ih =>
    cases hc : succeedsIn attempt s c with
    | true =>
      rw [beforeSuccess, List.takeWhile_cons_of_neg (by rw [hc]; decide)] at hmem
      exact absurd hmem List.not_mem_nil
    | false =>
      by_cases hP : P c
      · exact ⟨[], c, as, rfl, hP, hc, fun _ => ⟨rfl, rfl⟩⟩
      rw [beforeSuccess_of_fails hc] at hmem
      obtain rfl | hmem := List.mem_cons.mp hmem
      · exact absurd ha hP
      obtain ⟨pre, b, post, rfl, hb, hfail, hpre⟩ := ih hmem
      refine ⟨c :: pre, b, post, rfl, hb, hfail, fun e => ?_⟩
      obtain ⟨e', he⟩ := tryEach_of_fails e pre hc
      rw [he, hrestores c hc hP]
      exact hpre e'

end CasseOS.Attempts
