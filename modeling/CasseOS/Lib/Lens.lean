import Mathlib.Logic.Function.Basic

/-! # Lenses

A lens shows a part of a state and puts another value in its place. The cells of
a memory are lenses, and so are the parts of what a cell holds; two lenses are
apart if what is put through one cannot be seen through the other. -/

namespace CasseOS
variable {S T V W A : Type*}

structure Lens (S V : Type*) where
  get : S → V
  put : S → V → S
  get_put : ∀ s v, get (put s v) = v
  put_get : ∀ s, put s (get s) = s
  put_put : ∀ s v w, put (put s v) w = put s w

namespace Lens

/- The cell of a memory at `a`. -/
def cell [DecidableEq A] (a : A) : Lens (A → V) V where
  get m := m a
  put m v := Function.update m a v
  get_put _ _ := Function.update_self ..
  put_get _ := Function.update_eq_self ..
  put_put _ _ _ := Function.update_idem ..

/- A part of a part. -/
def comp (outer : Lens S T) (inner : Lens T V) : Lens S V where
  get s := inner.get (outer.get s)
  put s v := outer.put s (inner.put (outer.get s) v)
  get_put s v := by rw [outer.get_put, inner.get_put]
  put_get s := by rw [inner.put_get, outer.put_get]
  put_put s v w := by rw [outer.get_put, inner.put_put, outer.put_put]

def Apart (l : Lens S V) (m : Lens S W) : Prop := ∀ s v, m.get (l.put s v) = m.get s

theorem apart_cell [DecidableEq A] {a b : A} (h : a ≠ b) :
    Apart (cell a : Lens (A → V) V) (cell b) :=
  fun _ _ => Function.update_of_ne h.symm _ _

/- Parts of parts that are apart. -/
theorem Apart.comp {l : Lens S T} {m : Lens S W} (h : Apart l m) (i : Lens T V)
    (j : Lens W A) : Apart (l.comp i) (m.comp j) :=
  fun s v => congrArg j.get (h s (i.put (l.get s) v))

/- Two parts of one part. -/
theorem Apart.inner {i : Lens T V} {j : Lens T W} (h : Apart i j) (outer : Lens S T) :
    Apart (outer.comp i) (outer.comp j) := by
  intro s v
  show j.get (outer.get (outer.put s (i.put (outer.get s) v))) = j.get (outer.get s)
  rw [outer.get_put, h]

end Lens

end CasseOS
