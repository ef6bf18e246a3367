import Mathlib.Data.List.Basic

/-! # Computations that read a memory

A `Reading` is a computation that looks at cells of a memory, one after the
other, and ends with a result. Beside the result it has a list of the cells it
looked at; a memory that agrees on those cells gives the same of both. -/

namespace CasseOS

universe u

inductive Reading (V : Type) (α : Type u) where
  | done (a : α)
  | read (i : ℕ) (next : V → Reading V α)

namespace Reading
variable {V : Type} {α β S R : Type u}

def bind : Reading V α → (α → Reading V β) → Reading V β
  | done a, f => f a
  | read i next, f => read i fun v => (next v).bind f

instance : Monad (Reading V) where
  pure := done
  bind := bind

def run (mem : ℕ → V) : Reading V α → α
  | done a => a
  | read i next => (next (mem i)).run mem

/- The cells it looks at, in order. -/
def reads (mem : ℕ → V) : Reading V α → List ℕ
  | done _ => []
  | read i next => i :: (next (mem i)).reads mem

def fetch (i : ℕ) : Reading V V := read i done

/- The `n` cells from `off` on. -/
def copy (off : ℕ) : ℕ → Reading V (List V)
  | 0 => pure []
  | n + 1 => do
    let l ← copy off n
    let v ← fetch (off + n)
    pure (l ++ [v])

/- The body is repeated until it gives a result, `fuel` times at most. -/
def iterate (body : S → Reading V (S ⊕ R)) : ℕ → S → Reading V (Option R)
  | 0, _ => pure none
  | fuel + 1, s => do
    match ← body s with
    | .inl s' => iterate body fuel s'
    | .inr r => pure (some r)

/-! ### Composition -/

section Basic
variable (mem : ℕ → V)

@[simp] theorem run_pure (a : α) : (pure a : Reading V α).run mem = a := rfl

@[simp] theorem reads_pure (a : α) : (pure a : Reading V α).reads mem = [] := rfl

@[simp] theorem run_fetch (i : ℕ) : (fetch i : Reading V V).run mem = mem i := rfl

@[simp] theorem reads_fetch (i : ℕ) : (fetch i : Reading V V).reads mem = [i] := rfl

@[simp] theorem run_bind (p : Reading V α) (f : α → Reading V β) :
    (p >>= f).run mem = (f (p.run mem)).run mem := by
  induction p with
  | done a => rfl
  | read i next ih => exact ih (mem i)

@[simp] theorem reads_bind (p : Reading V α) (f : α → Reading V β) :
    (p >>= f).reads mem = p.reads mem ++ (f (p.run mem)).reads mem := by
  induction p with
  | done a => rfl
  | read i next ih => exact congrArg (List.cons i) (ih (mem i))

@[simp] theorem run_copy (off n : ℕ) :
    (copy off n : Reading V (List V)).run mem = (List.range n).map fun i => mem (off + i) := by
  induction n with
  | zero => rfl
  | succ n ih => simp [copy, ih, List.range_succ]

@[simp] theorem reads_copy (off n : ℕ) :
    (copy off n : Reading V (List V)).reads mem = (List.range n).map fun i => off + i := by
  induction n with
  | zero => rfl
  | succ n ih => simp [copy, ih, List.range_succ]

end Basic

/-! ### What a computation depends on -/

theorem congr_reads {mem mem' : ℕ → V} (p : Reading V α)
    (h : ∀ i ∈ p.reads mem, mem' i = mem i) :
    p.run mem' = p.run mem ∧ p.reads mem' = p.reads mem := by
  induction p with
  | done a => exact ⟨rfl, rfl⟩
  | read i next ih =>
    have hi : mem' i = mem i := h i (List.mem_cons_self ..)
    obtain ⟨hrun, hreads⟩ := ih (mem i) fun j hj => h j (List.mem_cons_of_mem i hj)
    refine ⟨?_, ?_⟩
    · rw [run, hi, hrun]
      rfl
    · rw [reads, hi, hreads]
      rfl

end Reading

end CasseOS
