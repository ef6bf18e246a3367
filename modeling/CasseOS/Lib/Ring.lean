import Mathlib.Logic.Function.Basic
import Mathlib.Data.List.Range
import Mathlib.Tactic.Common

/-! # Ring buffers

A ring of `cap` slots with a head (where the next element is written) and a
tail (where the next one is read); it is empty when the two meet, so it holds
at most `cap - 1` elements, and a push into a full ring is dropped. `contents`
reads the queue out of it. -/

namespace CasseOS
variable {α : Type*} {cap : ℕ}

structure Ring (cap : ℕ) (α : Type*) where
  buf : ℕ → α
  head : ℕ
  tail : ℕ
  head_lt : head < cap
  tail_lt : tail < cap

namespace Ring

/- The slot after `i`. -/
def next (cap i : ℕ) : ℕ := (i + 1) % cap

/- How far the head is ahead of the tail. -/
def distance (cap head tail : ℕ) : ℕ := if tail ≤ head then head - tail else head + cap - tail

theorem wrap_eq {k : ℕ} (h : k < 2 * cap) : k % cap = if k < cap then k else k - cap := by
  split
  next hlt => exact Nat.mod_eq_of_lt hlt
  next hge => rw [Nat.mod_eq_sub_mod (by omega), Nat.mod_eq_of_lt (by omega)]

theorem next_eq {i : ℕ} (h : i < cap) : next cap i = if i + 1 < cap then i + 1 else 0 := by
  rw [next, wrap_eq (by omega)]
  split <;> omega

theorem next_lt {i : ℕ} (h : i < cap) : next cap i < cap := Nat.mod_lt _ (by omega)

theorem distance_lt {head tail : ℕ} (hh : head < cap) (ht : tail < cap) :
    distance cap head tail < cap := by
  unfold distance
  split <;> omega

/- The head is reached from the tail in as many steps as the distance says. -/
theorem tail_add_distance {head tail : ℕ} (hh : head < cap) (ht : tail < cap) :
    (tail + distance cap head tail) % cap = head := by
  have hd := distance_lt hh ht
  rw [wrap_eq (by omega)]
  unfold distance
  split <;> split <;> omega

theorem next_ne_iff {head tail : ℕ} (hh : head < cap) (ht : tail < cap) :
    next cap head ≠ tail ↔ distance cap head tail + 1 < cap := by
  rw [next_eq hh]
  unfold distance
  split <;> split <;> omega

theorem distance_next_head {head tail : ℕ} (hh : head < cap) (ht : tail < cap)
    (hroom : distance cap head tail + 1 < cap) :
    distance cap (next cap head) tail = distance cap head tail + 1 := by
  rw [next_eq hh]
  unfold distance at *
  split at hroom <;> split <;> split <;> omega

theorem distance_next_tail {head tail : ℕ} (hh : head < cap) (ht : tail < cap)
    (hne : head ≠ tail) : distance cap head tail = distance cap head (next cap tail) + 1 := by
  rw [next_eq ht]
  unfold distance
  split <;> split <;> split <;> omega

/-! ### Operations -/

def push (r : Ring cap α) (a : α) : Ring cap α :=
  if next cap r.head ≠ r.tail then
    ⟨Function.update r.buf r.head a, next cap r.head, r.tail, next_lt r.head_lt, r.tail_lt⟩
  else r

def pop (r : Ring cap α) : Option (α × Ring cap α) :=
  if r.head = r.tail then none
  else some (r.buf r.tail, ⟨r.buf, r.head, next cap r.tail, r.head_lt, next_lt r.tail_lt⟩)

/- Number of elements in the ring. -/
def used (r : Ring cap α) : ℕ := distance cap r.head r.tail

def contents (r : Ring cap α) : List α :=
  (List.range r.used).map fun i => r.buf ((r.tail + i) % cap)

theorem used_lt (r : Ring cap α) : r.used < cap := distance_lt r.head_lt r.tail_lt

theorem length_contents (r : Ring cap α) : r.contents.length = r.used := by
  simp [contents]

theorem contents_of_empty {r : Ring cap α} (h : r.head = r.tail) : r.contents = [] := by
  have hu : r.used = 0 := by
    rw [used, distance, if_pos h.ge]
    omega
  rw [contents, hu]
  rfl

/- A push into a ring that is not full appends. -/
theorem push_contents (r : Ring cap α) (a : α) (hroom : r.used + 1 < cap) :
    (r.push a).contents = r.contents ++ [a] := by
  have hne := (next_ne_iff r.head_lt r.tail_lt).mpr hroom
  have hlast := tail_add_distance r.head_lt r.tail_lt
  have hused : used ⟨Function.update r.buf r.head a, next cap r.head, r.tail, next_lt r.head_lt,
      r.tail_lt⟩ = r.used + 1 := distance_next_head r.head_lt r.tail_lt hroom
  rw [push, if_pos hne, contents, hused, List.range_succ, List.map_append, List.map_singleton]
  refine congrArg₂ _ ?_ ?_
  · refine List.map_congr_left ?_
    intro i hi
    rw [List.mem_range] at hi
    have ht := r.tail_lt
    -- an occupied slot is never the one the head is at
    have hslot : (r.tail + i) % cap ≠ r.head := by
      have hd := tail_add_distance r.head_lt ht
      rw [← used] at hd
      rw [← hd, wrap_eq (by omega), wrap_eq (by omega)]
      split <;> split <;> omega
    exact Function.update_of_ne hslot _ _
  · rw [← used] at hlast
    simp only [hlast, Function.update_self]

/- A pop takes the first element. -/
theorem pop_contents {r : Ring cap α} (h : r.head ≠ r.tail) :
    ∃ a r', r.pop = some (a, r') ∧ r.contents = a :: r'.contents := by
  refine ⟨r.buf r.tail, ⟨r.buf, r.head, next cap r.tail, r.head_lt, next_lt r.tail_lt⟩, if_neg h, ?_⟩
  have hused : r.used = used ⟨r.buf, r.head, next cap r.tail, r.head_lt, next_lt r.tail_lt⟩ + 1 :=
    distance_next_tail r.head_lt r.tail_lt h
  rw [contents, hused, List.range_succ_eq_map, List.map_cons, Nat.add_zero,
    Nat.mod_eq_of_lt r.tail_lt, List.map_map, contents]
  refine congrArg _ (List.map_congr_left ?_)
  intro i _
  show r.buf ((r.tail + (i + 1)) % cap) = r.buf (((r.tail + 1) % cap + i) % cap)
  rw [Nat.mod_add_mod, Nat.add_right_comm, Nat.add_assoc]

theorem pop_empty {r : Ring cap α} (h : r.head = r.tail) : r.pop = none := if_pos h

end Ring

end CasseOS
