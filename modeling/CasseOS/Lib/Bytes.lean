import Mathlib.Data.Nat.Init
import Mathlib.Data.UInt
import Mathlib.Logic.Function.Basic
import Mathlib.Tactic.Common
import Mathlib.Tactic.Ring

/-! # Memory by the byte

Numbers of several bytes in a memory, the low byte first, and the words of one
size that follow one another there. -/

namespace CasseOS.Bytes

abbrev Memory := ℕ → UInt8

/- The number in the `n` bytes from `a` on. -/
def load : ℕ → Memory → ℕ → ℕ
  | 0, _, _ => 0
  | n + 1, mem, a => (mem a).toNat + 256 * load n mem (a + 1)

def store : ℕ → Memory → ℕ → ℕ → Memory
  | 0, mem, _, _ => mem
  | n + 1, mem, a, v => store n (Function.update mem a (UInt8.ofNat v)) (a + 1) (v / 256)

variable {mem mem' : Memory} {a b n m v : ℕ}

theorem load_add (m n : ℕ) (mem : Memory) (a : ℕ) :
    load (m + n) mem a = load m mem a + 256 ^ m * load n mem (a + m) := by
  induction m generalizing a with
  | zero => simp [load]
  | succ m ih =>
    have hstep : m + 1 + n = m + n + 1 := by omega
    have hnext : a + 1 + m = a + (m + 1) := by omega
    rw [hstep, load, ih, load, hnext, pow_succ]
    ring

theorem load_congr (h : ∀ i < n, mem' (b + i) = mem (a + i)) : load n mem' b = load n mem a := by
  induction n generalizing a b with
  | zero => rfl
  | succ n ih =>
    have hfirst := h 0 (Nat.succ_pos n)
    rw [Nat.add_zero, Nat.add_zero] at hfirst
    rw [load, load, hfirst, ih]
    intro i hi
    have hnext := h (i + 1) (by omega)
    rwa [← Nat.add_assoc, Nat.add_right_comm, ← Nat.add_assoc a, Nat.add_right_comm a] at hnext

theorem store_other (h : b < a ∨ a + n ≤ b) : store n mem a v b = mem b := by
  induction n generalizing mem a v with
  | zero => rfl
  | succ n ih =>
    rw [store, ih (by omega), Function.update_of_ne (by omega)]

theorem load_store (n : ℕ) (mem : Memory) (a v : ℕ) : load n (store n mem a v) a = v % 256 ^ n := by
  induction n generalizing mem a v with
  | zero => simp [load, Nat.mod_one]
  | succ n ih =>
    have hbyte : store n (Function.update mem a (UInt8.ofNat v)) (a + 1) (v / 256) a =
        UInt8.ofNat v := by
      rw [store_other (Or.inl (Nat.lt_succ_self a)), Function.update_self]
    rw [load, store, ih, hbyte, UInt8.toNat_ofNat', pow_succ' 256 n, Nat.mod_mul]

theorem load_store_other (h : b + m ≤ a ∨ a + n ≤ b) :
    load m (store n mem a v) b = load m mem b :=
  load_congr fun i hi => store_other (by omega)

/- A zero, whatever its size, is a zero in each byte. -/
theorem store_zero (n : ℕ) (mem : Memory) (a b : ℕ) :
    store n mem a 0 b = if a ≤ b ∧ b < a + n then 0 else mem b := by
  induction n generalizing mem a with
  | zero =>
    rw [if_neg (by omega)]
    rfl
  | succ n ih =>
    rw [store, Nat.zero_div, ih, Function.update_apply]
    by_cases hb : b = a
    · rw [if_neg (by omega), if_pos hb, if_pos (by omega)]
      rfl
    · have hrange : (a + 1 ≤ b ∧ b < a + 1 + n) ↔ (a ≤ b ∧ b < a + (n + 1)) := by omega
      simp only [if_neg hb, hrange]

theorem load_zero (h : ∀ i < n, mem (a + i) = 0) : load n mem a = 0 := by
  induction n generalizing a with
  | zero => rfl
  | succ n ih =>
    have hfirst := h 0 (Nat.succ_pos n)
    rw [Nat.add_zero] at hfirst
    rw [load, hfirst, ih fun i hi => by rw [Nat.add_assoc, Nat.add_comm 1 i]; exact h (i + 1) (by omega)]
    rfl

/- The same byte `n` times. -/
def fill (mem : Memory) (a n : ℕ) (v : UInt8) : Memory := fun b => if a ≤ b ∧ b < a + n then v else mem b

theorem fill_other {v : UInt8} (h : b < a ∨ a + n ≤ b) : fill mem a n v b = mem b := if_neg (by omega)

/-! ### Numbers at equal distances -/

/- `val i` at `base + stride * i`, for `i` below the count. -/
def storeEach (n base stride : ℕ) (val : ℕ → ℕ) : ℕ → Memory → Memory
  | 0, mem => mem
  | k + 1, mem => store n (storeEach n base stride val k mem) (base + stride * k) (val k)

section Each
variable {base stride k i : ℕ} {val : ℕ → ℕ}

theorem storeEach_other (h : ∀ i < k, b < base + stride * i ∨ base + stride * i + n ≤ b) :
    storeEach n base stride val k mem b = mem b := by
  induction k with
  | zero => rfl
  | succ k ih =>
    rw [storeEach, store_other (h k (Nat.lt_succ_self k)), ih fun i hi => h i (by omega)]

theorem load_storeEach_other
    (h : ∀ i < k, b + m ≤ base + stride * i ∨ base + stride * i + n ≤ b) :
    load m (storeEach n base stride val k mem) b = load m mem b :=
  load_congr fun j hj => storeEach_other fun i hi => by have := h i hi; omega

theorem load_storeEach (hstride : n ≤ stride) (hi : i < k) :
    load n (storeEach n base stride val k mem) (base + stride * i) = val i % 256 ^ n := by
  induction k with
  | zero => exact absurd hi (Nat.not_lt_zero i)
  | succ k ih =>
    rw [storeEach]
    rcases Nat.lt_succ_iff_lt_or_eq.mp hi with hlt | rfl
    · have hnext : stride * (i + 1) ≤ stride * k := Nat.mul_le_mul_left stride hlt
      rw [Nat.mul_succ] at hnext
      rw [load_store_other (by omega), ih hlt]
    · exact load_store ..

end Each

/-! ### Copies -/

/- What was loaded, stored: the bytes are the same. -/
theorem store_load {i : ℕ} (hi : i < n) : store n mem a (load n mem' b) (a + i) = mem' (b + i) := by
  induction n generalizing mem a b i with
  | zero => exact absurd hi (Nat.not_lt_zero i)
  | succ n ih =>
    have hbyte := (mem' b).toNat_lt
    have hrest : load (n + 1) mem' b / 256 = load n mem' (b + 1) := by
      rw [load]
      omega
    have hlow : UInt8.ofNat (load (n + 1) mem' b) = mem' b := by
      rw [← UInt8.toNat_inj, UInt8.toNat_ofNat', load]
      omega
    rw [store, hrest, hlow]
    cases i with
    | zero =>
      show store n _ (a + 1) _ a = mem' b
      rw [store_other (Or.inl (Nat.lt_add_one a)), Function.update_self]
    | succ i =>
      have hat : a + (i + 1) = a + 1 + i := by omega
      have hfrom : b + (i + 1) = b + 1 + i := by omega
      rw [hat, hfrom]
      exact ih (Nat.lt_of_succ_lt_succ hi)

/- Numbers copied one after the other, from low addresses to high ones. -/
def copyEach (n : ℕ) : ℕ → Memory → ℕ → ℕ → Memory
  | 0, mem, _, _ => mem
  | k + 1, mem, dst, src => copyEach n k (store n mem dst (load n mem src)) (dst + n) (src + n)

section Copy
variable {k dst src : ℕ}

theorem copyEach_other (h : b < dst ∨ dst + n * k ≤ b) : copyEach n k mem dst src b = mem b := by
  induction k generalizing mem dst src with
  | zero => rfl
  | succ k ih =>
    rw [Nat.mul_succ] at h
    rw [copyEach, ih (by omega), store_other (by omega)]

/- The regions may overlap if the copy goes down. -/
theorem copyEach_copies (h : dst ≤ src ∨ src + n * k ≤ dst) {i : ℕ} (hi : i < n * k) :
    copyEach n k mem dst src (dst + i) = mem (src + i) := by
  induction k generalizing mem dst src i with
  | zero => exact absurd hi (Nat.not_lt_zero i)
  | succ k ih =>
    rw [Nat.mul_succ] at h hi
    rw [copyEach]
    rcases Nat.lt_or_ge i n with hfirst | hrest
    · rw [copyEach_other (Or.inl (by omega))]
      exact store_load hfirst
    · obtain ⟨j, rfl⟩ := Nat.exists_eq_add_of_le hrest
      rw [← Nat.add_assoc, ← Nat.add_assoc, ih (by omega) (by omega)]
      exact store_other (by omega)

end Copy

/-! ### Words -/

/- The words of `n` bytes from an address on. -/
def Words (n : ℕ) (mem : Memory) : ℕ → List ℕ → Prop
  | _, [] => True
  | a, w :: ws => load n mem a = w ∧ Words n mem (a + n) ws

theorem Words.congr {ws : List ℕ} (h : Words n mem a ws)
    (hmem : ∀ b, a ≤ b → b < a + n * ws.length → mem' b = mem b) : Words n mem' a ws := by
  induction ws generalizing a with
  | nil => trivial
  | cons w ws ih =>
    rw [List.length_cons, Nat.mul_succ] at hmem
    refine ⟨?_, ih h.2 fun b hb hlt => hmem b (by omega) (by omega)⟩
    rw [← h.1]
    exact load_congr fun i hi => hmem (a + i) (by omega) (by omega)

/- A word stored beside them. -/
theorem Words.store {ws : List ℕ} (h : Words n mem a ws) (hb : b + m ≤ a ∨ a + n * ws.length ≤ b)
    (v : ℕ) : Words n (store m mem b v) a ws :=
  h.congr fun c hc hlt => store_other (by omega)

/- A word pushed below them. -/
theorem Words.push {ws : List ℕ} (h : Words n mem a ws) (ha : n ≤ a) {w : ℕ} (hw : w < 256 ^ n) :
    Words n (Bytes.store n mem (a - n) w) (a - n) (w :: ws) := by
  refine ⟨?_, ?_⟩
  · rw [load_store, Nat.mod_eq_of_lt hw]
  · rw [Nat.sub_add_cancel ha]
    exact h.store (Or.inl (Nat.sub_add_cancel ha).le) w

theorem Words.get {ws : List ℕ} (h : Words n mem a ws) {i : ℕ} (hi : i < ws.length) :
    load n mem (a + n * i) = ws[i] := by
  induction ws generalizing a i with
  | nil => exact absurd hi (Nat.not_lt_zero i)
  | cons w ws ih =>
    cases i with
    | zero => exact h.1
    | succ i =>
      have hnext : a + n * (i + 1) = a + n + n * i := by ring
      rw [hnext]
      exact ih h.2 (Nat.lt_of_succ_lt_succ hi)

end CasseOS.Bytes
