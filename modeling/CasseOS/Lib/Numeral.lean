import Mathlib.Data.Nat.Digits.Lemmas
import Mathlib.Data.UInt
import Mathlib.Tactic.Common

/-! # Numerals

The numeral of a number has no leading zero, but one digit at least. `padded` are
the digits of a number in so many places, most significant first; without the zeros
at the front they are those of the numeral. -/

namespace CasseOS.Numeral

/- Least significant first. -/
def digits (b n : ℕ) : List ℕ := if n = 0 then [0] else Nat.digits b n

def padded (b : ℕ) : ℕ → ℕ → List ℕ
  | 0, _ => []
  | k + 1, n => n / b ^ k % b :: padded b k n

/- `0`..`9`, then `A`... -/
def asciiDigit (d : ℕ) : UInt8 := UInt8.ofNat (if d < 10 then 48 + d else 55 + d)

def numeral (b n : ℕ) : List UInt8 := (digits b n).reverse.map asciiDigit

variable {b n k : ℕ}

theorem digits_eq_cons (hb : 1 < b) (n : ℕ) :
    digits b n = n % b :: if n / b = 0 then [] else digits b (n / b) := by
  rw [digits, digits]
  by_cases hn : n = 0
  · rw [if_pos hn, hn, Nat.zero_div, if_pos rfl, Nat.zero_mod]
  · rw [if_neg hn, Nat.digits_def' hb (Nat.pos_of_ne_zero hn)]
    by_cases hq : n / b = 0
    · rw [if_pos hq, hq, Nat.digits_zero]
    · rw [if_neg hq, if_neg hq]

theorem length_digits_le (hb : 1 < b) (hk : 0 < k) (h : n < b ^ k) : (digits b n).length ≤ k := by
  rw [digits]
  split
  · exact hk
  · exact (Nat.digits_length_le_iff hb n).mpr h

theorem length_digits_pos (b n : ℕ) : 0 < (digits b n).length := by
  rw [digits]
  split
  · exact Nat.zero_lt_one
  · next hn => exact List.length_pos_iff.mpr (Nat.digits_ne_nil_iff_ne_zero.mpr hn)

theorem lt_of_mem_digits (hb : 1 < b) {d : ℕ} (h : d ∈ digits b n) : d < b := by
  rw [digits] at h
  split at h
  · rw [List.mem_singleton] at h
    omega
  · exact Nat.digits_lt_base hb h

theorem length_numeral (b n : ℕ) : (numeral b n).length = (digits b n).length := by
  rw [numeral, List.length_map, List.length_reverse]

theorem asciiDigit_ne_zero {d : ℕ} (h : d < 16) : asciiDigit d ≠ 0 := by
  revert d
  decide

/- No character of a numeral is a NUL. -/
theorem zero_notMem_numeral (hb : 1 < b) (hb16 : b ≤ 16) (n : ℕ) : 0 ∉ numeral b n := by
  intro h
  obtain ⟨d, hd, hzero⟩ := List.mem_map.mp h
  have hlt := lt_of_mem_digits hb (List.mem_reverse.mp hd)
  exact asciiDigit_ne_zero (by omega) hzero

/-! ### Numerals in so many places -/

theorem length_padded (b k n : ℕ) : (padded b k n).length = k := by
  induction k with
  | zero => rfl
  | succ k ih => rw [padded, List.length_cons, ih]

theorem padded_succ_eq (b k n : ℕ) : padded b (k + 1) n = padded b k (n / b) ++ [n % b] := by
  induction k with
  | zero => rw [padded, padded, padded, pow_zero, Nat.div_one, List.nil_append]
  | succ k ih =>
    have hdigit : n / b ^ (k + 1) = n / b / b ^ k := by rw [Nat.div_div_eq_div_mul, pow_succ']
    rw [padded, ih, padded, hdigit, List.cons_append]

theorem dropWhile_padded (hb : 1 < b) (h : n < b ^ k) :
    (padded b k n).dropWhile (· = 0) = (Nat.digits b n).reverse := by
  induction k generalizing n with
  | zero =>
    have hn : n = 0 := by simpa using h
    rw [hn, Nat.digits_zero]
    rfl
  | succ k ih =>
    have hq : n / b < b ^ k := Nat.div_lt_of_lt_mul (by rwa [← pow_succ'])
    rw [padded_succ_eq, List.dropWhile_append, ih hq]
    by_cases hn : n = 0
    · rw [hn, Nat.zero_div, Nat.digits_zero]
      simp
    rw [Nat.digits_def' hb (Nat.pos_of_ne_zero hn), List.reverse_cons]
    by_cases hzero : n / b = 0
    · have hmod : n % b ≠ 0 := by
        rw [Nat.mod_eq_of_lt (Nat.lt_of_div_eq_zero (by omega) hzero)]
        exact hn
      rw [hzero, Nat.digits_zero]
      simp [hmod]
    · have hne : Nat.digits b (n / b) ≠ [] := Nat.digits_ne_nil_iff_ne_zero.mpr hzero
      simp [hne]

/- The digits without the zeros at the front; a zero is left of nothing but zeros. -/
theorem reverse_digits (hb : 1 < b) (h : n < b ^ k) :
    (digits b n).reverse = if (padded b k n).dropWhile (· = 0) = [] then [0]
      else (padded b k n).dropWhile (· = 0) := by
  rw [dropWhile_padded hb h, digits]
  by_cases hn : n = 0
  · simp [hn]
  · have hne : (Nat.digits b n).reverse ≠ [] := by
      simpa [Nat.digits_ne_nil_iff_ne_zero] using hn
    rw [if_neg hn, if_neg hne]

/-! ### Reading a numeral -/

def readDigit (c : UInt8) : ℕ := if c < 58 then c.toNat - 48 else c.toNat - 55

def readNumeral (b : ℕ) (text : List UInt8) : ℕ :=
  text.foldl (fun n c => readDigit c + b * n) 0

/- Digits, one at least, and no zero in front of another digit. -/
structure IsNumeral (b : ℕ) (text : List UInt8) : Prop where
  digit : ∀ c ∈ text, ∃ d < b, c = asciiDigit d
  nonempty : text ≠ []
  lead : text.head? = some 48 → text = [48]

theorem readDigit_asciiDigit {d : ℕ} (h : d < 16) : readDigit (asciiDigit d) = d := by
  revert d
  decide

theorem asciiDigit_eq_zero {d : ℕ} (h : d < 16) : asciiDigit d = 48 ↔ d = 0 := by
  revert d
  decide

theorem readNumeral_map (hb16 : b ≤ 16) {ds : List ℕ} (h : ∀ d ∈ ds, d < b) :
    readNumeral b (ds.reverse.map asciiDigit) = Nat.ofDigits b ds := by
  induction ds with
  | nil => rfl
  | cons d ds ih =>
    have hd : readDigit (asciiDigit d) = d :=
      readDigit_asciiDigit (Nat.lt_of_lt_of_le (h d (List.mem_cons_self ..)) hb16)
    have hrest := ih fun d' hd' => h d' (List.mem_cons_of_mem d hd')
    rw [readNumeral] at hrest ⊢
    rw [List.reverse_cons, List.map_append, List.foldl_append, hrest, Nat.ofDigits_cons]
    exact congrArg (· + b * Nat.ofDigits b ds) hd

/- A numeral is read back as its number. -/
theorem readNumeral_numeral (hb : 1 < b) (hb16 : b ≤ 16) (n : ℕ) :
    readNumeral b (numeral b n) = n := by
  rw [numeral, readNumeral_map hb16 fun d => lt_of_mem_digits hb, digits]
  split
  · next hn =>
    rw [hn]
    rfl
  · exact Nat.ofDigits_digits b n

theorem isNumeral_numeral (hb : 1 < b) (hb16 : b ≤ 16) (n : ℕ) : IsNumeral b (numeral b n) := by
  have hpos := length_digits_pos b n
  refine ⟨?_, ?_, ?_⟩
  · intro c hc
    obtain ⟨d, hd, rfl⟩ := List.mem_map.mp hc
    exact ⟨d, lt_of_mem_digits hb (List.mem_reverse.mp hd), rfl⟩
  · rw [← List.length_pos_iff, length_numeral]
    exact hpos
  · intro hlead
    rw [numeral, List.head?_map, List.head?_reverse] at hlead
    obtain ⟨d, hlast, hd⟩ := Option.map_eq_some_iff.mp hlead
    have hmem : d ∈ digits b n := List.mem_of_getLast? hlast
    have hlt := lt_of_mem_digits hb hmem
    rw [asciiDigit_eq_zero (by omega)] at hd
    by_cases hn : n = 0
    · rw [hn]
      rfl
    · -- the last digit of a number that is not zero is not zero
      rw [digits, if_neg hn] at hlast
      have hne : Nat.digits b n ≠ [] := Nat.digits_ne_nil_iff_ne_zero.mpr hn
      rw [List.getLast?_eq_some_getLast hne] at hlast
      exact absurd ((Option.some.inj hlast).trans hd) (Nat.getLast_digit_ne_zero b hn)

/-! ### Zeros at the front -/

/- Without the zeros at the front, but with one digit at least. -/
def trimZeros : List UInt8 → List UInt8
  | [] => []
  | c :: text => if c = 48 ∧ text ≠ [] then trimZeros text else c :: text

theorem trimZeros_map {ds : List ℕ} (hne : ds ≠ []) (h : ∀ d ∈ ds, d < 16) :
    trimZeros (ds.map asciiDigit) =
      (if ds.dropWhile (· = 0) = [] then [0] else ds.dropWhile (· = 0)).map asciiDigit := by
  induction ds with
  | nil => exact absurd rfl hne
  | cons d ds ih =>
    have hd := asciiDigit_eq_zero (h d (List.mem_cons_self ..))
    rw [List.map_cons, trimZeros]
    by_cases hzero : d = 0
    · by_cases hnil : ds = []
      · rw [hnil, hzero]
        rfl
      · have hdrop : (d :: ds).dropWhile (· = 0) = ds.dropWhile (· = 0) :=
          List.dropWhile_cons_of_pos (by simpa using hzero)
        rw [if_pos ⟨hd.mpr hzero, fun hmap => hnil (List.map_eq_nil_iff.mp hmap)⟩, hdrop]
        exact ih hnil fun d' hd' => h d' (List.mem_cons_of_mem d hd')
    · have hkeep : (d :: ds).dropWhile (· = 0) = d :: ds :=
        List.dropWhile_cons_of_neg (by simpa using hzero)
      rw [if_neg fun hboth => hzero (hd.mp hboth.1), hkeep, if_neg (List.cons_ne_nil d ds),
        List.map_cons]

theorem lt_of_mem_padded (hb : 0 < b) {d : ℕ} (h : d ∈ padded b k n) : d < b := by
  induction k with
  | zero => exact absurd h List.not_mem_nil
  | succ k ih =>
    obtain hhead | htail := List.mem_cons.mp h
    · rw [hhead]
      exact Nat.mod_lt _ hb
    · exact ih htail

/- The numeral is what is left of the digits in so many places. -/
theorem trimZeros_padded (hb : 1 < b) (hb16 : b ≤ 16) (hk : 0 < k) (h : n < b ^ k) :
    trimZeros ((padded b k n).map asciiDigit) = numeral b n := by
  have hne : padded b k n ≠ [] := by
    rw [← List.length_pos_iff, length_padded]
    exact hk
  rw [trimZeros_map hne fun d hd => Nat.lt_of_lt_of_le (lt_of_mem_padded (by omega) hd) hb16,
    ← reverse_digits hb h, numeral]

end CasseOS.Numeral
