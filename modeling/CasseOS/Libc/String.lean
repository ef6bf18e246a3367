import CasseOS.Lib.Buffer
import CasseOS.Lib.Numeral

/-! # Conversions to text (`libc/string.c`)

The functions write to buffers of the caller; an access outside is a fault. A
conversion is right if it leaves its text at the start of any buffer with enough
room, whatever was in it. -/

namespace CasseOS.Libc
open Buffer Numeral

/- `strlen` (`string.c:86-90`), counting from `i`. -/
def strlenFrom : ℤ → List UInt8 → Except Fault ℤ
  | i, [] => .error (.read i)
  | i, c :: s => if c ≠ 0 then strlenFrom (i + 1) s else pure i

def strlen (s : List UInt8) : Except Fault ℤ := strlenFrom 0 s

/- The loop of `reverse`. -/
def reverseLoop (s : List UInt8) (i j : ℤ) : Except Fault (List UInt8) :=
  if i < j then do
    let c ← load s i
    let d ← load s j
    let s ← store s i d
    let s ← store s j c
    reverseLoop s (i + 1) (j - 1)
  else pure s
termination_by (j - i).toNat

/-- `reverse` (`string.c:76-83`). -/
def reverse (s : List UInt8) : Except Fault (List UInt8) := do
  let n ← strlen s
  reverseLoop s 0 (n - 1)

theorem toInt_div_ten {n : Int32} (hn : 0 ≤ n.toInt) : (n / 10).toInt = n.toInt / 10 := by
  rw [Int32.toInt_div_of_ne_right n 10 (by decide)]
  exact Int.tdiv_eq_ediv_of_nonneg hn

/- A quotient that is positive is that of a positive number. -/
theorem toInt_pos_of_div_ten {n : Int32} (h : 0 < n / 10) : 0 < n.toInt := by
  have hpos := Int32.lt_iff_toInt_lt.mp h
  rw [Int32.toInt_div_of_ne_right n 10 (by decide)] at hpos
  have hneg := Int.neg_tdiv (-n.toInt) (10 : Int32).toInt
  by_contra hn
  rw [Int.neg_neg, Int.tdiv_eq_ediv_of_nonneg (a := -n.toInt) (by omega)] at hneg
  have hten : (10 : Int32).toInt = 10 := rfl
  have hzero : (0 : Int32).toInt = 0 := rfl
  rw [hten] at hneg hpos
  omega

/- The `do` loop of `int_to_ascii`: the string and `i`. -/
def intDigits (n : Int32) (str : List UInt8) (i : ℤ) : Except Fault (List UInt8 × ℤ) := do
  let str ← store str i (n % 10 + 48).toInt8.toUInt8
  if h : 0 < n / 10 then intDigits (n / 10) str (i + 1) else pure (str, i + 1)
termination_by n.toInt.toNat
decreasing_by
  have hn := toInt_pos_of_div_ten h
  rw [toInt_div_ten hn.le]
  omega

/-- `int_to_ascii` (`string.c:6-18`). -/
def intToAscii (n : Int32) (str : List UInt8) : Except Fault (List UInt8) := do
  let sign := n
  let n := if sign < 0 then -n else n
  let (str, i) ← intDigits n str 0
  let (str, i) ← if sign < 0 then do
      let str ← store str i 45
      pure (str, i + 1)
    else pure (str, i)
  let str ← store str i 0
  reverse str

/- The loop of `uint_to_ascii` that fills `temp`: `temp` and `i`. -/
def uintDigits (value : UInt32) (temp : List UInt8) (i : ℤ) : Except Fault (List UInt8 × ℤ) :=
  if h : 0 < value then do
    let temp ← store temp i (48 + value % 10).toUInt8
    uintDigits (value / 10) temp (i + 1)
  else pure (temp, i)
termination_by value.toNat
decreasing_by
  have hpos := UInt32.lt_iff_toNat_lt.mp h
  rw [UInt32.toNat_div]
  exact Nat.div_lt_self hpos (by decide)

/- The loop that copies `temp` back, last character first: the string and `j`. -/
def copyBack (temp str : List UInt8) (i j : ℤ) : Except Fault (List UInt8 × ℤ) :=
  if 0 < i then do
    let c ← load temp (i - 1)
    let str ← store str j c
    copyBack temp str (i - 1) (j + 1)
  else pure (str, j)
termination_by i.toNat

/-- `uint_to_ascii` (`string.c:20-43`); `temp` is what the local buffer holds. -/
def uintToAscii (value : UInt32) (temp str : List UInt8) : Except Fault (List UInt8) :=
  if value = 0 then do
    let str ← store str 0 48
    store str 1 0
  else do
    let (temp, i) ← uintDigits value temp 0
    let (str, j) ← copyBack temp str i 0
    store str j 0

/- `hex_digits[value & 0xF]`. -/
def hexDigit (value : UInt64) : UInt8 := asciiDigit (value &&& 0xF).toNat

/- The loop of `hex_to_string`, from `i` down. -/
def hexLoop (value : UInt64) (buffer : List UInt8) (i : ℤ) : Except Fault (List UInt8) :=
  if 0 ≤ i then do
    let buffer ← store buffer i (hexDigit value)
    hexLoop (value >>> 4) buffer (i - 1)
  else pure buffer
termination_by (i + 1).toNat

/-- `hex_to_string` (`string.c:46-54`). -/
def hexToString (value : UInt64) (buffer : List UInt8) : Except Fault (List UInt8) := do
  let buffer ← hexLoop value buffer 15
  store buffer 16 0

/- The loop of `hex_to_string_trimmed` that fills the buffer from the end: the buffer
and `i`. -/
def hexFill (value : UInt64) (buffer : List UInt8) (i : ℤ) : Except Fault (List UInt8 × ℤ) :=
  if h : 0 < value ∨ i = 15 then do
    let buffer ← store buffer i (hexDigit value)
    hexFill (value >>> 4) buffer (i - 1)
  else pure (buffer, i)
termination_by 2 * value.toNat + if i = 15 then 1 else 0
decreasing_by
  have hshift : (value >>> 4).toNat = value.toNat / 16 := by
    rw [UInt64.toNat_shiftRight, Nat.shiftRight_eq_div_pow]
    rfl
  rw [UInt64.lt_iff_toNat_lt] at h
  have hzero : (0 : UInt64).toNat = 0 := rfl
  split_ifs <;> omega

/- The loop that moves the digits to the beginning: the buffer and `start`. -/
def hexMove (buffer : List UInt8) (i start : ℤ) : Except Fault (List UInt8 × ℤ) :=
  if i < 16 then do
    let c ← load buffer i
    let buffer ← store buffer start c
    hexMove buffer (i + 1) (start + 1)
  else pure (buffer, start)
termination_by (16 - i).toNat

/-- `hex_to_string_trimmed` (`string.c:56-72`). -/
def hexToStringTrimmed (value : UInt64) (buffer : List UInt8) : Except Fault (List UInt8) := do
  let (buffer, i) ← hexFill value buffer 15
  let (buffer, start) ← hexMove buffer (i + 1) 0
  store buffer start 0

/-! ### What a conversion gives -/

/- The conversion leaves the text, with a NUL after it, at the start of any buffer of
at least `room` bytes. -/
structure Gives (convert : List UInt8 → Except Fault (List UInt8)) (room : ℕ)
    (text : List UInt8) : Prop where
  fits : text.length < room
  nonzero : 0 ∉ text
  result : ∀ str, room ≤ str.length → ∃ rest, convert str = pure (text ++ 0 :: rest)

theorem Gives.mono {convert : List UInt8 → Except Fault (List UInt8)} {room room' : ℕ}
    {text : List UInt8} (h : Gives convert room text) (hroom : room ≤ room') :
    Gives convert room' text :=
  ⟨h.fits.trans_le hroom, h.nonzero, fun str hstr => h.result str (hroom.trans hstr)⟩

theorem strlenFrom_eq {text : List UInt8} (h : 0 ∉ text) (i : ℤ) (rest : List UInt8) :
    strlenFrom i (text ++ 0 :: rest) = pure (i + text.length) := by
  induction text generalizing i with
  | nil => simp [strlenFrom]
  | cons c text ih =>
    have hc : c ≠ 0 := fun hz => h (by simp [hz])
    have htext : 0 ∉ text := fun hm => h (List.mem_cons_of_mem _ hm)
    rw [List.cons_append, strlenFrom, if_pos hc, ih htext, List.length_cons]
    congr 1
    omega

/- The loop turns round what is between its two indices. -/
theorem reverseLoop_eq (mid : List UInt8) {pre post : List UInt8} {i j : ℤ} (hi : i = pre.length)
    (hj : j = pre.length + mid.length - 1) :
    reverseLoop (pre ++ mid ++ post) i j = pure (pre ++ mid.reverse ++ post) := by
  induction mid using List.bidirectionalRec generalizing pre post i j with
  | nil =>
    have hstop : ¬ i < j := by simp only [List.length_nil] at hj; omega
    rw [reverseLoop, if_neg hstop, List.reverse_nil]
  | singleton c =>
    have hstop : ¬ i < j := by simp only [List.length_singleton] at hj; omega
    rw [reverseLoop, if_neg hstop, List.reverse_singleton]
  | cons_append c mid d ih =>
    have hlen : ((c :: (mid ++ [d])).length : ℤ) = mid.length + 2 := by simp; omega
    have hgo : i < j := by omega
    have hfirst : pre ++ c :: (mid ++ [d]) ++ post = pre ++ c :: (mid ++ d :: post) := by simp
    have hlast (x : UInt8) : pre ++ x :: (mid ++ d :: post) = pre ++ x :: mid ++ d :: post := by simp
    have hlast' : j = ((pre ++ c :: mid).length : ℤ) := by simp; omega
    have hlast'' : j = ((pre ++ d :: mid).length : ℤ) := by simp; omega
    have hmid : pre ++ d :: mid ++ c :: post = pre ++ [d] ++ mid ++ c :: post := by simp
    have hi' : i + 1 = ((pre ++ [d]).length : ℤ) := by simp; omega
    have hj' : j - 1 = ((pre ++ [d]).length : ℤ) + mid.length - 1 := by simp; omega
    rw [reverseLoop, if_pos hgo, hfirst, load_append hi, pure_bind, hlast, load_append hlast',
      pure_bind, ← hlast, store_append hi, pure_bind, hlast, store_append hlast'', pure_bind, hmid,
      ih hi' hj']
    simp

theorem reverse_eq {text : List UInt8} (h : 0 ∉ text) (rest : List UInt8) :
    reverse (text ++ 0 :: rest) = pure (text.reverse ++ 0 :: rest) := by
  have hloop : reverseLoop ([] ++ text ++ 0 :: rest) 0 (0 + text.length - 1) =
      pure ([] ++ text.reverse ++ 0 :: rest) := reverseLoop_eq text rfl (by simp)
  rw [reverse, strlen, strlenFrom_eq h, pure_bind]
  exact hloop

/- A text that is stored with its NUL. -/
theorem storeAll_text {text str : List UInt8} (h : text.length < str.length) :
    storeAll str 0 (text ++ [0]) = pure (text ++ 0 :: str.drop (text.length + 1)) := by
  have hfits : (text ++ [0]).length ≤ str.length := by simpa using h
  have hall : storeAll ([] ++ str) 0 (text ++ [0]) = _ := storeAll_fits rfl hfits
  rw [List.nil_append] at hall
  rw [hall]
  simp

/-! ### Decimal -/

theorem intDigit_char {n : Int32} (hn : 0 ≤ n.toInt) :
    (n % 10 + 48).toInt8.toUInt8 = asciiDigit (n.toInt.toNat % 10) := by
  have hmod : n % 10 = Int32.ofNat (n.toInt.toNat % 10) := by
    apply Int32.toInt.inj
    rw [Int32.toInt_mod, Int32.toInt_ofNat_of_lt (by omega)]
    have hten : (10 : Int32).toInt = 10 := rfl
    rw [hten, Int.tmod_eq_emod_of_nonneg hn]
    omega
  have hchar : ∀ d < 10, (Int32.ofNat d + 48).toInt8.toUInt8 = asciiDigit d := by decide
  rw [hmod]
  exact hchar _ (Nat.mod_lt _ (by decide))

/- The digits of a number that is not negative, least significant first. -/
theorem intDigits_eq {n : Int32} (hn : 0 ≤ n.toInt) (str : List UInt8) (i : ℤ) :
    intDigits n str i = storeAll str i ((digits 10 n.toInt.toNat).map asciiDigit) >>= fun str =>
      pure (str, i + (digits 10 n.toInt.toNat).length) := by
  induction hm : n.toInt.toNat using Nat.strong_induction_on generalizing n str i with
  | h m ih =>
  have hdiv := toInt_div_ten hn
  rw [intDigits, intDigit_char hn, hm, digits_eq_cons (by decide), List.map_cons, storeAll,
    bind_assoc]
  refine bind_congr fun str => ?_
  by_cases hgo : 0 < n / 10
  · have hpos := toInt_pos_of_div_ten hgo
    have hnext : 0 < (n / 10).toInt := Int32.lt_iff_toInt_lt.mp hgo
    have hq : (n / 10).toInt.toNat = m / 10 := by omega
    have hne : ¬ m / 10 = 0 := by omega
    rw [dif_pos hgo, if_neg hne, ih (m / 10) (by omega) hnext.le str (i + 1) hq]
    refine bind_congr fun str => ?_
    rw [List.length_cons]
    congr 2
    omega
  · have hstop : ¬ 0 < (n / 10).toInt := fun h => hgo (Int32.lt_iff_toInt_lt.mpr h)
    have hzero : m / 10 = 0 := by omega
    rw [dif_neg hgo, if_pos hzero]
    simp [storeAll]

/- What `int_to_ascii` leaves: the least number is not negated. -/
def intText (n : Int32) : List UInt8 :=
  if n = Int32.minValue then [45, 40]
  else if n < 0 then 45 :: numeral 10 n.toInt.natAbs
  else numeral 10 n.toInt.natAbs

/- The characters as they come, before the string is turned round. -/
theorem intToAscii_of_digits {n : Int32} {text : List UInt8} (hzero : 0 ∉ text)
    (hdigits : ∀ str, intDigits (if n < 0 then -n else n) str 0 = storeAll str 0 text >>= fun str =>
      pure (str, (text.length : ℤ))) (str : List UInt8) (hroom : text.length + 1 < str.length) :
    ∃ rest, intToAscii n str = pure ((if n < 0 then 45 :: text.reverse else text.reverse) ++
      0 :: rest) := by
  have hall : storeAll ([] ++ str) 0 text = pure (text ++ str.drop text.length) :=
    storeAll_fits rfl (by omega)
  obtain ⟨x, y, rest, hdrop⟩ : ∃ x y rest, str.drop text.length = x :: y :: rest := by
    have hlen : (str.drop text.length).length = str.length - text.length := List.length_drop
    match str.drop text.length, hlen with
    | [], hlen => exact absurd hlen (by simp; omega)
    | [_], hlen => exact absurd hlen (by simp; omega)
    | x :: y :: rest, _ => exact ⟨x, y, rest, rfl⟩
  rw [List.nil_append, hdrop] at hall
  rw [intToAscii]
  dsimp only
  rw [hdigits, hall, pure_bind, pure_bind]
  dsimp only
  by_cases hneg : n < 0
  · have hsign : 0 ∉ text ++ [45] := by simpa using hzero
    have hsplit : text ++ 45 :: y :: rest = text ++ [45] ++ y :: rest := by simp
    have hend : (text.length : ℤ) + 1 = ((text ++ [45]).length : ℤ) := by simp
    rw [if_pos hneg, if_pos hneg, store_append rfl, pure_bind, pure_bind, hsplit,
      store_append hend, pure_bind, reverse_eq hsign, List.reverse_append]
    exact ⟨rest, rfl⟩
  · rw [if_neg hneg, if_neg hneg, pure_bind, store_append rfl, pure_bind, reverse_eq hzero]
    exact ⟨y :: rest, rfl⟩

theorem zero_notMem_map_digits {b : ℕ} (hb : 1 < b) (hb16 : b ≤ 16) (n : ℕ) :
    0 ∉ (digits b n).map asciiDigit := by
  have h := zero_notMem_numeral hb hb16 n
  rwa [numeral, List.map_reverse, List.mem_reverse] at h

theorem reverse_map_digits (b n : ℕ) : ((digits b n).map asciiDigit).reverse = numeral b n :=
  List.map_reverse.symm

/- The number that is not negative any more. -/
theorem toInt_abs {n : Int32} (hn : n ≠ Int32.minValue) :
    (if n < 0 then -n else n).toInt = (n.toInt.natAbs : ℤ) := by
  have hmin : n.toInt ≠ -2 ^ 31 := fun h => hn (Int32.toInt.inj (h.trans Int32.toInt_minValue.symm))
  have hle := n.minValue_le_toInt
  have hlt := n.toInt_lt
  rw [Int32.toInt_minValue] at hle
  have hzero : (0 : Int32).toInt = 0 := rfl
  split
  · next hneg =>
    have hneg := Int32.lt_iff_toInt_lt.mp hneg
    rw [Int32.toInt_neg, Int.bmod_eq_of_le (by omega) (by omega)]
    omega
  · next hpos =>
    have hpos : ¬ n.toInt < 0 := fun h => hpos (Int32.lt_iff_toInt_lt.mpr h)
    omega

theorem intToAscii_gives (n : Int32) : Gives (intToAscii n) 12 (intText n) := by
  by_cases hmin : n = Int32.minValue
  · -- one round of the loop, with a digit that is negative
    have hdigits (str : List UInt8) : intDigits (if n < 0 then -n else n) str 0 =
        storeAll str 0 [40] >>= fun str => pure (str, ((([40] : List UInt8).length : ℕ) : ℤ)) := by
      have hstop : ¬ 0 < Int32.minValue / 10 := by decide
      have hneg : (if n < 0 then -n else n) = Int32.minValue := by rw [hmin]; decide
      have hchar : (Int32.minValue % 10 + 48).toInt8.toUInt8 = 40 := by decide
      rw [hneg, intDigits, hchar, storeAll]
      simp [storeAll, hstop]
    have hneg : n < 0 := by rw [hmin]; decide
    rw [intText, if_pos hmin]
    refine ⟨by decide, by decide, fun str hroom => ?_⟩
    have hgives := intToAscii_of_digits (by decide) hdigits str (by simp; omega)
    rwa [if_pos hneg] at hgives
  have habs := toInt_abs hmin
  have hbound : n.toInt.natAbs < 10 ^ 10 := by
    have hle := n.minValue_le_toInt
    have hlt := n.toInt_lt
    rw [Int32.toInt_minValue] at hle
    omega
  have hlen : (digits 10 n.toInt.natAbs).length ≤ 10 :=
    length_digits_le (by decide) (by decide) hbound
  have hdigits (str : List UInt8) : intDigits (if n < 0 then -n else n) str 0 =
      storeAll str 0 ((digits 10 n.toInt.natAbs).map asciiDigit) >>= fun str =>
        pure (str, (((digits 10 n.toInt.natAbs).map asciiDigit).length : ℤ)) := by
    rw [intDigits_eq (by omega), habs, Int.toNat_natCast, List.length_map]
    refine bind_congr fun str => ?_
    rw [Int.zero_add]
  have hnumeral := zero_notMem_numeral (b := 10) (by decide) (by decide) n.toInt.natAbs
  have htext : intText n = if n < 0 then 45 :: numeral 10 n.toInt.natAbs
      else numeral 10 n.toInt.natAbs := by rw [intText, if_neg hmin]
  refine ⟨?_, ?_, fun str hroom => ?_⟩
  · rw [htext]
    split <;> simp only [List.length_cons, length_numeral] <;> omega
  · rw [htext]
    split
    · simpa using hnumeral
    · exact hnumeral
  · have hgives := intToAscii_of_digits (zero_notMem_map_digits (by decide) (by decide) _) hdigits
      str (by rw [List.length_map]; omega)
    rwa [reverse_map_digits, ← htext] at hgives

/-! ### Unsigned -/

theorem uintDigit_char (value : UInt32) :
    (48 + value % 10).toUInt8 = asciiDigit (value.toNat % 10) := by
  have hmod : value % 10 = UInt32.ofNat (value.toNat % 10) := by
    apply UInt32.toNat.inj
    rw [UInt32.toNat_mod, UInt32.toNat_ofNat_of_lt'
      (Nat.lt_trans (Nat.mod_lt _ (by decide)) (by decide))]
    rfl
  have hchar : ∀ d < 10, (48 + UInt32.ofNat d).toUInt8 = asciiDigit d := by decide
  rw [hmod]
  exact hchar _ (Nat.mod_lt _ (by decide))

theorem uintDigits_eq (value : UInt32) (temp : List UInt8) (i : ℤ) :
    uintDigits value temp i =
      storeAll temp i ((Nat.digits 10 value.toNat).map asciiDigit) >>= fun temp =>
        pure (temp, i + (Nat.digits 10 value.toNat).length) := by
  induction hm : value.toNat using Nat.strong_induction_on generalizing value temp i with
  | h m ih =>
  rw [uintDigits]
  by_cases hgo : 0 < value
  · have hpos : 0 < m := hm ▸ UInt32.lt_iff_toNat_lt.mp hgo
    have hq : (value / 10).toNat = m / 10 := by rw [UInt32.toNat_div, hm]; rfl
    rw [dif_pos hgo, uintDigit_char, hm, Nat.digits_def' (by decide) hpos, List.map_cons, storeAll,
      bind_assoc]
    refine bind_congr fun temp => ?_
    rw [ih (m / 10) (Nat.div_lt_self hpos (by decide)) (value / 10) temp (i + 1) hq]
    refine bind_congr fun temp => ?_
    rw [List.length_cons]
    congr 2
    omega
  · have hzero : m = 0 := by
      rw [UInt32.lt_iff_toNat_lt, hm] at hgo
      exact Nat.eq_zero_of_not_pos hgo
    rw [dif_neg hgo, hzero]
    simp [storeAll]

theorem copyBack_eq (taken rest str : List UInt8) (j : ℤ) :
    copyBack (taken ++ rest) str taken.length j = storeAll str j taken.reverse >>= fun str =>
      pure (str, j + taken.length) := by
  induction taken using List.reverseRecOn generalizing rest str j with
  | nil => rw [copyBack]; simp [storeAll]
  | append_singleton taken c ih =>
    have hgo : (0 : ℤ) < ((taken ++ [c]).length : ℤ) := by simp
    have hlast : ((taken ++ [c]).length : ℤ) - 1 = taken.length := by simp
    have hsplit : taken ++ [c] ++ rest = taken ++ c :: rest := by simp
    rw [copyBack, if_pos hgo, hlast, hsplit, load_append rfl, pure_bind, List.reverse_append,
      List.reverse_singleton, List.singleton_append, storeAll, bind_assoc]
    refine bind_congr fun str => ?_
    rw [ih (c :: rest)]
    refine bind_congr fun str => ?_
    congr 2
    simp
    omega

theorem uintToAscii_gives (value : UInt32) {temp : List UInt8} (htemp : 10 ≤ temp.length) :
    Gives (uintToAscii value temp) 11 (numeral 10 value.toNat) := by
  have hlen : (digits 10 value.toNat).length ≤ 10 :=
    length_digits_le (by decide) (by decide) (Nat.lt_trans value.toNat_lt (by decide))
  have hshort : (numeral 10 value.toNat).length ≤ 10 := by rwa [length_numeral]
  refine ⟨by omega, zero_notMem_numeral (by decide) (by decide) _, fun str hroom => ?_⟩
  have htext : storeAll str 0 (numeral 10 value.toNat ++ [0]) = _ := storeAll_text (by omega)
  refine ⟨_, Eq.trans ?_ htext⟩
  rw [uintToAscii, storeAll_append]
  by_cases hzero : value = 0
  · rw [if_pos hzero, hzero]
    simp [storeAll, numeral, digits, asciiDigit]
  have hne : value.toNat ≠ 0 := fun h => hzero (UInt32.toNat.inj h)
  have hdigits : digits 10 value.toNat = Nat.digits 10 value.toNat := by rw [digits, if_neg hne]
  have htaken : storeAll ([] ++ temp) 0 ((digits 10 value.toNat).map asciiDigit) = _ :=
    storeAll_fits rfl (by rw [List.length_map]; exact hlen.trans htemp)
  rw [List.nil_append, List.nil_append] at htaken
  have hi : (0 : ℤ) + (digits 10 value.toNat).length =
      (((digits 10 value.toNat).map asciiDigit).length : ℤ) := by simp
  rw [if_neg hzero, uintDigits_eq, ← hdigits, htaken, pure_bind, pure_bind]
  dsimp only
  rw [hi, copyBack_eq, reverse_map_digits, bind_assoc]
  refine bind_congr fun str => ?_
  rw [pure_bind, length_numeral, List.length_map]
  simp [storeAll]

/-! ### Hexadecimal -/

theorem toNat_shift_four (value : UInt64) : (value >>> 4).toNat = value.toNat / 16 := by
  rw [UInt64.toNat_shiftRight, Nat.shiftRight_eq_div_pow]
  rfl

theorem hexDigit_eq (value : UInt64) : hexDigit value = asciiDigit (value.toNat % 16) := by
  rw [hexDigit, UInt64.toNat_and]
  exact congrArg asciiDigit (Nat.and_two_pow_sub_one_eq_mod value.toNat 4)

/- The digits take the place of what is there, down to the beginning. -/
theorem hexLoop_eq (value : UInt64) (mid post : List UInt8) {i : ℤ} (hi : i = mid.length - 1) :
    hexLoop value (mid ++ post) i =
      pure ((padded 16 mid.length value.toNat).map asciiDigit ++ post) := by
  induction mid using List.reverseRecOn generalizing value post i with
  | nil =>
    have hstop : ¬ 0 ≤ i := by simp only [List.length_nil] at hi; omega
    rw [hexLoop, if_neg hstop]
    rfl
  | append_singleton mid x ih =>
    have hi' : i = (mid.length : ℤ) := by
      rw [hi]
      simp
    have hgo : 0 ≤ i := by omega
    have hsplit : mid ++ [x] ++ post = mid ++ x :: post := by simp
    have hlast : (mid ++ [x]).length = mid.length + 1 := by simp
    rw [hexLoop, if_pos hgo, hsplit, store_append hi', pure_bind, ih _ _ (by omega),
      toNat_shift_four, hexDigit_eq, hlast, padded_succ_eq]
    simp

theorem hexToString_gives (value : UInt64) :
    Gives (hexToString value) 17 ((padded 16 16 value.toNat).map asciiDigit) := by
  have hlen : ((padded 16 16 value.toNat).map asciiDigit).length = 16 := by
    rw [List.length_map, length_padded]
  refine ⟨by omega, ?_, fun str hroom => ?_⟩
  · intro h
    obtain ⟨d, hd, hzero⟩ := List.mem_map.mp h
    exact asciiDigit_ne_zero (lt_of_mem_padded (by decide) hd) hzero
  · have htake : (str.take 16).length = 16 := by
      rw [List.length_take]
      omega
    obtain ⟨x, rest, hdrop⟩ := List.exists_cons_of_length_pos
      (show 0 < (str.drop 16).length by rw [List.length_drop]; omega)
    have hloop := hexLoop_eq value (str.take 16) (str.drop 16) (i := 15) (by rw [htake]; rfl)
    rw [List.take_append_drop, htake, hdrop] at hloop
    refine ⟨rest, ?_⟩
    rw [hexToString, hloop, pure_bind]
    exact store_append (by rw [hlen]; rfl) _ _

/- The digits are put before what is already there; the loop stops below them. -/
theorem hexFill_eq {value : UInt64} {pre mid post : List UInt8} {i : ℤ}
    (hgo : 0 < value ∨ i = 15) (hi : i = pre.length + mid.length - 1) (hle : i ≤ 15)
    (hmid : mid.length = (digits 16 value.toNat).length) :
    hexFill value (pre ++ mid ++ post) i =
      pure (pre ++ numeral 16 value.toNat ++ post, (pre.length : ℤ) - 1) := by
  induction hm : value.toNat using Nat.strong_induction_on generalizing value mid post i with
  | h m ih =>
  obtain ⟨mid, x, rfl⟩ : ∃ mid' x, mid = mid' ++ [x] := by
    refine (List.eq_nil_or_concat' mid).resolve_left fun hnil => ?_
    have hpos := length_digits_pos 16 value.toNat
    rw [← hmid, hnil] at hpos
    exact Nat.lt_irrefl 0 hpos
  rw [hm] at hmid
  have hi' : i = ((pre ++ mid).length : ℤ) := by
    rw [hi]
    simp
    omega
  have hsplit : pre ++ (mid ++ [x]) ++ post = pre ++ mid ++ x :: post := by simp
  have hq := toNat_shift_four value
  rw [hm] at hq
  have hdigits := digits_eq_cons (b := 16) (by decide) m
  rw [hexFill, dif_pos hgo, hsplit, store_append hi', pure_bind, hexDigit_eq, hm]
  by_cases hzero : m / 16 = 0
  · -- the last digit
    rw [if_pos hzero] at hdigits
    have hnil : mid = [] := by
      rw [hdigits] at hmid
      simpa using hmid
    have hshift : ¬((0 : UInt64) < value >>> 4 ∨ i - 1 = 15) := by
      rw [UInt64.lt_iff_toNat_lt, hq, hzero]
      have hzero' : (0 : UInt64).toNat = 0 := rfl
      omega
    rw [hexFill, dif_neg hshift, hnil, numeral, hdigits]
    rw [hnil] at hi'
    simp [hi']
  · rw [if_neg hzero] at hdigits
    have hshift : (0 : UInt64) < value >>> 4 := by
      rw [UInt64.lt_iff_toNat_lt, hq]
      exact Nat.pos_of_ne_zero hzero
    have hmid' : mid.length = (digits 16 (value >>> 4).toNat).length := by
      rw [hdigits] at hmid
      rw [hq]
      simpa using hmid
    have hi'' : i - 1 = pre.length + mid.length - 1 := by
      rw [hi']
      simp
    rw [ih (m / 16) (by omega) (.inl hshift) hi'' (by omega) hmid' hq, numeral, numeral, hdigits]
    simp

/- The digits are moved over the gap before them. -/
theorem hexMove_eq (src pre gap post : List UInt8) {i start : ℤ}
    (hstart : start = pre.length) (hi : i = pre.length + gap.length) (hend : i + src.length = 16) :
    ∃ rest, rest.length = gap.length + post.length ∧
      hexMove (pre ++ gap ++ src ++ post) i start = pure (pre ++ src ++ rest, start + src.length) := by
  induction src generalizing pre gap i start with
  | nil =>
    have hstop : ¬ i < 16 := by simp only [List.length_nil] at hend; omega
    refine ⟨gap ++ post, List.length_append, ?_⟩
    rw [hexMove, if_neg hstop]
    simp
  | cons c src ih =>
    have hgo : i < 16 := by simp only [List.length_cons] at hend; omega
    have hfrom : pre ++ gap ++ c :: src ++ post = pre ++ gap ++ c :: (src ++ post) := by simp
    have hi' : i = ((pre ++ gap).length : ℤ) := by simp [hi]
    have hstart' : start + 1 = ((pre ++ [c]).length : ℤ) := by simp [hstart]
    have hend' : i + 1 + src.length = 16 := by simp only [List.length_cons] at hend; omega
    -- the cell that is written is the first of the gap, or that of the digit
    obtain ⟨gap', hlen, hstored⟩ : ∃ gap' : List UInt8, gap'.length = gap.length ∧
        store (pre ++ gap ++ c :: (src ++ post)) start c =
          pure (pre ++ [c] ++ gap' ++ src ++ post) := by
      cases gap with
      | nil =>
        refine ⟨[], rfl, ?_⟩
        rw [List.append_nil, store_append hstart]
        simp
      | cons x gap =>
        refine ⟨gap ++ [c], by simp, ?_⟩
        rw [List.append_assoc, List.cons_append, store_append hstart]
        simp
    obtain ⟨rest, hrest, hmoved⟩ := ih (pre ++ [c]) gap' hstart'
      (show i + 1 = ((pre ++ [c]).length : ℤ) + gap'.length by rw [hi, hlen]; simp; omega) hend'
    refine ⟨rest, by rw [hrest, hlen], ?_⟩
    have htext : pre ++ [c] ++ src ++ rest = pre ++ c :: src ++ rest := by simp
    have hnext : start + 1 + src.length = start + ((c :: src).length : ℤ) := by
      rw [List.length_cons]
      omega
    rw [hexMove, if_pos hgo, hfrom, load_append hi', pure_bind, hstored, pure_bind, hmoved, htext,
      hnext]

theorem hexToStringTrimmed_gives (value : UInt64) :
    Gives (hexToStringTrimmed value) 17 (numeral 16 value.toNat) := by
  have hlen : (digits 16 value.toNat).length ≤ 16 :=
    length_digits_le (by decide) (by decide) (Nat.lt_of_lt_of_eq value.toNat_lt (by decide))
  have hshort : (numeral 16 value.toNat).length ≤ 16 := by rwa [length_numeral]
  refine ⟨by omega, zero_notMem_numeral (by decide) (by decide) _, fun str hroom => ?_⟩
  -- the place of the digits, at the end of the first sixteen bytes
  obtain ⟨pre, mid, post, rfl, hpre, hmid⟩ : ∃ pre mid post : List UInt8, str = pre ++ mid ++ post ∧
      pre.length + mid.length = 16 ∧ mid.length = (digits 16 value.toNat).length := by
    refine ⟨str.take (16 - (digits 16 value.toNat).length),
      (str.drop (16 - (digits 16 value.toNat).length)).take (digits 16 value.toNat).length,
      str.drop 16, ?_, ?_, ?_⟩
    · rw [← List.take_add, Nat.sub_add_cancel hlen, List.take_append_drop]
    · rw [List.length_take, List.length_take, List.length_drop]
      omega
    · rw [List.length_take, List.length_drop]
      omega
  have hpost : 0 < post.length := by
    simp only [List.length_append] at hroom
    omega
  have hi : (pre.length : ℤ) - 1 + 1 = (([] : List UInt8).length : ℤ) + pre.length := by simp
  have hend : (pre.length : ℤ) - 1 + 1 + (numeral 16 value.toNat).length = 16 := by
    rw [length_numeral]
    omega
  obtain ⟨rest, hrest, hmoved⟩ := hexMove_eq (numeral 16 value.toNat) [] pre post rfl hi hend
  obtain ⟨x, rest, rfl⟩ := List.exists_cons_of_length_pos (by omega : 0 < rest.length)
  refine ⟨rest, ?_⟩
  have hmoved : hexMove (pre ++ numeral 16 value.toNat ++ post) (pre.length - 1 + 1) 0 =
      pure (numeral 16 value.toNat ++ x :: rest, ((numeral 16 value.toNat).length : ℤ)) := by
    simpa using hmoved
  rw [hexToStringTrimmed, hexFill_eq (.inr rfl) (by omega) le_rfl hmid, pure_bind]
  dsimp only
  rw [hmoved, pure_bind]
  exact store_append rfl _ _

end CasseOS.Libc
