import CasseOS.Screen.Printf

/-! # What the conversions write (`libc/string.c`, the `%b` of `printf`)

A conversion writes the numeral of its number, which is read back as the number. The
functions go about it in different ways; only `int_to_ascii` misses a number, the least
one, which it cannot negate. -/

namespace CasseOS.Libc
open Buffer Numeral Screen

/- The numeral of `n` in base `b`, with a NUL after it within `room` bytes. -/
def WritesNumeral (convert : List UInt8 → Except Fault (List UInt8)) (room b n : ℕ) : Prop :=
  ∃ text, Gives convert room text ∧ IsNumeral b text ∧ readNumeral b text = n

theorem Gives.writesNumeral {convert : List UInt8 → Except Fault (List UInt8)} {room b n : ℕ}
    (h : Gives convert room (numeral b n)) (hb : 1 < b) (hb16 : b ≤ 16) :
    WritesNumeral convert room b n :=
  ⟨numeral b n, h, isNumeral_numeral hb hb16 n, readNumeral_numeral hb hb16 n⟩

/-! ### Signed -/

/- A minus sign may come first, but not before "0". -/
inductive IsIntNumeral : List UInt8 → Prop where
  | nonneg {text : List UInt8} (numeral : IsNumeral 10 text) : IsIntNumeral text
  | neg {text : List UInt8} (numeral : IsNumeral 10 text) (nonzero : text ≠ [48]) :
    IsIntNumeral (45 :: text)

def readInt : List UInt8 → ℤ
  | [] => 0
  | c :: text => if c = 45 then -(readNumeral 10 text : ℤ) else readNumeral 10 (c :: text)

/- The numeral of an `int`, with its NUL within twelve bytes. -/
def WritesInt (n : Int32) : Prop :=
  ∃ text, Gives (intToAscii n) 12 text ∧ IsIntNumeral text ∧ readInt text = n.toInt

/- No digit is a minus sign. -/
theorem IsNumeral.readInt_eq {text : List UInt8} (h : IsNumeral 10 text) :
    readInt text = readNumeral 10 text := by
  cases text with
  | nil => exact absurd rfl h.nonempty
  | cons c text =>
    obtain ⟨d, hd, hc⟩ := h.digit c (List.mem_cons_self ..)
    have hsign : ∀ d < 10, asciiDigit d ≠ 45 := by decide
    rw [readInt, if_neg (hc ▸ hsign d hd)]

theorem numeral_ne_zero {n : ℕ} (hn : n ≠ 0) : numeral 10 n ≠ [48] := by
  intro h
  have hread := readNumeral_numeral (b := 10) (by decide) (by decide) n
  rw [h] at hread
  exact hn hread.symm

theorem writesInt_of_ne {n : Int32} (hn : n ≠ Int32.minValue) : WritesInt n := by
  have hgives := intToAscii_gives n
  have hnumeral := isNumeral_numeral (b := 10) (by decide) (by decide) n.toInt.natAbs
  have hread := readNumeral_numeral (b := 10) (by decide) (by decide) n.toInt.natAbs
  refine ⟨intText n, hgives, ?_⟩
  rw [intText, if_neg hn]
  by_cases hneg : n < 0
  · have hlt : n.toInt < 0 := Int32.lt_iff_toInt_lt.mp hneg
    rw [if_pos hneg]
    refine ⟨.neg hnumeral (numeral_ne_zero (by omega)), ?_⟩
    rw [readInt, if_pos rfl, hread]
    omega
  · have hle : ¬ n.toInt < 0 := fun h => hneg (Int32.lt_iff_toInt_lt.mpr h)
    rw [if_neg hneg]
    refine ⟨.nonneg hnumeral, ?_⟩
    rw [IsNumeral.readInt_eq hnumeral, hread]
    omega

/- The last character of the text for the least number is no digit. -/
theorem not_isNumeral_paren (text : List UInt8) (h : (40 : UInt8) ∈ text) : ¬ IsNumeral 10 text := by
  intro hnumeral
  obtain ⟨d, hd, hc⟩ := hnumeral.digit 40 h
  have hparen : ∀ d < 10, asciiDigit d ≠ 40 := by decide
  exact hparen d hd hc.symm

theorem not_writesInt_minValue : ¬ WritesInt Int32.minValue := by
  intro ⟨text, hgives, hint, _⟩
  have htext : text = intText Int32.minValue :=
    (written_of_gives hgives le_rfl).symm.trans (written_of_gives (intToAscii_gives _) le_rfl)
  have hminus : intText Int32.minValue = [45, 40] := by decide
  rw [htext, hminus] at hint
  cases hint with
  | nonneg numeral => exact not_isNumeral_paren _ (by decide) numeral
  | neg numeral nonzero => exact not_isNumeral_paren _ (by decide) numeral

/-- `int_to_ascii` writes the numeral of every number but the least one. -/
theorem int_to_ascii_exact_iff (n : Int32) : WritesInt n ↔ n ≠ Int32.minValue := by
  constructor
  · intro h hmin
    rw [hmin] at h
    exact not_writesInt_minValue h
  · exact writesInt_of_ne

/- Negating -2147483648 gives no number to take digits of. -/
theorem least_int_garbled : ¬ WritesInt (-2147483648) := by
  have hmin : (-2147483648 : Int32) = Int32.minValue := by decide
  rw [hmin]
  exact not_writesInt_minValue

/-! ### Unsigned, binary and hexadecimal -/

/-- All three write the numeral of every value, so that they agree on it, and the trimmed
text is the full one of sixteen digits without the zeros at its front. -/
theorem conversions_exact (temp : List UInt8) (htemp : temp.length = 16) :
    (∀ value : UInt32, WritesNumeral (uintToAscii value temp) 16 10 value.toNat) ∧
    (∀ value : UInt32, WritesNumeral (binaryToString value) 33 2 value.toNat) ∧
    (∀ value : UInt64, WritesNumeral (hexToStringTrimmed value) 17 16 value.toNat) ∧
    ∀ value : UInt64, ∃ text, text.length = 16 ∧ Gives (hexToString value) 17 text ∧
      Gives (hexToStringTrimmed value) 17 (trimZeros text) := by
  refine ⟨fun value => ?_, fun value => ?_, fun value => ?_, fun value => ?_⟩
  · have hgives := uintToAscii_gives value (by omega : 10 ≤ temp.length)
    exact (hgives.mono (by decide)).writesNumeral (by decide) (by decide)
  · exact (binaryToString_gives value).writesNumeral (by decide) (by decide)
  · exact (hexToStringTrimmed_gives value).writesNumeral (by decide) le_rfl
  · have hvalue : value.toNat < 16 ^ 16 := value.toNat_lt
    refine ⟨_, ?_, hexToString_gives value, ?_⟩
    · rw [List.length_map, length_padded]
    · rw [trimZeros_padded (by decide) le_rfl (by decide) hvalue]
      exact hexToStringTrimmed_gives value

theorem conversions_exact_full_width :
    WritesNumeral (uintToAscii 0xFFFFFFFF (List.replicate 16 0xCC)) 16 10 4294967295 ∧
      WritesNumeral (hexToStringTrimmed 0xFFFFFFFFFFFFFFFF) 17 16 (2 ^ 64 - 1) := by
  obtain ⟨huint, -, hhex, -⟩ := conversions_exact (List.replicate 16 0xCC) (by decide)
  exact ⟨huint 0xFFFFFFFF, hhex 0xFFFFFFFFFFFFFFFF⟩

end CasseOS.Libc
