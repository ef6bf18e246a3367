import CasseOS.Keyboard.Ps2
import Mathlib.Algebra.Ring.Parity

/-! # Caps Lock on PS/2

A Caps Lock make code is to toggle `KM_CAPS`. The handler toggles it and
dispatches the press, and the dispatcher toggles it again, so the bit is clear
after every byte and in every translation. -/

namespace CasseOS.Keyboard
open Screen

def capsBit (mods : Mods) : Bool := isSet mods kmCaps

theorem capsBit_eq (mods : Mods) : capsBit mods = mods.getLsbD 8 := isSet_bit mods (by decide)

/- Modifier keys do not touch the lock bit. -/
theorem updateModifiers_caps (mods : Mods) (e : KeyEvent) :
    capsBit (updateModifiers mods e) = capsBit mods := by
  have hmask : ((modifierMasks e.code).1 ||| (modifierMasks e.code).2).getLsbD 8 = false := by
    unfold modifierMasks
    split_ifs <;> decide
  rw [updateModifiers_eq, capsBit_eq, capsBit_eq]
  cases e.type with
  | press => rw [BitVec.getLsbD_or, hmask, Bool.or_false]
  | release =>
    rw [BitVec.getLsbD_and, BitVec.getLsbD_not, hmask]
    simp
  | autorepeat => rfl

/-! ### Streams -/

theorem ps2Bytes_caps (t : TextMode) (ks : Kbd × Console) (stream : List UInt8) :
    capsBit (ps2Bytes t ks stream).1.mods = capsBit ks.1.mods := by
  unfold ps2Bytes
  induction stream generalizing ks with
  | nil => rfl
  | cons sc stream ih =>
    rw [List.foldl_cons, ih, ps2Irq1Handler_mods, updateModifiers_caps]

/- The unprefixed Caps Lock make codes of a stream; `e0` tells whether the byte
before it is the prefix. -/
def capsMakes : Bool → List UInt8 → ℕ
  | _, [] => 0
  | e0, sc :: stream =>
    (if sc = scCapslock ∧ e0 = false then 1 else 0) + capsMakes (sc = 0xE0) stream

/- The make code of a key that the layout gives a character, with or without
Shift. The space bar is not among them: its character is fixed. -/
def printablePress (k : Kbd) (sc : UInt8) : Bool :=
  isBreak sc = false ∧ ps2Keycode (rawCode sc) = kcNone ∧ rawCode sc < 0x39 ∧
    (kbdLayoutAsciiFromSet1 k (rawCode sc) 0 ≠ 0 ∨ kbdLayoutAsciiFromSet1 k (rawCode sc) kmShift ≠ 0)

/- The handler looks the key up in the layout with the modifier word `mods`,
and dispatches a press of the character it finds. -/
def TranslatedWith (k : Kbd) (sc : UInt8) (mods : Mods) : Prop :=
  (ps2Prepared k sc).mods = mods ∧
    ps2Event k sc =
      let ch := kbdLayoutAsciiFromSet1 k (rawCode sc) mods
      if ch ≠ 0 then some ⟨.press, ch.toUInt16, mods, .ps2, 0⟩ else none

/- The navigation keys have larger codes. -/
theorem ps2E0ToExt_of_lt {raw : UInt8} (h : raw < 0x39) : ps2E0ToExt raw = kcNone := by
  unfold ps2E0ToExt
  split
  case h_11 => rfl
  all_goals exact absurd h (by decide)

theorem printablePress_translated {k' : Kbd} {sc : UInt8} (h : printablePress k' sc = true)
    (k : Kbd) : TranslatedWith k sc k.mods := by
  simp only [printablePress, decide_eq_true_eq] at h
  obtain ⟨hmake, hcode, hlt, -⟩ := h
  have hpre : sc ≠ 0xE0 := by
    rintro rfl
    exact absurd hmake (by decide)
  have hext : ¬ (k.ps2E0 = true ∧ ps2E0ToExt (rawCode sc) ≠ kcNone) :=
    fun hx => hx.2 (ps2E0ToExt_of_lt hlt)
  have hne : ∀ raw', ps2Keycode raw' ≠ kcNone → rawCode sc ≠ raw' := by
    rintro raw' hraw rfl
    exact hraw hcode
  have hkeep : maintainModifiers k.mods (rawCode sc) (isBreak sc) = k.mods := by
    unfold maintainModifiers
    simp (disch := decide) only [if_neg, hne, false_and]
  have hprep : ps2Prepared k sc = {k with ps2E0 := false} := by
    rw [ps2Prepared, if_neg hpre, if_neg hext, hkeep]
  have hlt' : rawCode sc < 0x40 := UInt8.lt_trans hlt (by decide)
  have hspace : rawCode sc ≠ 0x39 := fun h => absurd (h ▸ hlt) (by decide)
  have htrans : translatePs2Ascii {k with ps2E0 := false} (rawCode sc) =
      kbdLayoutAsciiFromSet1 k (rawCode sc) k.mods := by
    unfold translatePs2Ascii
    simp (disch := decide) only [if_neg, hne, hspace, if_pos hlt']
    rfl
  refine ⟨by rw [hprep], ?_⟩
  rw [ps2Event, if_neg hpre, if_neg hext, hprep, plainEvent, if_neg (not_not.mpr hcode), htrans,
    hmake]
  simp only [Bool.not_false, true_and]

/-! ### The law and when it holds -/

/- Caps Lock follows the count of its make codes: at the end of the stream and
in the translation of every printable press. -/
structure CapsLockWorks (t : TextMode) (ks : Kbd × Console) (stream : List UInt8) : Prop where
  final : capsBit (kbdModsState (ps2Bytes t ks stream).1) = decide (Odd (capsMakes false stream))
  presses : ∀ before sc rest, stream = before ++ sc :: rest → printablePress ks.1 sc = true →
    ∃ mods, TranslatedWith (ps2Bytes t ks before).1 sc mods ∧
      capsBit mods = decide (Odd (capsMakes false before))

/- Caps Lock was struck an even number of times, at the end of the stream and
before every printable press. -/
structure CapsMakesEven (k : Kbd) (stream : List UInt8) : Prop where
  final : Even (capsMakes false stream)
  presses : ∀ before sc rest, stream = before ++ sc :: rest → printablePress k sc = true →
    Even (capsMakes false before)

theorem even_iff_clear {n : ℕ} : Even n ↔ false = decide (Odd n) := by
  rw [eq_comm, decide_eq_false_iff_not, Nat.not_odd_iff_even]

/-- From `kbd_subsystem_init` on, Caps Lock follows the count of its make codes
exactly when that count is even wherever it is looked at. -/
theorem capsLockWorks_iff (t : TextMode) (k : Kbd) (s : Console) (stream : List UInt8) :
    CapsLockWorks t (kbdSubsystemInit k, s) stream ↔ CapsMakesEven (kbdSubsystemInit k) stream := by
  have hclear : ∀ stream, capsBit (ps2Bytes t (kbdSubsystemInit k, s) stream).1.mods = false := by
    intro stream
    rw [ps2Bytes_caps]
    exact (by decide : capsBit 0 = false)
  constructor
  · intro h
    refine ⟨even_iff_clear.mpr ((hclear stream).symm.trans h.final), ?_⟩
    intro before sc rest hsplit hpress
    obtain ⟨mods, htrans, hcaps⟩ := h.presses before sc rest hsplit hpress
    have hmods := (printablePress_translated hpress (ps2Bytes t (kbdSubsystemInit k, s) before).1).1
    rw [← htrans.1, hmods, hclear before] at hcaps
    exact even_iff_clear.mpr hcaps
  · intro h
    refine ⟨(hclear stream).trans (even_iff_clear.mp h.final), ?_⟩
    intro before sc rest hsplit hpress
    exact ⟨_, printablePress_translated hpress _,
      (hclear before).trans (even_iff_clear.mp (h.presses before sc rest hsplit hpress))⟩

/- One Caps Lock make code leaves the bit clear. -/
theorem capsLock_stays_clear :
    ¬ CapsLockWorks vgaText (kbdSubsystemInit kbdStatic, biosConsole) [0x3A] := by
  intro h
  have hfinal := h.final
  rw [kbdModsState, ps2Bytes_caps] at hfinal
  exact absurd hfinal (by decide)

end CasseOS.Keyboard
