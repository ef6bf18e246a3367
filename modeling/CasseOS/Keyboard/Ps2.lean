import CasseOS.Keyboard.Modifiers

/-! # PS/2 keyboards (`drivers/keyboard/keyboard_common.c`)

The controller raises IRQ1 for each Set-1 byte. The handler keeps the `0xE0`
prefix of extended keys, updates the modifier word itself, and dispatches at
most one event per byte. -/

namespace CasseOS.Keyboard
open Screen

def scBackspace : UInt8 := 0x0E
def scTab : UInt8 := 0x0F
def scEnter : UInt8 := 0x1C
def scEsc : UInt8 := 0x01
def scLshift : UInt8 := 0x2A
def scRshift : UInt8 := 0x36
def scLctrl : UInt8 := 0x1D
def scLalt : UInt8 := 0x38
def scCapslock : UInt8 := 0x3A

/-- `ps2_e0_to_ext` (`keyboard_common.c:240-254`). -/
def ps2E0ToExt (raw : UInt8) : Keycode :=
  match raw with
  | 0x48 => kcUp
  | 0x50 => kcDown
  | 0x4B => kcLeft
  | 0x4D => kcRight
  | 0x52 => kcInsert
  | 0x53 => kcDelete
  | 0x47 => kcHome
  | 0x4F => kcEnd
  | 0x49 => kcPgup
  | 0x51 => kcPgdn
  | _ => kcNone

/-- `translate_ps2_ascii` (`keyboard_common.c:263-273`). -/
def translatePs2Ascii (k : Kbd) (raw : UInt8) : UInt8 :=
  if raw = scBackspace then 8
  else if raw = scTab then 9
  else if raw = scEnter then 10
  else if raw = 0x39 then 32
  else if raw < 0x40 then kbdLayoutAsciiFromSet1 k raw k.mods
  else 0

/-- The keys with a keycode of their own (`keyboard_common.c:281-292`). -/
def ps2Keycode (raw : UInt8) : Keycode :=
  if raw = scLshift then kcLshift
  else if raw = scRshift then kcRshift
  else if raw = scLctrl then kcLctrl
  else if raw = scLalt then kcLalt
  else if raw = scCapslock then kcCapsLock
  else if raw = scBackspace then kcBackspace
  else if raw = scTab then kcTab
  else if raw = scEnter then kcEnter
  else if raw = scEsc then kcEsc
  else kcNone

def makeType (make : Bool) : KeyEventType := if make then .press else .release

/-- `emit_ps2_event` (`keyboard_common.c:275-313`). -/
def emitPs2Event (t : TextMode) (ks : Kbd × Console) (raw : UInt8) (make : Bool) :
    Kbd × Console :=
  let code := ps2Keycode raw
  if code ≠ kcNone then kbdDispatchEvent t ks.1 ks.2 ⟨makeType make, code, ks.1.mods, .ps2, 0⟩
  else if make then
    let ch := translatePs2Ascii ks.1 raw
    if ch ≠ 0 then kbdDispatchEvent t ks.1 ks.2 ⟨.press, ch.toUInt16, ks.1.mods, .ps2, 0⟩ else ks
  else ks

/-- The modifier bits the handler keeps itself (`keyboard_common.c:341-358`). -/
def maintainModifiers (mods : Mods) (raw : UInt8) (breakCode : Bool) : Mods :=
  if raw = scLshift then if breakCode then mods &&& ~~~kmShift else mods ||| kmShift
  else if raw = scRshift then
    if breakCode then (mods &&& ~~~kmRshift) &&& ~~~kmShift else (mods ||| kmRshift) ||| kmShift
  else if raw = scLctrl then if breakCode then mods &&& ~~~kmCtrl else mods ||| kmCtrl
  else if raw = scLalt then if breakCode then mods &&& ~~~kmAlt else mods ||| kmAlt
  else if raw = scCapslock ∧ breakCode = false then mods ^^^ kmCaps
  else mods

/- Bit 7 of a byte tells a break code from a make code. -/
def isBreak (sc : UInt8) : Bool := sc &&& 0x80 ≠ 0

def rawCode (sc : UInt8) : UInt8 := sc &&& 0x7F

/-- `ps2_irq1_handler` (`keyboard_common.c:316-361`), for the byte read from
port `0x60`. -/
def ps2Irq1Handler (t : TextMode) (ks : Kbd × Console) (sc : UInt8) : Kbd × Console :=
  let (k, s) := ks
  if sc = 0xE0 then ({k with ps2E0 := true}, s)
  else
    let ext := if k.ps2E0 then ps2E0ToExt (rawCode sc) else kcNone
    let k := {k with ps2E0 := false}
    if ext ≠ kcNone then
      kbdDispatchEvent t k s ⟨makeType (!isBreak sc), ext, k.mods, .ps2, 0⟩
    else
      let k := {k with mods := maintainModifiers k.mods (rawCode sc) (isBreak sc)}
      emitPs2Event t (k, s) (rawCode sc) (!isBreak sc)

/-! ### What one byte does

The handler first brings the prefix and the modifier word up to date, then
dispatches the event of the byte, if it has one. -/

/- The state in which the event is dispatched. -/
def ps2Prepared (k : Kbd) (sc : UInt8) : Kbd :=
  if sc = 0xE0 then {k with ps2E0 := true}
  else if k.ps2E0 = true ∧ ps2E0ToExt (rawCode sc) ≠ kcNone then {k with ps2E0 := false}
  else {k with ps2E0 := false, mods := maintainModifiers k.mods (rawCode sc) (isBreak sc)}

/- The event of a key that has no extended code. -/
def plainEvent (k : Kbd) (raw : UInt8) (make : Bool) : Option KeyEvent :=
  if ps2Keycode raw ≠ kcNone then some ⟨makeType make, ps2Keycode raw, k.mods, .ps2, 0⟩
  else if make = true ∧ translatePs2Ascii k raw ≠ 0 then
    some ⟨.press, (translatePs2Ascii k raw).toUInt16, k.mods, .ps2, 0⟩
  else none

def ps2Event (k : Kbd) (sc : UInt8) : Option KeyEvent :=
  if sc = 0xE0 then none
  else if k.ps2E0 = true ∧ ps2E0ToExt (rawCode sc) ≠ kcNone then
    some ⟨makeType (!isBreak sc), ps2E0ToExt (rawCode sc), k.mods, .ps2, 0⟩
  else plainEvent (ps2Prepared k sc) (rawCode sc) (!isBreak sc)

theorem emitPs2Event_eq (t : TextMode) (ks : Kbd × Console) (raw : UInt8) (make : Bool) :
    emitPs2Event t ks raw make = dispatchEvents t ks (plainEvent ks.1 raw make).toList := by
  unfold emitPs2Event plainEvent
  dsimp only
  by_cases hcode : ps2Keycode raw ≠ kcNone
  · rw [if_pos hcode, if_pos hcode]
    rfl
  · rw [if_neg hcode, if_neg hcode]
    cases make with
    | false => rfl
    | true =>
      simp only [if_true, true_and]
      split <;> rfl

theorem ps2Irq1Handler_eq (t : TextMode) (ks : Kbd × Console) (sc : UInt8) :
    ps2Irq1Handler t ks sc =
      dispatchEvents t (ps2Prepared ks.1 sc, ks.2) (ps2Event ks.1 sc).toList := by
  obtain ⟨k, s⟩ := ks
  unfold ps2Irq1Handler ps2Event
  dsimp only
  by_cases hpre : sc = 0xE0
  · rw [if_pos hpre, if_pos hpre, ps2Prepared, if_pos hpre]
    rfl
  · rw [if_neg hpre, if_neg hpre]
    by_cases hext : k.ps2E0 = true ∧ ps2E0ToExt (rawCode sc) ≠ kcNone
    · have hprep : ps2Prepared k sc = {k with ps2E0 := false} := by
        rw [ps2Prepared, if_neg hpre, if_pos hext]
      rw [if_pos hext.1, if_pos hext.2, if_pos hext, hprep]
      rfl
    · have hprep : ps2Prepared k sc =
          {k with ps2E0 := false, mods := maintainModifiers k.mods (rawCode sc) (isBreak sc)} := by
        rw [ps2Prepared, if_neg hpre, if_neg hext]
      have hnone : (if k.ps2E0 = true then ps2E0ToExt (rawCode sc) else kcNone) = kcNone := by
        split
        next he => exact not_not.mp fun hne => hext ⟨he, hne⟩
        next => rfl
      rw [hnone, if_neg (not_not.mpr rfl), if_neg hext, hprep]
      exact emitPs2Event_eq t _ _ _

/-! ### The modifier word after one byte

The handler and the dispatcher both update the word. Setting and clearing bits
twice is the same as once, and toggling `KM_CAPS` twice is the same as not at
all. -/

/- The event of a byte, for the modifier word. -/
def byteEvent (mods : Mods) (sc : UInt8) : KeyEvent :=
  ⟨makeType (!isBreak sc), ps2Keycode (rawCode sc), mods, .ps2, 0⟩

/- The keycodes of the keys but for Caps Lock. -/
theorem ps2Keycode_ne {raw : UInt8} (h : raw ≠ scCapslock) {code : Keycode}
    (hcode : code ∉ [kcLshift, kcRshift, kcLctrl, kcLalt, kcBackspace, kcTab, kcEnter, kcEsc,
      kcNone]) : ps2Keycode raw ≠ code := by
  rintro rfl
  apply hcode
  simp only [ps2Keycode, if_neg h]
  repeat' split
  all_goals decide

theorem ps2Keycode_capsLock (raw : UInt8) : ps2Keycode raw = kcCapsLock ↔ raw = scCapslock := by
  constructor
  · intro h
    by_contra hraw
    exact ps2Keycode_ne hraw (by decide) h
  · rintro rfl
    decide

theorem ps2Keycode_lock (raw : UInt8) :
    ps2Keycode raw ≠ kcNumLock ∧ ps2Keycode raw ≠ kcScrollLock := by
  by_cases hraw : raw = scCapslock
  · rw [hraw]
    decide
  · exact ⟨ps2Keycode_ne hraw (by decide), ps2Keycode_ne hraw (by decide)⟩

theorem toggleLocks_ps2 (mods : Mods) {e : KeyEvent} {raw : UInt8} (h : e.code = ps2Keycode raw) :
    toggleLocks mods e = if raw = scCapslock ∧ e.type = .press then mods ^^^ kmCaps else mods := by
  obtain ⟨hnum, hscroll⟩ := ps2Keycode_lock raw
  unfold toggleLocks
  simp only [h, ps2Keycode_capsLock, if_neg hnum, if_neg hscroll]
  split_ifs <;> simp_all

theorem updateModifiers_lock (mods : Mods) {e : KeyEvent} (h : modifierMasks e.code = (0, 0)) :
    updateModifiers mods e = mods := by
  simp [updateModifiers, h]

theorem updateModifiers_twice (mods : Mods) (e : KeyEvent) :
    updateModifiers (updateModifiers mods e) e = updateModifiers mods e := by
  rw [updateModifiers_eq, updateModifiers_eq]
  cases e.type with
  | press => simp only [BitVec.or_assoc, BitVec.or_self]
  | release => simp only [BitVec.and_assoc, BitVec.and_self]
  | autorepeat => rfl

/- A key whose two masks are one. -/
theorem updateModifiers_left (mods : Mods) (code : Keycode) (mask : Mods)
    (h : modifierMasks code = (mask, mask)) (make : Bool) :
    updateModifiers mods ⟨makeType make, code, mods, .ps2, 0⟩ =
      if make then mods ||| mask else mods &&& ~~~mask := by
  rw [updateModifiers_eq, h, BitVec.or_self]
  cases make <;> rfl

/- The keys the handler treats as modifiers. -/
theorem ps2Keycode_cases (raw : UInt8) :
    raw = scLshift ∨ raw = scRshift ∨ raw = scLctrl ∨ raw = scLalt ∨ raw = scCapslock ∨
      (modifierMasks (ps2Keycode raw) = (0, 0) ∧ raw ≠ scCapslock ∧
        ∀ mods brk, maintainModifiers mods raw brk = mods) := by
  by_cases hmod : raw = scLshift ∨ raw = scRshift ∨ raw = scLctrl ∨ raw = scLalt ∨ raw = scCapslock
  · tauto
  · simp only [not_or] at hmod
    obtain ⟨hlshift, hrshift, hlctrl, hlalt, hcaps⟩ := hmod
    refine Or.inr (Or.inr (Or.inr (Or.inr (Or.inr ⟨?_, hcaps, ?_⟩))))
    · rw [ps2Keycode, if_neg hlshift, if_neg hrshift, if_neg hlctrl, if_neg hlalt, if_neg hcaps]
      split_ifs <;> decide
    · intro mods brk
      rw [maintainModifiers, if_neg hlshift, if_neg hrshift, if_neg hlctrl, if_neg hlalt,
        if_neg fun h => hcaps h.1]

theorem maintainModifiers_eq (mods : Mods) (sc : UInt8) :
    maintainModifiers mods (rawCode sc) (isBreak sc) =
      if rawCode sc = scCapslock ∧ isBreak sc = false then mods ^^^ kmCaps
      else updateModifiers mods (byteEvent mods sc) := by
  unfold byteEvent
  generalize rawCode sc = raw
  generalize isBreak sc = brk
  obtain rfl | rfl | rfl | rfl | rfl | ⟨hmask, hcaps, hkeep⟩ := ps2Keycode_cases raw
  · have hleft := updateModifiers_left mods kcLshift kmShift (by decide) (!brk)
    cases brk <;> exact hleft.symm
  · cases brk <;> rfl
  · have hleft := updateModifiers_left mods kcLctrl kmCtrl (by decide) (!brk)
    cases brk <;> exact hleft.symm
  · have hleft := updateModifiers_left mods kcLalt kmAlt (by decide) (!brk)
    cases brk <;> exact hleft.symm
  · cases brk <;> rfl
  · rw [hkeep, if_neg fun h => hcaps h.1, updateModifiers_lock mods hmask]

/- Keycodes below the lock and the modifier keys. -/
theorem modsAfter_of_lt (mods : Mods) {e : KeyEvent} (h : e.code.toNat < 0x140) :
    modsAfter mods e = mods := by
  have hne : ∀ code : Keycode, 0x140 ≤ code.toNat → e.code ≠ code := by
    rintro code hc rfl
    omega
  have hmask : modifierMasks e.code = (0, 0) := by
    rw [modifierMasks, if_neg (hne kcLshift (by decide)), if_neg (hne kcRshift (by decide)),
      if_neg (hne kcLctrl (by decide)), if_neg (hne kcRctrl (by decide)),
      if_neg (hne kcLalt (by decide)), if_neg (hne kcRalt (by decide)),
      if_neg (hne kcLgui (by decide)), if_neg (hne kcRgui (by decide))]
  have hlocks : toggleLocks mods e = mods := by
    simp only [toggleLocks, if_neg (hne kcCapsLock (by decide)), if_neg (hne kcNumLock (by decide)),
      if_neg (hne kcScrollLock (by decide)), ite_self]
  rw [modsAfter, hlocks, updateModifiers_lock mods hmask]

theorem ascii_lt (ch : UInt8) : ch.toUInt16.toNat < 0x140 := by
  have h := ch.toNat_lt
  rw [UInt8.toNat_toUInt16]
  omega

/- No navigation key is also one of the other keys. -/
theorem ps2E0ToExt_cases {raw : UInt8} (h : ps2E0ToExt raw ≠ kcNone) :
    (ps2E0ToExt raw).toNat < 0x140 ∧ ps2Keycode raw = kcNone := by
  unfold ps2E0ToExt at h ⊢
  split at h
  case h_11 => exact absurd rfl h
  all_goals exact ⟨by decide, by decide⟩

theorem plainEvent_mods (mods : Mods) (k : Kbd) (sc : UInt8)
    (hk : k.mods = maintainModifiers mods (rawCode sc) (isBreak sc)) :
    (plainEvent k (rawCode sc) (!isBreak sc)).toList.foldl modsAfter k.mods =
      updateModifiers mods (byteEvent mods sc) := by
  unfold plainEvent
  by_cases hcode : ps2Keycode (rawCode sc) ≠ kcNone
  · -- the dispatcher repeats what the handler did
    rw [if_pos hcode, Option.toList_some, List.foldl_cons, List.foldl_nil, modsAfter,
      toggleLocks_ps2 k.mods rfl, hk, maintainModifiers_eq]
    by_cases hcaps : rawCode sc = scCapslock ∧ isBreak sc = false
    · have hmask : modifierMasks (ps2Keycode (rawCode sc)) = (0, 0) := by
        rw [hcaps.1]
        decide
      have htwice : (mods ^^^ kmCaps) ^^^ kmCaps = mods := by
        rw [BitVec.xor_assoc, BitVec.xor_self, BitVec.xor_zero]
      rw [if_pos hcaps, if_pos ⟨hcaps.1, by rw [hcaps.2]; rfl⟩, htwice,
        updateModifiers_lock mods hmask, updateModifiers_lock mods hmask]
    · have hpress : ¬ (rawCode sc = scCapslock ∧ makeType (!isBreak sc) = .press) := by
        rintro ⟨hraw, hmake⟩
        cases hb : isBreak sc with
        | false => exact hcaps ⟨hraw, hb⟩
        | true => rw [hb] at hmake; exact absurd hmake (by decide)
      rw [if_neg hcaps, if_neg hpress]
      exact updateModifiers_twice mods (byteEvent mods sc)
  · rw [not_not] at hcode
    have hraw : rawCode sc ≠ scCapslock := fun h => by
      rw [h] at hcode
      exact absurd hcode (by decide)
    rw [maintainModifiers_eq, if_neg fun h => hraw h.1] at hk
    rw [if_neg (not_not.mpr hcode), ← hk]
    split
    next => exact modsAfter_of_lt _ (ascii_lt _)
    next => rfl

theorem ps2Irq1Handler_mods (t : TextMode) (ks : Kbd × Console) (sc : UInt8) :
    (ps2Irq1Handler t ks sc).1.mods = updateModifiers ks.1.mods (byteEvent ks.1.mods sc) := by
  rw [ps2Irq1Handler_eq, dispatchEvents_mods]
  unfold ps2Event
  by_cases hpre : sc = 0xE0
  · subst hpre
    have hmask : modifierMasks (ps2Keycode (rawCode 0xE0)) = (0, 0) := by decide
    exact (updateModifiers_lock _ hmask).symm
  · by_cases hext : ks.1.ps2E0 = true ∧ ps2E0ToExt (rawCode sc) ≠ kcNone
    · obtain ⟨hlt, hcode⟩ := ps2E0ToExt_cases hext.2
      have hprep : (ps2Prepared ks.1 sc).mods = ks.1.mods := by
        rw [ps2Prepared, if_neg hpre, if_pos hext]
      have hbyte : modifierMasks (byteEvent ks.1.mods sc).code = (0, 0) := by
        show modifierMasks (ps2Keycode (rawCode sc)) = (0, 0)
        rw [hcode]
        decide
      rw [if_neg hpre, if_pos hext, hprep, updateModifiers_lock _ hbyte]
      exact modsAfter_of_lt _ hlt
    · rw [if_neg hpre, if_neg hext]
      apply plainEvent_mods
      rw [ps2Prepared, if_neg hpre, if_neg hext]

/- A stream of bytes, one interrupt each. -/
def ps2Bytes (t : TextMode) (ks : Kbd × Console) (stream : List UInt8) : Kbd × Console :=
  stream.foldl (ps2Irq1Handler t) ks

end CasseOS.Keyboard
