import CasseOS.Keyboard.CapsLock
import CasseOS.Keyboard.Releases
import CasseOS.Lib.Run

/-! # One typist, two keyboards

The same presses and releases of keys reach one copy of the keyboard layer as
Set-1 bytes and another as boot reports. A key has its bytes and its place in a
report; the report of a keyboard is what is held down. -/

namespace CasseOS.Keyboard
open Screen

/-! ### Keys -/

/- The keys in rows, from the digits to the space bar: Set-1 code and usage. -/
def charKeys : List (UInt8 × UInt8) := [
  (0x02, 0x1E), (0x03, 0x1F), (0x04, 0x20), (0x05, 0x21), (0x06, 0x22), (0x07, 0x23), (0x08, 0x24),
  (0x09, 0x25), (0x0A, 0x26), (0x0B, 0x27), (0x0C, 0x2D), (0x0D, 0x2E),
  (0x10, 0x14), (0x11, 0x1A), (0x12, 0x08), (0x13, 0x15), (0x14, 0x17), (0x15, 0x1C), (0x16, 0x18),
  (0x17, 0x0C), (0x18, 0x12), (0x19, 0x13), (0x1A, 0x2F), (0x1B, 0x30),
  (0x1E, 0x04), (0x1F, 0x16), (0x20, 0x07), (0x21, 0x09), (0x22, 0x0A), (0x23, 0x0B), (0x24, 0x0D),
  (0x25, 0x0E), (0x26, 0x0F), (0x27, 0x33), (0x28, 0x34), (0x29, 0x35), (0x2B, 0x31),
  (0x2C, 0x1D), (0x2D, 0x1B), (0x2E, 0x06), (0x2F, 0x19), (0x30, 0x05), (0x31, 0x11), (0x32, 0x10),
  (0x33, 0x36), (0x34, 0x37), (0x35, 0x38), (0x39, 0x2C)]

/- Enter, Esc, Backspace, Tab and Caps Lock. -/
def controlKeys : List (UInt8 × UInt8) :=
  [(scEnter, 0x28), (scEsc, 0x29), (scBackspace, 0x2A), (scTab, 0x2B), (scCapslock, 0x39)]

/- The arrows and the navigation block; their bytes come after `0xE0`. -/
def navigationKeys : List (UInt8 × UInt8) :=
  [(0x48, 0x52), (0x50, 0x51), (0x4B, 0x50), (0x4D, 0x4F), (0x52, 0x49), (0x53, 0x4C), (0x47, 0x4A),
    (0x4F, 0x4D), (0x49, 0x4B), (0x51, 0x4E)]

/- A key that stands in a report as a usage. -/
structure UsageKey where
  set1 : UInt8
  extended : Bool
  usage : UInt8
  known : (set1, usage) ∈ if extended then navigationKeys else charKeys ++ controlKeys

inductive ModKey where
  | lshift
  | rshift
  | lctrl
  | rctrl
  | lalt
  | ralt
  deriving DecidableEq

/- The code of a modifier key, and whether it comes after `0xE0`. -/
def ModKey.set1 : ModKey → UInt8 × Bool
  | lshift => (scLshift, false)
  | rshift => (scRshift, false)
  | lctrl => (scLctrl, false)
  | rctrl => (scLctrl, true)
  | lalt => (scLalt, false)
  | ralt => (scLalt, true)

/- Its bit in the modifier byte of a report. -/
def ModKey.bit : ModKey → UInt8
  | lctrl => 0
  | lshift => 1
  | lalt => 2
  | rctrl => 4
  | rshift => 5
  | ralt => 6

inductive Key where
  | usage (k : UsageKey)
  | modifier (m : ModKey)

structure Transition where
  key : Key
  down : Bool

/-! ### Bytes -/

def keyBytes (set1 : UInt8) (extended down : Bool) : List UInt8 :=
  (if extended then [0xE0] else []) ++ [if down then set1 else set1 ||| 0x80]

def Transition.bytes (tr : Transition) : List UInt8 :=
  match tr.key with
  | .usage k => keyBytes k.set1 k.extended tr.down
  | .modifier m => keyBytes m.set1.1 m.set1.2 tr.down

/-! ### Reports -/

def modBit (m : ModKey) : UInt8 := 1 <<< m.bit

def setModifiers (r : Report) (m : UInt8) : Report := fun i => if i.val = 0 then m else r i

/- The usage takes the first empty slot, if there is one. -/
def addUsage (r : Report) (u : UInt8) : Option Report :=
  (keySlots.find? fun i => r i = 0).map fun i => Function.update r i u

def removeUsage (r : Report) (u : UInt8) : Report := fun i => if i ∈ keySlots ∧ r i = u then 0 else r i

/- What is held after the transition. There is no next report if the key is where
it is to go already, or if all six slots are taken. -/
def Transition.nextReport (tr : Transition) (r : Report) : Option Report :=
  match tr.key, tr.down with
  | .usage k, true => if reportContains r k.usage then none else addUsage r k.usage
  | .usage k, false => if reportContains r k.usage then some (removeUsage r k.usage) else none
  | .modifier m, true =>
    if hidBit r.modifiers m.bit then none else some (setModifiers r (r.modifiers ||| modBit m))
  | .modifier m, false =>
    if hidBit r.modifiers m.bit then some (setModifiers r (r.modifiers &&& ~~~modBit m)) else none

section Next
variable {r report : Report}

theorem nextReport_usage_press {k : UsageKey}
    (h : (Transition.mk (.usage k) true).nextReport r = some report) :
    reportContains r k.usage = false ∧ addUsage r k.usage = some report := by
  replace h : (if reportContains r k.usage then none else addUsage r k.usage) = some report := h
  split at h
  · cases h
  · next hnew => exact ⟨eq_false_of_ne_true hnew, h⟩

theorem nextReport_usage_release {k : UsageKey}
    (h : (Transition.mk (.usage k) false).nextReport r = some report) :
    report = removeUsage r k.usage := by
  replace h : (if reportContains r k.usage then some (removeUsage r k.usage) else none) = some report := h
  split at h
  · exact (Option.some.inj h).symm
  · cases h

theorem nextReport_modifier_press {m : ModKey}
    (h : (Transition.mk (.modifier m) true).nextReport r = some report) :
    hidBit r.modifiers m.bit = false ∧ report = setModifiers r (r.modifiers ||| modBit m) := by
  replace h : (if hidBit r.modifiers m.bit then none
    else some (setModifiers r (r.modifiers ||| modBit m))) = some report := h
  split at h
  · cases h
  · next hup => exact ⟨eq_false_of_ne_true hup, (Option.some.inj h).symm⟩

theorem nextReport_modifier_release {m : ModKey}
    (h : (Transition.mk (.modifier m) false).nextReport r = some report) :
    hidBit r.modifiers m.bit = true ∧ report = setModifiers r (r.modifiers &&& ~~~modBit m) := by
  replace h : (if hidBit r.modifiers m.bit then
    some (setModifiers r (r.modifiers &&& ~~~modBit m)) else none) = some report := h
  split at h
  · next hdown => exact ⟨hdown, (Option.some.inj h).symm⟩
  · cases h

end Next

/-! ### Typing -/

/- The keycodes of the PRESS events among some events. -/
def pressCodes (events : List KeyEvent) : List Keycode :=
  (events.filter fun e => e.type = .press).map KeyEvent.code

/- The events the bytes dispatch. -/
def ps2Events (t : TextMode) : Kbd × Console → List UInt8 → List KeyEvent
  | _, [] => []
  | ks, sc :: stream => (ps2Event ks.1 sc).toList ++ ps2Events t (ps2Irq1Handler t ks sc) stream

structure Typing where
  ps2 : Kbd × Console
  usb : KeyboardSystem
  /-- The keycodes of the PRESS events dispatched so far. -/
  ps2Codes : List Keycode
  usbCodes : List Keycode
  /-- The last transition of a Shift key was a press. -/
  shiftDown : Bool
  /-- Caps Lock was pressed an odd number of times. -/
  capsOdd : Bool

/- The last transition of a Shift key, after one more transition. -/
def Transition.shiftDown (tr : Transition) (down : Bool) : Bool :=
  match tr.key with
  | .modifier .lshift => tr.down
  | .modifier .rshift => tr.down
  | _ => down

def Transition.capsOdd (tr : Transition) (odd : Bool) : Bool :=
  match tr.key with
  | .usage k => odd ^^ (tr.down && k.set1 = scCapslock && !k.extended)
  | _ => odd

/- The held keys. -/
def Typing.report (s : Typing) (i : Fin maxUsbKeyboards) : Report := (s.usb.usb i).lastReport

/- One transition, on both keyboards. -/
def typeKey (t : TextMode) (i : Fin maxUsbKeyboards) (s : Typing) (tr : Transition) : Typing :=
  match tr.nextReport (s.report i) with
  | none => s
  | some report =>
    ⟨ps2Bytes t s.ps2 tr.bytes, keyboardUsbOnBootReport t s.usb i.val report,
      s.ps2Codes ++ pressCodes (ps2Events t s.ps2 tr.bytes),
      s.usbCodes ++ pressCodes (eventsAt s.usb i report).all,
      tr.shiftDown s.shiftDown, tr.capsOdd s.capsOdd⟩

/-! ### The PS/2 side of a transition -/

theorem pressCodes_append (l l' : List KeyEvent) : pressCodes (l ++ l') = pressCodes l ++ pressCodes l' := by
  simp [pressCodes]

theorem pressCodes_cons (e : KeyEvent) (l : List KeyEvent) :
    pressCodes (e :: l) = (if e.type = .press then [e.code] else []) ++ pressCodes l := by
  by_cases h : e.type = .press
  · simp [pressCodes, h]
  · simp [pressCodes, h]

theorem dispatchEvents_ps2E0 (t : TextMode) (ks : Kbd × Console) (l : List KeyEvent) :
    (dispatchEvents t ks l).1.ps2E0 = ks.1.ps2E0 := by
  have hone : ∀ k s ev, (kbdDispatchEvent t k s ev).1.ps2E0 = k.ps2E0 := by
    intro k s ev
    unfold kbdDispatchEvent pushAscii
    dsimp only
    split
    · split <;> rfl
    · rfl
  induction l generalizing ks with
  | nil => rfl
  | cons e l ih => exact (ih _).trans (hone ks.1 ks.2 e)

theorem ps2Prepared_fields (k : Kbd) (sc : UInt8) :
    (ps2Prepared k sc).tables = k.tables ∧ (ps2Prepared k sc).ps2E0 = decide (sc = 0xE0) := by
  unfold ps2Prepared
  by_cases hpre : sc = 0xE0
  · rw [if_pos hpre, decide_eq_true hpre]
    exact ⟨rfl, rfl⟩
  · rw [if_neg hpre, decide_eq_false hpre]
    split
    · exact ⟨rfl, rfl⟩
    · exact ⟨rfl, rfl⟩

theorem ps2Irq1Handler_fields (t : TextMode) (ks : Kbd × Console) (sc : UInt8) :
    (ps2Irq1Handler t ks sc).1.tables = ks.1.tables ∧
      (ps2Irq1Handler t ks sc).1.ps2E0 = decide (sc = 0xE0) := by
  obtain ⟨htables, he0⟩ := ps2Prepared_fields ks.1 sc
  rw [ps2Irq1Handler_eq]
  exact ⟨(dispatchEvents_tables ..).trans htables, (dispatchEvents_ps2E0 ..).trans he0⟩

/- The list of a keycode that is not `KC_NONE`. -/
def codeList (code : Keycode) : List Keycode := if code ≠ kcNone then [code] else []

theorem codeList_char (ch : UInt8) : codeList ch.toUInt16 = if ch ≠ 0 then [ch.toUInt16] else [] := by
  by_cases h : ch ≠ 0
  · rw [if_pos h, codeList, if_pos (char_code_ne_none h)]
  · rw [not_not] at h
    rw [h]
    rfl

/- The character of a key without a keycode of its own. -/
def ps2Char (l : Layout) (raw : UInt8) (shift : Bool) : UInt8 :=
  if raw = 0x39 then 32 else if raw < 0x40 then layoutChar l raw shift else 0

/- The keycode of a make code. -/
def plainCode (l : Layout) (raw : UInt8) (shift : Bool) : Keycode :=
  if ps2Keycode raw ≠ kcNone then ps2Keycode raw else (ps2Char l raw shift).toUInt16

def ps2Code (l : Layout) (raw : UInt8) (extended shift : Bool) : Keycode :=
  if extended = true ∧ ps2E0ToExt raw ≠ kcNone then ps2E0ToExt raw else plainCode l raw shift

theorem pressCodes_press (e : KeyEvent) (h : e.type = .press) : pressCodes [e] = [e.code] := by
  simp [pressCodes, h]

theorem pressCodes_release (l : List KeyEvent) (h : ∀ e ∈ l, e.type = .release) : pressCodes l = [] := by
  rw [pressCodes, List.map_eq_nil_iff, List.filter_eq_nil_iff]
  intro e he
  rw [h e he]
  decide

theorem plainEvent_release (k : Kbd) (raw : UInt8) :
    ∀ e ∈ plainEvent k raw false, e.type = .release := by
  intro e he
  unfold plainEvent at he
  split at he
  · cases he
    rfl
  · rw [if_neg (fun h => absurd h.1 Bool.false_ne_true)] at he
    cases he

theorem ps2Event_break {k : Kbd} {sc : UInt8} (h : isBreak sc = true) :
    pressCodes (ps2Event k sc).toList = [] := by
  apply pressCodes_release
  intro e he
  rw [Option.mem_toList] at he
  unfold ps2Event at he
  rw [h] at he
  split at he
  · cases he
  · split at he
    · cases he
      rfl
    · exact plainEvent_release _ _ e he

/- Only keys with a keycode of their own touch the modifier word. -/
theorem maintainModifiers_of_none {raw : UInt8} (h : ps2Keycode raw = kcNone) (mods : Mods) (brk : Bool) :
    maintainModifiers mods raw brk = mods := by
  obtain rfl | rfl | rfl | rfl | rfl | ⟨-, -, hkeep⟩ := ps2Keycode_cases raw
  · exact absurd h (by decide)
  · exact absurd h (by decide)
  · exact absurd h (by decide)
  · exact absurd h (by decide)
  · exact absurd h (by decide)
  · exact hkeep mods brk

theorem plainEvent_press {k : Kbd} {raw : UInt8} {shift : Bool}
    (hshift : ps2Keycode raw = kcNone → shifted k.mods = shift) :
    pressCodes (plainEvent k raw true).toList = codeList (plainCode k.tables raw shift) := by
  unfold plainEvent plainCode
  by_cases hcode : ps2Keycode raw ≠ kcNone
  · rw [if_pos hcode, if_pos hcode, codeList, if_pos hcode]
    exact pressCodes_press _ rfl
  · rw [if_neg hcode, if_neg hcode, codeList_char]
    rw [not_not] at hcode
    have hne : ∀ raw', ps2Keycode raw' ≠ kcNone → raw ≠ raw' := by
      rintro raw' hraw rfl
      exact hraw hcode
    have htrans : translatePs2Ascii k raw = ps2Char k.tables raw shift := by
      unfold translatePs2Ascii ps2Char
      simp (disch := decide) only [if_neg, hne]
      rw [layoutAscii_eq, hshift hcode]
    rw [htrans]
    by_cases hch : ps2Char k.tables raw shift ≠ 0
    · rw [if_pos ⟨rfl, hch⟩, if_pos hch]
      exact pressCodes_press _ rfl
    · rw [if_neg fun h => hch h.2, if_neg hch]
      rfl

/- A make code: below `0x80`. -/
theorem ps2Event_make {k : Kbd} {sc : UInt8} (h : isBreak sc = false) (hraw : rawCode sc = sc) :
    pressCodes (ps2Event k sc).toList =
      codeList (ps2Code k.tables sc k.ps2E0 (shifted k.mods)) := by
  have hpre : sc ≠ 0xE0 := by
    rintro rfl
    exact absurd h (by decide)
  unfold ps2Event ps2Code
  rw [if_neg hpre, hraw, h]
  by_cases hext : k.ps2E0 = true ∧ ps2E0ToExt sc ≠ kcNone
  · rw [if_pos hext, if_pos hext, codeList, if_pos hext.2]
    exact pressCodes_press _ rfl
  · rw [if_neg hext, if_neg hext, ← (ps2Prepared_fields k sc).1]
    apply plainEvent_press
    intro hcode
    rw [ps2Prepared, if_neg hpre, hraw, if_neg hext, maintainModifiers_of_none hcode]

/- A Set-1 code of a key: a make code, and not the prefix with bit 7 left out. -/
def IsSet1 (set1 : UInt8) : Prop :=
  isBreak set1 = false ∧ rawCode set1 = set1 ∧ isBreak (set1 ||| 0x80) = true ∧
    rawCode (set1 ||| 0x80) = set1 ∧ set1 ||| 0x80 ≠ 0xE0

instance (set1 : UInt8) : Decidable (IsSet1 set1) :=
  inferInstanceAs (Decidable (isBreak set1 = false ∧ rawCode set1 = set1 ∧
    isBreak (set1 ||| 0x80) = true ∧ rawCode (set1 ||| 0x80) = set1 ∧ set1 ||| 0x80 ≠ 0xE0))

section Bytes
variable {t : TextMode} {ks : Kbd × Console} {set1 : UInt8} (extended down : Bool)

theorem ps2Events_singleton (sc : UInt8) : ps2Events t ks [sc] = (ps2Event ks.1 sc).toList :=
  List.append_nil _

theorem ps2_prefix (ks : Kbd × Console) :
    ps2Irq1Handler t ks 0xE0 = ({ks.1 with ps2E0 := true}, ks.2) := rfl

/- The keycodes of the bytes of a key. -/
theorem ps2Events_key (h : IsSet1 set1) (he0 : ks.1.ps2E0 = false) :
    pressCodes (ps2Events t ks (keyBytes set1 extended down)) =
      if down then codeList (ps2Code ks.1.tables set1 extended (shifted ks.1.mods)) else [] := by
  obtain ⟨hmake, hraw, hbreak, -, -⟩ := h
  cases extended with
  | false =>
    cases down with
    | false => exact (congrArg pressCodes (ps2Events_singleton _)).trans (ps2Event_break hbreak)
    | true =>
      refine (congrArg pressCodes (ps2Events_singleton _)).trans ((ps2Event_make hmake hraw).trans ?_)
      rw [he0]
      rfl
  | true =>
    have hsplit : ∀ sc, ps2Events t ks [0xE0, sc] = (ps2Event {ks.1 with ps2E0 := true} sc).toList := by
      intro sc
      rw [ps2Events, ps2_prefix, ps2Events_singleton]
      rfl
    cases down with
    | false => exact (congrArg pressCodes (hsplit _)).trans (ps2Event_break hbreak)
    | true => exact (congrArg pressCodes (hsplit _)).trans (ps2Event_make hmake hraw)

theorem updateModifiers_bit_congr {m m' : Mods} {j : ℕ} (h : m.getLsbD j = m'.getLsbD j) (e : KeyEvent) :
    (updateModifiers m e).getLsbD j = (updateModifiers m' e).getLsbD j := by
  rw [updateModifiers_eq, updateModifiers_eq]
  cases e.type with
  | press => simp only [BitVec.getLsbD_or, h]
  | release => simp only [BitVec.getLsbD_and, h]
  | autorepeat => exact h

/- The Shift bit after an event; the locks have nothing to do with it. -/
theorem updateModifiers_shift (mods : Mods) (e : KeyEvent) :
    isSet (updateModifiers mods e) kmShift =
      if e.code = kcLshift ∨ e.code = kcRshift then downAfter (isSet mods kmShift) e.type
      else isSet mods kmShift := by
  have hbit : (updateModifiers (toggleLocks mods e) e).getLsbD 0 = (updateModifiers mods e).getLsbD 0 :=
    updateModifiers_bit_congr (toggleLocks_bit mods e (by decide)) e
  have hagg := modsAfter_agg mods e .shift
  rw [isSet_agg] at hagg
  exact (isSet_agg _ .shift).trans (hbit.symm.trans hagg)

/- A Shift key. -/
def isShift (set1 : UInt8) : Bool := set1 = scLshift ∨ set1 = scRshift

theorem isShift_iff (set1 : UInt8) :
    (ps2Keycode set1 = kcLshift ∨ ps2Keycode set1 = kcRshift) ↔ isShift set1 = true := by
  rw [isShift, decide_eq_true_eq]
  constructor
  · intro h
    by_contra hnot
    obtain ⟨hleft, hright⟩ := not_or.mp hnot
    rw [ps2Keycode, if_neg hleft, if_neg hright] at h
    repeat' split at h
    all_goals exact absurd h (by decide)
  · rintro (rfl | rfl)
    · decide
    · decide

structure AfterKey (ks ks' : Kbd × Console) (set1 : UInt8) (down : Bool) : Prop where
  tables : ks'.1.tables = ks.1.tables
  e0 : ks'.1.ps2E0 = false
  caps : capsBit ks'.1.mods = capsBit ks.1.mods
  shift : isSet ks'.1.mods kmShift = if isShift set1 then down else isSet ks.1.mods kmShift

theorem ps2Irq1Handler_shift (sc : UInt8) :
    isSet (ps2Irq1Handler t ks sc).1.mods kmShift =
      if isShift (rawCode sc) then !isBreak sc else isSet ks.1.mods kmShift := by
  rw [ps2Irq1Handler_mods, updateModifiers_shift]
  simp only [byteEvent, isShift_iff]
  cases isBreak sc <;> rfl

theorem ps2Byte_key {sc : UInt8} {down : Bool} (hraw : rawCode sc = set1) (hbreak : isBreak sc = !down)
    (hpre : sc ≠ 0xE0) : AfterKey ks (ps2Irq1Handler t ks sc) set1 down := by
  obtain ⟨htables, he0⟩ := ps2Irq1Handler_fields t ks sc
  refine ⟨htables, he0.trans (decide_eq_false hpre), ps2Bytes_caps t ks [sc],
    (ps2Irq1Handler_shift sc).trans ?_⟩
  rw [hraw, hbreak, Bool.not_not]

theorem ps2Bytes_key (h : IsSet1 set1) :
    AfterKey ks (ps2Bytes t ks (keyBytes set1 extended down)) set1 down := by
  obtain ⟨hmake, hraw, hbreak, hraw', hpre⟩ := h
  have hne : set1 ≠ 0xE0 := by
    rintro rfl
    exact absurd hmake (by decide)
  have hlast : ∀ ks : Kbd × Console, AfterKey ks
      (ps2Irq1Handler t ks (if down then set1 else set1 ||| 0x80)) set1 down := by
    intro ks
    cases down with
    | false => exact ps2Byte_key hraw' hbreak hpre
    | true => exact ps2Byte_key hraw hmake hne
  cases extended with
  | false => exact hlast ks
  | true =>
    -- the prefix only sets the flag
    have hafter := hlast (ps2Irq1Handler t ks 0xE0)
    exact ⟨hafter.tables, hafter.e0, hafter.caps, hafter.shift⟩

end Bytes

end CasseOS.Keyboard
