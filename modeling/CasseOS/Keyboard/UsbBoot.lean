import CasseOS.Keyboard.Common

/-! # USB boot keyboards (`drivers/keyboard/keyboard_usb.c`)

Each of the four slots keeps the last boot report of its keyboard; a new report
is turned into press and release events by comparing the two. -/

namespace CasseOS.Keyboard
open Screen

/- An 8-byte boot report: modifiers, a reserved byte and six usages. -/
abbrev Report := Fin 8 → UInt8

abbrev Report.modifiers (r : Report) : UInt8 := r 0

def kbStatInit : UInt8 := 1
def kbStatEnabled : UInt8 := 2

abbrev maxUsbKeyboards : ℕ := 4

/- `usb_keyboard_device_t`. -/
structure UsbKeyboardDevice where
  status : UInt8
  address : UInt8
  ep : UInt8
  interval : UInt8
  wMaxPacket : UInt16
  lastReport : Report
  lastMods : UInt8
  devId : UInt8

structure KeyboardSystem where
  /-- `g_kbds`. -/
  usb : Fin maxUsbKeyboards → UsbKeyboardDevice
  kbd : Kbd
  console : Console

/-! ### Tables -/

/- The test of bit `i` of the modifier byte. -/
def hidBit (m : UInt8) (i : UInt8) : Bool := m &&& (1 <<< i) ≠ 0

/-- `mods_from_hid` (`keyboard_usb.c:33-45`). -/
def modsFromHid (m : UInt8) : Mods :=
  let mods : Mods := 0
  let mods := if hidBit m 0 then mods ||| kmCtrl else mods
  let mods := if hidBit m 1 then mods ||| kmShift else mods
  let mods := if hidBit m 2 then mods ||| kmAlt else mods
  let mods := if hidBit m 3 then mods ||| kmGui else mods
  let mods := if hidBit m 4 then (mods ||| kmCtrl) ||| kmRctrl else mods
  let mods := if hidBit m 5 then (mods ||| kmShift) ||| kmRshift else mods
  let mods := if hidBit m 6 then (mods ||| kmAlt) ||| kmRalt else mods
  if hidBit m 7 then (mods ||| kmGui) ||| kmRgui else mods

def hidUsageMap : List (UInt8 × UInt8) := [
  (0x04, 0x1E), (0x05, 0x30), (0x06, 0x2E), (0x07, 0x20), (0x08, 0x12), (0x09, 0x21),
  (0x0A, 0x22), (0x0B, 0x23), (0x0C, 0x17), (0x0D, 0x24), (0x0E, 0x25), (0x0F, 0x26),
  (0x10, 0x32), (0x11, 0x31), (0x12, 0x18), (0x13, 0x19), (0x14, 0x10), (0x15, 0x13),
  (0x16, 0x1F), (0x17, 0x14), (0x18, 0x16), (0x19, 0x2F), (0x1A, 0x11), (0x1B, 0x2D),
  (0x1C, 0x15), (0x1D, 0x2C),
  (0x1E, 0x02), (0x1F, 0x03), (0x20, 0x04), (0x21, 0x05), (0x22, 0x06), (0x23, 0x07),
  (0x24, 0x08), (0x25, 0x09), (0x26, 0x0A), (0x27, 0x0B),
  (0x2C, 0x39),
  (0x2D, 0x0C), (0x2E, 0x0D), (0x2F, 0x1A), (0x30, 0x1B), (0x31, 0x2B),
  (0x33, 0x27), (0x34, 0x28), (0x35, 0x29),
  (0x36, 0x33), (0x37, 0x34), (0x38, 0x35)]

/-- `hid_usage_to_set1` (`keyboard_usb.c:72-78`). -/
def hidUsageToSet1 (usage : UInt8) : UInt8 :=
  match hidUsageMap.find? fun m => m.1 = usage with
  | some m => m.2
  | none => 0xFF

/-- `hid_usage_to_ext_kc` (`keyboard_usb.c:81-113`). -/
def hidUsageToExtKc (u : UInt8) : Keycode :=
  match u with
  | 0x28 => kcEnter
  | 0x29 => kcEsc
  | 0x2A => kcBackspace
  | 0x2B => kcTab
  | 0x2C => kcSpace
  | 0x3A => kcF 0
  | 0x3B => kcF 1
  | 0x3C => kcF 2
  | 0x3D => kcF 3
  | 0x3E => kcF 4
  | 0x3F => kcF 5
  | 0x40 => kcF 6
  | 0x41 => kcF 7
  | 0x42 => kcF 8
  | 0x43 => kcF 9
  | 0x44 => kcF 10
  | 0x45 => kcF 11
  | 0x39 => kcCapsLock
  | 0x52 => kcUp
  | 0x51 => kcDown
  | 0x50 => kcLeft
  | 0x4F => kcRight
  | 0x4A => kcHome
  | 0x4D => kcEnd
  | 0x4B => kcPgup
  | 0x4E => kcPgdn
  | 0x49 => kcInsert
  | 0x4C => kcDelete
  | _ => kcNone

/-- `hid_usage_to_ascii` (`keyboard_usb.c:118-123`). -/
def hidUsageToAscii (k : Kbd) (usage : UInt8) (modsState : Mods) : UInt8 :=
  let sc := hidUsageToSet1 usage
  if sc = 0xFF then 0 else kbdLayoutAsciiFromSet1 k sc modsState

/-! ### Emitting events -/

/-- `emit_key` (`keyboard_usb.c:126-136`). -/
def emitKey (t : TextMode) (pressed : Bool) (kc : Keycode) (mods : Mods) (devId : UInt8)
    (ks : Kbd × Console) : Kbd × Console :=
  kbdDispatchEvent t ks.1 ks.2 ⟨if pressed then .press else .release, kc, mods, .usb, devId⟩

/- The table of `emit_modifier_deltas`. -/
def modifierMap : List (Mods × Keycode) := [
  (kmCtrl, kcLctrl), (kmShift, kcLshift), (kmAlt, kcLalt), (kmGui, kcLgui),
  (kmRctrl, kcRctrl), (kmRshift, kcRshift), (kmRalt, kcRalt), (kmRgui, kcRgui)]

/-- `emit_modifier_deltas` (`keyboard_usb.c:139-154`). -/
def emitModifierDeltas (t : TextMode) (prev now : Mods) (devId : UInt8) (ks : Kbd × Console) :
    Kbd × Console :=
  let changed := prev ^^^ now
  modifierMap.foldl (fun ks m =>
    if changed &&& m.1 ≠ 0 then emitKey t (now &&& m.1 ≠ 0) m.2 now devId ks else ks) ks

/- The indices of the usages in a report. -/
def keySlots : List (Fin 8) := [2, 3, 4, 5, 6, 7]

/-- `report_contains` (`keyboard_usb.c:47-51`). -/
def reportContains (rep : Report) (usage : UInt8) : Bool := keySlots.any fun i => rep i = usage

/-- The keycode of a released usage (`keyboard_usb.c:247-252`). -/
def releaseCode (k : Kbd) (u : UInt8) : Keycode :=
  let kc := hidUsageToExtKc u
  if kc = kcNone then
    let ch := hidUsageToAscii k u 0
    if ch ≠ 0 then ch.toUInt16 else kc
  else kc

/-- The keycode of a pressed usage (`keyboard_usb.c:263-271`). -/
def pressCode (k : Kbd) (u : UInt8) : Keycode :=
  let modsSnapshot := kbdModsState k
  let ch := hidUsageToAscii k u modsSnapshot
  if ch ≠ 0 then ch.toUInt16 else hidUsageToExtKc u

/-- The body of the release loop (`keyboard_usb.c:244-256`). -/
def releaseUsage (t : TextMode) (mods : Mods) (devId : UInt8) (report : Report) (u : UInt8)
    (ks : Kbd × Console) : Kbd × Console :=
  if u ≠ 0 ∧ reportContains report u = false then
    let kc := releaseCode ks.1 u
    if kc ≠ kcNone then emitKey t false kc mods devId ks else ks
  else ks

/-- The body of the press loop (`keyboard_usb.c:259-276`). -/
def pressUsage (t : TextMode) (mods : Mods) (devId : UInt8) (prev : Report) (u : UInt8)
    (ks : Kbd × Console) : Kbd × Console :=
  if u ≠ 0 ∧ reportContains prev u = false then
    let kc := pressCode ks.1 u
    if kc ≠ kcNone then emitKey t true kc mods devId ks else ks
  else ks

/-- The events of a report, given the last one (`keyboard_usb.c:232-276`). -/
def emitReport (t : TextMode) (devId : UInt8) (prev report : Report) (ks : Kbd × Console) :
    Kbd × Console :=
  let mNow := modsFromHid (report 0)
  let mPrev := modsFromHid (prev 0)
  let ks := if mNow ≠ mPrev then emitModifierDeltas t mPrev mNow devId ks else ks
  let ks := keySlots.foldl (fun ks i => releaseUsage t mNow devId report (prev i) ks) ks
  keySlots.foldl (fun ks i => pressUsage t mNow devId prev (report i) ks) ks

/-! ### Slots -/

def setSlot (sys : KeyboardSystem) (i : Fin maxUsbKeyboards) (d : UsbKeyboardDevice) :
    KeyboardSystem :=
  {sys with usb := Function.update sys.usb i d}

/- Both status flags are set. -/
def enabled (d : UsbKeyboardDevice) : Bool :=
  d.status &&& (kbStatInit ||| kbStatEnabled) = kbStatInit ||| kbStatEnabled

/-- `keyboard_usb_on_boot_report` (`keyboard_usb.c:223-281`). -/
def keyboardUsbOnBootReport (t : TextMode) (sys : KeyboardSystem) (devIndex : ℤ)
    (report : Report) : KeyboardSystem :=
  if h : 0 ≤ devIndex ∧ devIndex < maxUsbKeyboards then
    let i : Fin maxUsbKeyboards := ⟨devIndex.toNat, by omega⟩
    let dev := sys.usb i
    if enabled dev then
      let (kbd, console) := emitReport t dev.devId dev.lastReport report (sys.kbd, sys.console)
      setSlot {sys with kbd, console} i {dev with lastMods := report 0, lastReport := report}
    else sys
  else sys

/-- `keyboard_register_usb_boot_keyboard` (`keyboard_usb.c:158-182`). -/
def keyboardRegisterUsbBootKeyboard (sys : KeyboardSystem) (address endpointAddr intervalMs : UInt8)
    (wMaxPacketSize : UInt16) : ℤ × KeyboardSystem :=
  match (List.finRange maxUsbKeyboards).find? fun i => (sys.usb i).status &&& kbStatInit = 0 with
  | some i =>
    let (devId, kbd) := kbdRegisterDevice sys.kbd .usb
    (i.val, setSlot {sys with kbd} i
      ⟨kbStatInit ||| kbStatEnabled, address, endpointAddr, intervalMs, wMaxPacketSize, fun _ => 0, 0,
        devId⟩)
  | none => (-1, sys)

end CasseOS.Keyboard
