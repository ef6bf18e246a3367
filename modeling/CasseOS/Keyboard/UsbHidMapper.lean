import CasseOS.Keyboard.ModifierKeys
import CasseOS.Keyboard.Releases

/-! # The other decoder of boot reports (`drivers/keyboard/usb_hid_mapper.c`)

`usbkbd_on_boot_report` compares two reports as `keyboard_usb_on_boot_report` does,
with tables of its own. They agree on the keys both know; on the modifier keys they
do not, for one has the aggregate bits in the place of the left keys, and the other
the masks and the keycodes in different orders. -/

namespace CasseOS.Keyboard
open Screen

/-- `hid_usage_to_kc` (`usb_hid_mapper.c:4-48`). -/
def hidUsageToKc (u : UInt8) : Keycode :=
  match u with
  | 0x28 => kcEnter
  | 0x2A => kcBackspace
  | 0x2B => kcTab
  | 0x2C => kcSpace
  | 0x29 => kcEsc
  | 0x39 => kcCapsLock
  | 0x53 => kcNumLock
  | 0x47 => kcScrollLock
  | 0x49 => kcInsert
  | 0x4A => kcHome
  | 0x4B => kcPgup
  | 0x4C => kcDelete
  | 0x4D => kcEnd
  | 0x4E => kcPgdn
  | 0x4F => kcRight
  | 0x50 => kcLeft
  | 0x51 => kcDown
  | 0x52 => kcUp
  | 0x3A => kcF 0
  | 0x3B => kcF 1
  | 0x3C => kcF 2
  | 0x3D => kcF 3
  | 0x3E => kcF 4
  | 0x3F => kcF 5
  | 0x40 => kcF 6
  | 0x41 => kcF 7
  | 0x42 => kcF 8
  | 0x43 => kcF 9
  | 0x44 => kcF 10
  | 0x45 => kcF 11
  | _ => kcNone

/-- `mods_from_hid` (`usb_hid_mapper.c:50-62`): each key has its own bit only. -/
def UsbHidMapper.modsFromHid (m : UInt8) : Mods :=
  let mods : Mods := 0
  let mods := if hidBit m 0 then mods ||| kmCtrl else mods
  let mods := if hidBit m 1 then mods ||| kmShift else mods
  let mods := if hidBit m 2 then mods ||| kmAlt else mods
  let mods := if hidBit m 3 then mods ||| kmGui else mods
  let mods := if hidBit m 4 then mods ||| kmRctrl else mods
  let mods := if hidBit m 5 then mods ||| kmRshift else mods
  let mods := if hidBit m 6 then mods ||| kmRalt else mods
  if hidBit m 7 then mods ||| kmRgui else mods

/- The array that `bit` is an index of. -/
def modifierCodes : List Keycode :=
  [kcLctrl, kcLshift, kcLalt, kcLgui, kcRctrl, kcRshift, kcRalt, kcRgui]

/- The body of the loop over the bits (`usb_hid_mapper.c:76-86`). -/
def modifierBit (t : TextMode) (devId : UInt8) (now changed : Mods) (bit : ℕ) (ks : Kbd × Console) :
    Kbd × Console :=
  let mask : Mods := 1#16 <<< bit
  if changed &&& mask ≠ 0 then
    kbdDispatchEvent t ks.1 ks.2 ⟨if now &&& mask ≠ 0 then .press else .release,
      modifierCodes.getD bit kcNone, 0, .usb, devId⟩
  else ks

/- The body of the release loop (`usb_hid_mapper.c:90-102`). -/
def releasedKey (t : TextMode) (devId : UInt8) (report : Report) (oldu : UInt8)
    (ks : Kbd × Console) : Kbd × Console :=
  if oldu ≠ 0 ∧ reportContains report oldu = false then
    let code := hidUsageToKc oldu
    if code ≠ kcNone then kbdDispatchEvent t ks.1 ks.2 ⟨.release, code, 0, .usb, devId⟩ else ks
  else ks

/- The body of the press loop (`usb_hid_mapper.c:104-116`). -/
def pressedKey (t : TextMode) (devId : UInt8) (prev : Report) (newu : UInt8) (ks : Kbd × Console) :
    Kbd × Console :=
  if newu ≠ 0 ∧ reportContains prev newu = false then
    let code := hidUsageToKc newu
    if code ≠ kcNone then kbdDispatchEvent t ks.1 ks.2 ⟨.press, code, 0, .usb, devId⟩ else ks
  else ks

/-- `usbkbd_on_boot_report` (`usb_hid_mapper.c:65-119`). -/
def usbkbdOnBootReport (t : TextMode) (logicalDevId : UInt8) (report prevReport : Report)
    (ks : Kbd × Console) : Kbd × Console :=
  let mods := report.modifiers
  let prevmods := prevReport.modifiers
  let now := UsbHidMapper.modsFromHid mods
  let prev := UsbHidMapper.modsFromHid prevmods
  let changed := now ^^^ prev
  let ks := (List.range 8).foldl (fun ks bit => modifierBit t logicalDevId now changed bit ks) ks
  let ks := keySlots.foldl (fun ks i => releasedKey t logicalDevId report (prevReport i) ks) ks
  keySlots.foldl (fun ks i => pressedKey t logicalDevId prevReport (report i) ks) ks

/-! ### Its events -/

def modifierBitEvent (devId : UInt8) (now changed : Mods) (bit : ℕ) : Option KeyEvent :=
  if changed &&& (1#16 <<< bit) ≠ 0 then
    some ⟨if now &&& (1#16 <<< bit) ≠ 0 then .press else .release, modifierCodes.getD bit kcNone, 0,
      .usb, devId⟩
  else none

def releasedKeyEvent (devId : UInt8) (report : Report) (k : Kbd) (u : UInt8) : Option UsageEvent :=
  if (u ≠ 0 ∧ reportContains report u = false) ∧ hidUsageToKc u ≠ kcNone then
    some ⟨u, k.mods, ⟨.release, hidUsageToKc u, 0, .usb, devId⟩⟩
  else none

def pressedKeyEvent (devId : UInt8) (prev : Report) (k : Kbd) (u : UInt8) : Option UsageEvent :=
  if (u ≠ 0 ∧ reportContains prev u = false) ∧ hidUsageToKc u ≠ kcNone then
    some ⟨u, k.mods, ⟨.press, hidUsageToKc u, 0, .usb, devId⟩⟩
  else none

def mapperEvents (k : Kbd) (devId : UInt8) (prev report : Report) : ReportEvents :=
  let now := UsbHidMapper.modsFromHid report.modifiers
  let changed := now ^^^ UsbHidMapper.modsFromHid prev.modifiers
  let modifiers := (List.range 8).filterMap (modifierBitEvent devId now changed)
  let k := withMods k modifiers
  let releases := loopEvents (releasedKeyEvent devId report) k (usages prev)
  let k := withMods k (releases.map UsageEvent.event)
  ⟨modifiers, releases, loopEvents (pressedKeyEvent devId prev) k (usages report)⟩

section Dispatch
variable (t : TextMode)

theorem modifierBit_eq (devId : UInt8) (now changed : Mods) (bit : ℕ) (ks : Kbd × Console) :
    modifierBit t devId now changed bit ks =
      dispatchEvents t ks (modifierBitEvent devId now changed bit).toList := by
  rw [modifierBit, modifierBitEvent]
  split
  · rfl
  · rfl

theorem releasedKey_eq (devId : UInt8) (report : Report) (u : UInt8) (ks : Kbd × Console) :
    releasedKey t devId report u ks =
      dispatchEvents t ks ((releasedKeyEvent devId report ks.1 u).toList.map UsageEvent.event) :=
  emitKey_if t 0 devId u ks false (hidUsageToKc u) _

theorem pressedKey_eq (devId : UInt8) (prev : Report) (u : UInt8) (ks : Kbd × Console) :
    pressedKey t devId prev u ks =
      dispatchEvents t ks ((pressedKeyEvent devId prev ks.1 u).toList.map UsageEvent.event) :=
  emitKey_if t 0 devId u ks true (hidUsageToKc u) _

theorem usbkbdOnBootReport_eq (devId : UInt8) (prev report : Report) (ks : Kbd × Console) :
    usbkbdOnBootReport t devId report prev ks =
      dispatchEvents t ks (mapperEvents ks.1 devId prev report).all := by
  have hlookup := (SameLookup.refl ks.1).dispatchEvents (t := t)
    (mapperEvents ks.1 devId prev report).modifiers
  have hreleases := foldl_loopEvents (releasedKey_eq t devId report)
    (fun k k' h u => by simp only [releasedKeyEvent, h.mods]) (usages prev) _ _ hlookup
  have hpresses := foldl_loopEvents (pressedKey_eq t devId prev)
    (fun k k' h u => by simp only [pressedKeyEvent, h.mods]) (usages report) _ _
    (hlookup.dispatchEvents (t := t)
      ((mapperEvents ks.1 devId prev report).releases.map UsageEvent.event))
  rw [ReportEvents.all, dispatchEvents_append, dispatchEvents_append]
  refine Eq.trans ?_ hpresses
  unfold usbkbdOnBootReport
  dsimp only
  rw [foldl_filterMap (modifierBit_eq t devId _ _), usages, List.foldl_map]
  congr 1

end Dispatch

end CasseOS.Keyboard
