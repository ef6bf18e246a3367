import CasseOS.Keyboard.Keycode
import CasseOS.Lib.Ring
import CasseOS.Screen.Console

/-! # The keyboard layer (`drivers/keyboard/keyboard_common.c`)

PS/2 and USB keyboards dispatch their events here. The dispatcher keeps the
modifier word, queues the event and, for ASCII presses, the character; with
auto echo on it prints the character, so it passes the console along. -/

namespace CasseOS.Keyboard
open Screen

def keybufCap : ℕ := 256

/- The pair of tables `tbl_norm` and `tbl_shift` point to. -/
inductive Layout where
  | qwerty
  | azerty
  deriving DecidableEq, Repr

structure Kbd where
  events : Ring keybufCap KeyEvent
  ascii : Ring keybufCap UInt8
  /-- `g_layout`. -/
  gLayout : UInt8
  /-- `tbl_norm` and `tbl_shift`. -/
  tables : Layout
  autoEcho : Bool
  /-- `g_mods`. -/
  mods : Mods
  ps2E0 : Bool
  ps2Registered : Bool
  usbNextId : UInt8

/- The static initial values. -/
def kbdStatic : Kbd :=
  ⟨⟨fun _ => ⟨.press, kcNone, 0, .ps2, 0⟩, 0, 0, by decide, by decide⟩,
    ⟨fun _ => 0, 0, 0, by decide, by decide⟩, 1, .azerty, false, 0, false, false, 1⟩

/-! ### Layout tables -/

def scAsciiQwerty : Array UInt8 := #[
  63, 63, 49, 50, 51, 52, 53, 54, 55, 56, 57, 48, 45, 61, 63, 63, 113, 119, 101, 114, 116, 121,
  117, 105, 111, 112, 91, 93, 63, 63, 97, 115, 100, 102, 103, 104, 106, 107, 108, 59, 39, 96, 63,
  92, 122, 120, 99, 118, 98, 110, 109, 44, 46, 47, 63, 63, 63, 32]

def scAsciiQwertyCap : Array UInt8 := #[
  63, 63, 49, 50, 51, 52, 53, 54, 55, 56, 57, 48, 45, 61, 63, 63, 81, 87, 69, 82, 84, 89, 85, 73,
  79, 80, 91, 93, 63, 63, 65, 83, 68, 70, 71, 72, 74, 75, 76, 59, 39, 96, 63, 92, 90, 88, 67, 86,
  66, 78, 77, 44, 46, 47, 63, 63, 63, 32]

def scAsciiAzerty : Array UInt8 := #[
  63, 63, 38, 26, 34, 39, 40, 45, 26, 95, 26, 26, 41, 61, 63, 63, 97, 122, 101, 114, 116, 121,
  117, 105, 111, 112, 94, 36, 63, 63, 113, 115, 100, 102, 103, 104, 106, 107, 108, 109, 63, 42,
  63, 42, 119, 120, 99, 118, 98, 110, 44, 59, 59, 33, 33, 63, 63, 32]

def scAsciiAzertyCap : Array UInt8 := #[
  63, 63, 49, 50, 51, 52, 53, 54, 55, 56, 57, 48, 26, 43, 63, 63, 65, 90, 69, 82, 84, 89, 85, 73,
  79, 80, 26, 26, 63, 63, 81, 83, 68, 70, 71, 72, 74, 75, 76, 77, 63, 42, 63, 42, 87, 88, 67, 86,
  66, 78, 63, 46, 47, 63, 26, 63, 63, 32]

def tblNorm : Layout → Array UInt8
  | .qwerty => scAsciiQwerty
  | .azerty => scAsciiAzerty

def tblShift : Layout → Array UInt8
  | .qwerty => scAsciiQwertyCap
  | .azerty => scAsciiAzertyCap

/-- `kbd_layout_ascii_from_set1` (`keyboard_common.c:256-261`). -/
def kbdLayoutAsciiFromSet1 (k : Kbd) (sc : UInt8) (modsState : Mods) : UInt8 :=
  if scAsciiQwerty.size ≤ sc.toNat then 0
  else
    let tbl := if (modsState &&& kmCaps) ^^^ (modsState &&& kmShift) ≠ 0 then tblShift k.tables
      else tblNorm k.tables
    let c := tbl.getD sc.toNat 0
    if c = 63 then 0 else c

/-! ### Queues -/

/-- `kb_console_putc` (`keyboard_common.c:70-74`). -/
def kbConsolePutc (t : TextMode) (s : Console) (c : UInt8) : Console := kprint t s [c, 0]

/-- `push_event` (`keyboard_common.c:79-82`). -/
def pushEvent (k : Kbd) (e : KeyEvent) : Kbd := {k with events := k.events.push e}

/-- `push_ascii` (`keyboard_common.c:84-89`). -/
def pushAscii (t : TextMode) (k : Kbd) (s : Console) (c : UInt8) : Kbd × Console :=
  if c = 0 then (k, s)
  else ({k with ascii := k.ascii.push c}, if k.autoEcho then kbConsolePutc t s c else s)

/-- `kbd_read_event` (`keyboard_common.c:190-195`). -/
def kbdReadEvent (k : Kbd) : Option (KeyEvent × Kbd) :=
  k.events.pop.map fun r => (r.1, {k with events := r.2})

/-! ### Dispatch -/

/-- The lock toggles (`keyboard_common.c:99-103`). -/
def toggleLocks (mods : Mods) (e : KeyEvent) : Mods :=
  if e.type = .press then
    let mods := if e.code = kcCapsLock then mods ^^^ kmCaps else mods
    let mods := if e.code = kcNumLock then mods ^^^ kmNum else mods
    if e.code = kcScrollLock then mods ^^^ kmScroll else mods
  else mods

/-- `side_set` and `agg_set` (`keyboard_common.c:106-117`). -/
def modifierMasks (code : Keycode) : Mods × Mods :=
  if code = kcLshift then (kmShift, kmShift)
  else if code = kcRshift then (kmRshift, kmShift)
  else if code = kcLctrl then (kmCtrl, kmCtrl)
  else if code = kcRctrl then (kmRctrl, kmCtrl)
  else if code = kcLalt then (kmAlt, kmAlt)
  else if code = kcRalt then (kmRalt, kmAlt)
  else if code = kcLgui then (kmGui, kmGui)
  else if code = kcRgui then (kmRgui, kmGui)
  else (0, 0)

/-- The update of the side and aggregate bits (`keyboard_common.c:118-129`). -/
def updateModifiers (mods : Mods) (e : KeyEvent) : Mods :=
  let (side, agg) := modifierMasks e.code
  if side ≠ 0 ∨ agg ≠ 0 then
    match e.type with
    | .press => (mods ||| side) ||| agg
    | .release => (mods &&& ~~~side) &&& ~~~agg
    | .autorepeat => mods
  else mods

/-- `kbd_dispatch_event` (`keyboard_common.c:94-141`). -/
def kbdDispatchEvent (t : TextMode) (k : Kbd) (s : Console) (ev : KeyEvent) : Kbd × Console :=
  let k := {k with mods := updateModifiers (toggleLocks k.mods ev) ev}
  let e := {ev with mods := k.mods}
  let k := pushEvent k e
  if e.type = .press ∧ e.code < 0x80 then pushAscii t k s e.code.toUInt8 else (k, s)

/-- `kbd_mods_state` (`keyboard_common.c:143`). -/
def kbdModsState (k : Kbd) : Mods := k.mods

/-! ### Lifecycle -/

/-- `kbd_register_device` (`keyboard_common.c:202-214`); installing the PS/2
interrupt handler is outside the model. -/
def kbdRegisterDevice (k : Kbd) : KbdSource → UInt8 × Kbd
  | .ps2 => (0, {k with ps2Registered := true})
  | .usb => (k.usbNextId, {k with usbNextId := k.usbNextId + 1})

def emptyRing {α : Type*} (r : Ring keybufCap α) : Ring keybufCap α :=
  ⟨r.buf, 0, 0, by decide, by decide⟩

/-- `kbd_subsystem_init` (`keyboard_common.c:153-161`). -/
def kbdSubsystemInit (k : Kbd) : Kbd :=
  let k := {k with
    events := emptyRing k.events, ascii := emptyRing k.ascii, mods := 0, ps2E0 := false,
    tables := if k.gLayout = 0 then .qwerty else .azerty}
  (kbdRegisterDevice k .ps2).2

/-! ### What dispatching leaves alone -/

section Dispatch
variable (t : TextMode) (k : Kbd) (s : Console) (ev : KeyEvent)

theorem dispatch_events : (kbdDispatchEvent t k s ev).1.events =
    k.events.push {ev with mods := updateModifiers (toggleLocks k.mods ev) ev} := by
  unfold kbdDispatchEvent pushAscii
  dsimp only
  split
  · split <;> rfl
  · rfl

theorem dispatch_mods : (kbdDispatchEvent t k s ev).1.mods =
    updateModifiers (toggleLocks k.mods ev) ev := by
  unfold kbdDispatchEvent pushAscii
  dsimp only
  split
  · split <;> rfl
  · rfl

end Dispatch

end CasseOS.Keyboard
