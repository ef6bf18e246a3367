import Mathlib.Data.UInt
import Mathlib.Data.BitVec

/-! # Keys and key events (`drivers/keyboard/keyboard.h`)

A keycode is an ASCII code (`0x00..0x7F`) or an extended code from `0x0100`
on. Modifier masks are 16-bit words with one bit per `KM_*` flag. -/

namespace CasseOS.Keyboard

/- `kbd_source_t`. -/
inductive KbdSource where
  | ps2
  | usb
  deriving DecidableEq, Repr

/- `key_event_type_t`: `KEY_EV_PRESS`, `KEY_EV_RELEASE`, `KEY_EV_REPEAT`. -/
inductive KeyEventType where
  | press
  | release
  | autorepeat
  deriving DecidableEq, Repr

/-! ### Modifiers -/

abbrev Mods := BitVec 16

def kmShift : Mods := 1#16 <<< 0
def kmCtrl : Mods := 1#16 <<< 1
def kmAlt : Mods := 1#16 <<< 2
def kmGui : Mods := 1#16 <<< 3
def kmRshift : Mods := 1#16 <<< 4
def kmRctrl : Mods := 1#16 <<< 5
def kmRalt : Mods := 1#16 <<< 6
def kmRgui : Mods := 1#16 <<< 7
def kmCaps : Mods := 1#16 <<< 8
def kmNum : Mods := 1#16 <<< 9
def kmScroll : Mods := 1#16 <<< 10

/-! ### Keycodes -/

/- `keycode_t`. -/
abbrev Keycode := UInt16

def kcNone : Keycode := 0x0000
def kcBackspace : Keycode := 0x0008
def kcTab : Keycode := 0x0009
def kcEnter : Keycode := 0x000D
def kcEsc : Keycode := 0x001B
def kcSpace : Keycode := 0x0020

def kcBaseExt : Keycode := 0x0100

def kcUp : Keycode := kcBaseExt + 0x00
def kcDown : Keycode := kcBaseExt + 0x01
def kcLeft : Keycode := kcBaseExt + 0x02
def kcRight : Keycode := kcBaseExt + 0x03
def kcHome : Keycode := kcBaseExt + 0x04
def kcEnd : Keycode := kcBaseExt + 0x05
def kcPgup : Keycode := kcBaseExt + 0x06
def kcPgdn : Keycode := kcBaseExt + 0x07
def kcInsert : Keycode := kcBaseExt + 0x08
def kcDelete : Keycode := kcBaseExt + 0x09

/- `KC_F1 .. KC_F12`, for `n` from 0 to 11. -/
def kcF (n : Keycode) : Keycode := kcBaseExt + 0x20 + n

def kcCapsLock : Keycode := kcBaseExt + 0x40
def kcNumLock : Keycode := kcBaseExt + 0x41
def kcScrollLock : Keycode := kcBaseExt + 0x42

def kcLshift : Keycode := kcBaseExt + 0x50
def kcRshift : Keycode := kcBaseExt + 0x51
def kcLctrl : Keycode := kcBaseExt + 0x52
def kcRctrl : Keycode := kcBaseExt + 0x53
def kcLalt : Keycode := kcBaseExt + 0x54
def kcRalt : Keycode := kcBaseExt + 0x55
def kcLgui : Keycode := kcBaseExt + 0x56
def kcRgui : Keycode := kcBaseExt + 0x57

/- `key_event_t`. -/
structure KeyEvent where
  type : KeyEventType
  code : Keycode
  mods : Mods
  src : KbdSource
  devId : UInt8
  deriving DecidableEq, Repr

end CasseOS.Keyboard
