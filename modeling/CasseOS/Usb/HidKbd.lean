import CasseOS.Lib.Orbit
import CasseOS.Usb.Uhci

/-! # Keyboard pipes (`drivers/usb/uhci/hid_kbd.c`)

An open pipe keeps one TD and one QH for good; its QH is put into every entry
the walk from `first_slot` in steps of `interval` meets, modulo 1024. Opening and
closing walk the same entries, and neither looks at what an entry holds. -/

namespace CasseOS.Usb

/-- `ep_number_from_addr` (`hid_kbd.c:40-43`). -/
def epNumberFromAddr (endpointAddress : UInt8) : UInt8 := endpointAddress &&& 0x0F

/-- `uhci_build_in_token` (`hid_kbd.c:45-59`). -/
def uhciBuildInToken (addr ep toggle : UInt8) (maxLen : UInt16) : UInt32 :=
  let m1 : UInt32 := (if maxLen ≠ 0 then maxLen.toUInt32 - 1 else 0) &&& 0x7FF
  (0x69 : UInt32) ||| (addr.toUInt32 <<< 8) ||| ((ep &&& 0x0F).toUInt32 <<< 15) |||
    ((if toggle ≠ 0 then (1 : UInt32) else 0) <<< 19) ||| (m1 <<< 21)

/-! ### The schedule of a pipe -/

/- `(f + interval) % 1024`. -/
def nextSlot (interval : UInt8) (f : Slot) : Slot := slotOf (f.val + interval.toNat)

/-- The loop over the entries of a pipe (`hid_kbd.c:69-75`, `155-160`). Its condition
`f < 1024` holds of every slot, so it only ends at the `break`. -/
def everyInterval {S : Type*} (p : KbdPipe) (body : Slot → S → S) (s : S) : Option S :=
  if p.interval = 0 then some s
  else Orbit.walk (nextSlot p.interval) p.firstSlot body 1024 p.firstSlot s

/- The entries the loop visits, in order. -/
def scheduleSlots (p : KbdPipe) : List Slot :=
  ((everyInterval p (fun f l => l ++ [f]) []).getD [])

def writeSchedule (p : KbdPipe) (word : UInt32) (st : Uhci) : Option Uhci := do
  let fl ← everyInterval p (fun f fl => Function.update fl f word) st.frameList
  return {st with frameList := fl}

def Uhci.setPipe (st : Uhci) (i : Fin uhciMaxKbdPipes) (p : KbdPipe) : Uhci :=
  {st with pipes := Function.update st.pipes i p}

/-- `place_qh_every_interval` (`hid_kbd.c:61-76`). -/
def placeQhEveryInterval (frnum : UInt16) (i : Fin uhciMaxKbdPipes) (st : Uhci) : Option Uhci :=
  let start := (frnum &&& 0x7FF).toNat + 1
  let p := {st.pipes i with firstSlot := slotOf start}
  writeSchedule p (qhWord p.qh) (st.setPipe i p)

/-! ### Opening and closing -/

/- The bits the driver arms a TD with: `TD_ACTLEN_MASK`, `TD_SPD`, `TD_IOC`, `TD_ACTIVE`. -/
def tdArmed : UInt32 := 0x7FF ||| (bit 29 ||| bit 24 ||| bit 23)

/-- `uhci_kbd_rearm_td` (`hid_kbd.c:78-90`). -/
def uhciKbdRearmTd (i : Fin uhciMaxKbdPipes) (advanceToggle : Bool) (st : Uhci) : Uhci :=
  let p := st.pipes i
  let p := if advanceToggle then {p with toggle := p.toggle ^^^ 1} else p
  let st := st.setPipe i p
  let st := match st.heap p.td with
    | some (.td td) => st.store p.td (.td {td with
        token := uhciBuildInToken p.devAddr p.ep p.toggle 8, controlStatus := tdArmed})
    | _ => st
  match st.heap p.qh with
  | some (.qh qh) => st.store p.qh (.qh {qh with verticalLinkPointer := p.td})
  | _ => st

/- What the heap and the controller answer while a pipe is opened. -/
structure OpenWorld where
  buf : Addr
  td : Addr
  qh : Addr
  frnum : UInt16

/-- The label `fail` (`hid_kbd.c:137-142`). -/
def openFail (i : Fin uhciMaxKbdPipes) (st : Uhci) : Uhci × ℤ :=
  let p := st.pipes i
  ((((st.alignedFree p.td).alignedFree p.qh).alignedFree p.buf).setPipe i {}, -1)

/-- The pipe `uhci_kbd_open_interrupt_in` sets up before it allocates (`hid_kbd.c:102-109`). -/
def newPipe (ioBase : UInt16) (devAddr endpointAddress intervalFrames : UInt8)
    (keyboardDevIndex : ℤ) : KbdPipe where
  inUse := true
  ioBase := ioBase
  devAddr := devAddr
  ep := epNumberFromAddr endpointAddress
  interval := if intervalFrames = 0 then 1 else intervalFrames
  devIndex := UInt8.ofNat (keyboardDevIndex % 256).toNat

/-- The body of `uhci_kbd_open_interrupt_in` for the free pipe `i` (`hid_kbd.c:101-142`). -/
def openPipe (w : OpenWorld) (i : Fin uhciMaxKbdPipes) (p : KbdPipe) (st : Uhci) :
    Option (Uhci × ℤ) :=
  let (buf, st) := st.alignedAlloc w.buf (.buffer (List.replicate 8 0))
  let p := {p with buf := buf}
  if buf = 0 then some (openFail i (st.setPipe i p))
  else
    let (td, st) := st.alignedAlloc w.td (.td {})
    let (qh, st) := st.alignedAlloc w.qh (.qh {})
    let p := {p with td := td, qh := qh}
    let st := st.setPipe i p
    if td = 0 ∨ qh = 0 then some (openFail i st)
    else
      let st := st.store td (.td ⟨0x00000001, 0, 0, buf⟩)
      let st := uhciKbdRearmTd i false st
      let st := st.store qh (.qh ⟨0x00000001, td⟩)
      (placeQhEveryInterval w.frnum i st).map fun st => (st, i)

/- The first pipe that is not in use. -/
def freePipe (st : Uhci) : Option (Fin uhciMaxKbdPipes) :=
  (List.finRange uhciMaxKbdPipes).find? fun i => !(st.pipes i).inUse

/-- `uhci_kbd_open_interrupt_in` (`hid_kbd.c:92-146`); `wMaxPacket` is not looked at. -/
def uhciKbdOpenInterruptIn (w : OpenWorld) (ioBase : UInt16)
    (devAddr endpointAddress intervalFrames : UInt8) (_wMaxPacket : UInt16)
    (keyboardDevIndex : ℤ) (st : Uhci) : Option (Uhci × ℤ) :=
  match freePipe st with
  | none => some (st, -1)
  | some i =>
    openPipe w i (newPipe ioBase devAddr endpointAddress intervalFrames keyboardDevIndex) st

/-- `uhci_kbd_close` (`hid_kbd.c:148-166`). -/
def uhciKbdClose (pipeId : ℤ) (st : Uhci) : Option Uhci :=
  if h : 0 ≤ pipeId ∧ pipeId < uhciMaxKbdPipes then
    let i : Fin uhciMaxKbdPipes := ⟨pipeId.toNat, by omega⟩
    let p := st.pipes i
    if !p.inUse then some st
    else do
      let st ← writeSchedule p terminate st
      return (((st.alignedFree p.td).alignedFree p.qh).alignedFree p.buf).setPipe i {}
  else some st

end CasseOS.Usb
