import CasseOS.Keyboard.UsbBoot
import CasseOS.Usb.Effects
import Mathlib.Data.BitVec

/-! # Serving keyboard pipes (`drivers/usb/uhci/hid_kbd.c`, `uhci_isr.c`)

The host controller retires the TD of a pipe with a report, with a NAK or with
an error; the interrupt handler hands the report to the keyboard layer and arms
the TD again. Three parties keep the data toggle: the pipe, the token of the TD
and the device. -/

namespace CasseOS.Usb
open Keyboard Screen

/- `TD_ACTIVE`, `TD_NAK` and `TD_ERR_MASK`. -/
def tdActive : UInt32 := bit 23
def tdNak : UInt32 := bit 19
def tdErrMask : UInt32 := bit 22 ||| bit 21 ||| bit 20 ||| bit 18 ||| bit 17

/- `USBSTS_USBINT` and `USBSTS_USBERRINT`. -/
def usbstsUsbint : UInt16 := 0x0001
def usbstsUsberrint : UInt16 := 0x0002

/- The pipes, the keyboard layer, the devices at the other end of the pipes,
and what went over the bus. -/
structure KbdBus where
  uhci : Uhci
  keyboards : KeyboardSystem
  /-- The data toggle of each device. -/
  devToggle : Fin uhciMaxKbdPipes → Bool
  /-- The reports each device has sent, in order. -/
  completed : Fin uhciMaxKbdPipes → List Report
  /-- The reports each pipe has passed to `keyboard_usb_on_boot_report`. -/
  delivered : Fin uhciMaxKbdPipes → List Report

/-! ### The driver -/

/- The 8 bytes of a report buffer. -/
def reportOf (bytes : List UInt8) : Report := fun i => bytes.getD i.val 0

def reportAt (st : Uhci) (a : Addr) : Report :=
  match st.heap a with
  | some (.buffer bytes) => reportOf bytes
  | _ => fun _ => 0

def rearm (i : Fin uhciMaxKbdPipes) (advanceToggle : Bool) (bus : KbdBus) : KbdBus :=
  {bus with uhci := uhciKbdRearmTd i advanceToggle bus.uhci}

/- The report of a pipe goes to the keyboard layer. -/
def deliver (t : TextMode) (i : Fin uhciMaxKbdPipes) (bus : KbdBus) : KbdBus :=
  let p := bus.uhci.pipes i
  let report := reportAt bus.uhci p.buf
  {bus with
    keyboards := keyboardUsbOnBootReport t bus.keyboards p.devIndex.toNat report
    delivered := Function.update bus.delivered i (bus.delivered i ++ [report])}

/-- The body of `uhci_kbd_service` for one pipe (`hid_kbd.c:174-202`). -/
def servicePipe (t : TextMode) (bus : KbdBus) (i : Fin uhciMaxKbdPipes) : KbdBus :=
  let p := bus.uhci.pipes i
  if p.inUse = false then bus
  else match bus.uhci.heap p.td with
    | some (.td td) =>
      let cs := td.controlStatus
      if cs &&& tdActive ≠ 0 then bus
      else if cs &&& tdNak ≠ 0 then rearm i false bus
      else if cs &&& tdErrMask ≠ 0 then rearm i false bus
      else rearm i true (deliver t i bus)
    | _ => bus

/-- `uhci_kbd_service` (`hid_kbd.c:172-203`). -/
def uhciKbdService (t : TextMode) (bus : KbdBus) : KbdBus :=
  (List.finRange uhciMaxKbdPipes).foldl (servicePipe t) bus

def acknowledge (io status : UInt16) (bus : KbdBus) : KbdBus :=
  {bus with uhci := bus.uhci.portWordOut (io + 0x02) status}

/-- `uhci_irq_top` (`uhci_isr.c:22-58`), with `g_uhci_ctx.io_base` and the
status word it reads there; the messages it logs are left out. -/
def uhciIrqTop (t : TextMode) (io status : UInt16) (bus : KbdBus) : KbdBus :=
  if status = 0 then bus
  else
    let bus := acknowledge io status bus
    let bus := if status &&& usbstsUsbint ≠ 0 then uhciKbdService t bus else bus
    if status &&& usbstsUsberrint ≠ 0 then uhciKbdService t bus else bus

/-! ### The host controller and the devices -/

/- Bit 19 of a token. -/
def tokenToggle (token : UInt32) : Bool := token &&& bit 19 ≠ 0

/- The status of a TD that brought data, and of one that failed. -/
def dataStatus (cs : UInt32) : Bool :=
  cs &&& tdActive = 0 ∧ cs &&& tdNak = 0 ∧ cs &&& tdErrMask = 0
def failStatus (cs : UInt32) : Bool :=
  cs &&& tdActive = 0 ∧ (cs &&& tdNak ≠ 0 ∨ cs &&& tdErrMask ≠ 0)

/- The TD of a pipe that is in use. -/
def tdOf (bus : KbdBus) (i : Fin uhciMaxKbdPipes) : Option Td :=
  if (bus.uhci.pipes i).inUse then
    match bus.uhci.heap (bus.uhci.pipes i).td with
    | some (.td td) => some td
    | _ => none
  else none

def setStatus (i : Fin uhciMaxKbdPipes) (td : Td) (status : UInt32) (bus : KbdBus) : KbdBus :=
  {bus with uhci := bus.uhci.store (bus.uhci.pipes i).td (.td {td with controlStatus := status})}

/- An armed TD is retired with the report of the device, which flips its
toggle; the report is only accepted if the two toggles agree. -/
def dataCompletion (i : Fin uhciMaxKbdPipes) (report : Report) (status : UInt32) (bus : KbdBus) :
    KbdBus :=
  match tdOf bus i with
  | some td =>
    if td.controlStatus &&& tdActive ≠ 0 ∧ tokenToggle td.token = bus.devToggle i ∧
        dataStatus status then
      let bus := setStatus i td status bus
      {bus with
        uhci := bus.uhci.store td.bufferPointer (.buffer (List.ofFn report))
        devToggle := Function.update bus.devToggle i (!bus.devToggle i)
        completed := Function.update bus.completed i (bus.completed i ++ [report])}
    else bus
  | none => bus

/- An armed TD is retired with an error or a NAK. -/
def failedCompletion (i : Fin uhciMaxKbdPipes) (status : UInt32) (bus : KbdBus) : KbdBus :=
  match tdOf bus i with
  | some td =>
    if td.controlStatus &&& tdActive ≠ 0 ∧ failStatus status then setStatus i td status bus else bus
  | none => bus

/- The arguments of `uhci_kbd_open_interrupt_in`. -/
structure OpenRequest where
  world : OpenWorld
  ioBase : UInt16
  devAddr : UInt8
  endpointAddress : UInt8
  intervalFrames : UInt8
  wMaxPacket : UInt16
  keyboardDevIndex : ℤ

/- A pipe is opened to a device that has just been configured: its toggle is
0, and nothing has been sent yet. -/
def openOn (r : OpenRequest) (bus : KbdBus) : KbdBus :=
  match uhciKbdOpenInterruptIn r.world r.ioBase r.devAddr r.endpointAddress r.intervalFrames
    r.wMaxPacket r.keyboardDevIndex bus.uhci, freePipe bus.uhci with
  | some (uhci, result), some i =>
    if result < 0 then {bus with uhci}
    else {bus with
      uhci
      devToggle := Function.update bus.devToggle i false
      completed := Function.update bus.completed i []
      delivered := Function.update bus.delivered i []}
  | some (uhci, _), none => {bus with uhci}
  | none, _ => bus

inductive BusAction where
  | openPipe (r : OpenRequest)
  | data (i : Fin uhciMaxKbdPipes) (report : Report) (status : UInt32)
  | fail (i : Fin uhciMaxKbdPipes) (status : UInt32)
  | service
  | interrupt (io status : UInt16)

def busStep (t : TextMode) (bus : KbdBus) : BusAction → KbdBus
  | .openPipe r => openOn r bus
  | .data i report status => dataCompletion i report status bus
  | .fail i status => failedCompletion i status bus
  | .service => uhciKbdService t bus
  | .interrupt io status => uhciIrqTop t io status bus

def busRun (t : TextMode) (bus : KbdBus) (actions : List BusAction) : KbdBus :=
  actions.foldl (busStep t) bus

/- No pipe is open yet. -/
def idleBus (heap : Addr → Option Object) (keyboards : KeyboardSystem) : KbdBus :=
  ⟨uhciInitializeFrameList heap, keyboards, fun _ => false, fun _ => [], fun _ => []⟩

/-! ### Tokens -/

/- The toggle of a pipe as a bit. -/
def pipeToggle (p : KbdPipe) : Bool := p.toggle ≠ 0

/- The three copies of the toggle agree, and nothing is waiting; or the TD has
brought a report, which is in the buffer, and the device is one ahead. -/
def InSync (bus : KbdBus) (i : Fin uhciMaxKbdPipes) (td : Td) (bytes : List UInt8) : Prop :=
  if dataStatus td.controlStatus then
    bus.devToggle i = !pipeToggle (bus.uhci.pipes i) ∧
      bus.completed i = bus.delivered i ++ [reportOf bytes]
  else bus.devToggle i = pipeToggle (bus.uhci.pipes i) ∧ bus.completed i = bus.delivered i

structure PipeOk (bus : KbdBus) (i : Fin uhciMaxKbdPipes) (td : Td) (bytes : List UInt8) : Prop where
  tdAt : bus.uhci.heap (bus.uhci.pipes i).td = some (.td td)
  bufAt : bus.uhci.heap (bus.uhci.pipes i).buf = some (.buffer bytes)
  qhAt : ∃ x, bus.uhci.heap (bus.uhci.pipes i).qh = some (.qh x)
  points : td.bufferPointer = (bus.uhci.pipes i).buf
  toggle : (bus.uhci.pipes i).toggle = 0 ∨ (bus.uhci.pipes i).toggle = 1
  token : td.token = uhciBuildInToken (bus.uhci.pipes i).devAddr (bus.uhci.pipes i).ep
    (bus.uhci.pipes i).toggle 8
  sync : InSync bus i td bytes

section Step
variable {bus bus₁ : KbdBus} {i j : Fin uhciMaxKbdPipes} {td : Td} {bytes : List UInt8}

theorem PipeOk.owns (h : PipeOk bus i td bytes) : OwnsBlocks bus.uhci (bus.uhci.pipes i) :=
  ⟨⟨_, h.bufAt⟩, ⟨_, h.tdAt⟩, h.qhAt⟩

theorem PipeOk.tdOf (h : PipeOk bus i td bytes) (hi : (bus.uhci.pipes i).inUse = true) :
    tdOf bus i = some td := by
  simp only [Usb.tdOf, hi, if_true, h.tdAt]

/- A pipe whose state and blocks are left alone. -/
theorem PipeOk.congr (h : PipeOk bus j td bytes) (hp : bus₁.uhci.pipes j = bus.uhci.pipes j)
    (hheap : ∀ a, a = (bus.uhci.pipes j).td ∨ a = (bus.uhci.pipes j).buf ∨
      a = (bus.uhci.pipes j).qh → bus₁.uhci.heap a = bus.uhci.heap a)
    (ht : bus₁.devToggle j = bus.devToggle j) (hc : bus₁.completed j = bus.completed j)
    (hd : bus₁.delivered j = bus.delivered j) : PipeOk bus₁ j td bytes := by
  obtain ⟨x, hx⟩ := h.qhAt
  refine ⟨?_, ?_, ⟨x, ?_⟩, ?_, ?_, ?_, ?_⟩
  · rw [hp, hheap _ (Or.inl rfl), h.tdAt]
  · rw [hp, hheap _ (Or.inr (Or.inl rfl)), h.bufAt]
  · rw [hp, hheap _ (Or.inr (Or.inr rfl)), hx]
  · rw [hp, h.points]
  · rw [hp]
    exact h.toggle
  · rw [hp, h.token]
  · have hsync := h.sync
    unfold InSync at hsync ⊢
    rw [hp, ht, hc, hd]
    exact hsync

/- A step of pipe `i` changes its toggle and its blocks, and nothing of the
other pipes. -/
structure Touches (i : Fin uhciMaxKbdPipes) (bus bus₁ : KbdBus) : Prop where
  self : ∃ toggle, bus₁.uhci.pipes i = {bus.uhci.pipes i with toggle}
  pipes : ∀ j, j ≠ i → bus₁.uhci.pipes j = bus.uhci.pipes j
  heap : ∀ a, a ≠ (bus.uhci.pipes i).td → a ≠ (bus.uhci.pipes i).buf →
    a ≠ (bus.uhci.pipes i).qh → bus₁.uhci.heap a = bus.uhci.heap a
  devToggle : ∀ j, j ≠ i → bus₁.devToggle j = bus.devToggle j
  completed : ∀ j, j ≠ i → bus₁.completed j = bus.completed j
  delivered : ∀ j, j ≠ i → bus₁.delivered j = bus.delivered j

structure BusInv (bus : KbdBus) : Prop where
  pipe : ∀ i, (bus.uhci.pipes i).inUse = true → ∃ td bytes, PipeOk bus i td bytes
  unused : ∀ i, (bus.uhci.pipes i).inUse = false → bus.completed i = bus.delivered i
  apart : ∀ i j, (bus.uhci.pipes i).inUse = true → (bus.uhci.pipes j).inUse = true → i ≠ j →
    (bus.uhci.pipes i).buf ≠ (bus.uhci.pipes j).buf ∧
      (bus.uhci.pipes i).td ≠ (bus.uhci.pipes j).td ∧ (bus.uhci.pipes i).qh ≠ (bus.uhci.pipes j).qh

theorem PipeOk.other (h : BusInv bus) (hi : (bus.uhci.pipes i).inUse = true)
    (hj : (bus.uhci.pipes j).inUse = true) (hne : j ≠ i) (ht : Touches i bus bus₁)
    (hok : PipeOk bus j td bytes) : PipeOk bus₁ j td bytes := by
  obtain ⟨td', bytes', hok'⟩ := h.pipe i hi
  obtain ⟨⟨x, hx⟩, ⟨y, hy⟩, ⟨z, hz⟩⟩ := hok'.owns
  obtain ⟨⟨x', hx'⟩, ⟨y', hy'⟩, ⟨z', hz'⟩⟩ := hok.owns
  obtain ⟨hbuf, htd, hqh⟩ := h.apart j i hj hi hne
  refine hok.congr (ht.pipes j hne) ?_ (ht.devToggle j hne) (ht.completed j hne)
    (ht.delivered j hne)
  rintro a (rfl | rfl | rfl)
  · exact ht.heap _ htd (ne_of_heap hy' hx nofun) (ne_of_heap hy' hz nofun)
  · exact ht.heap _ (ne_of_heap hx' hy nofun) hbuf (ne_of_heap hx' hz nofun)
  · exact ht.heap _ (ne_of_heap hz' hy nofun) (ne_of_heap hz' hx nofun) hqh

theorem Touches.inUse (ht : Touches i bus bus₁) (j : Fin uhciMaxKbdPipes) :
    (bus₁.uhci.pipes j).inUse = (bus.uhci.pipes j).inUse ∧
      (bus₁.uhci.pipes j).buf = (bus.uhci.pipes j).buf ∧
      (bus₁.uhci.pipes j).td = (bus.uhci.pipes j).td ∧
      (bus₁.uhci.pipes j).qh = (bus.uhci.pipes j).qh := by
  by_cases hj : j = i
  · obtain ⟨toggle, he⟩ := ht.self
    rw [hj, he]
    exact ⟨rfl, rfl, rfl, rfl⟩
  · rw [ht.pipes j hj]
    exact ⟨rfl, rfl, rfl, rfl⟩

theorem BusInv.touched (h : BusInv bus) (hi : (bus.uhci.pipes i).inUse = true)
    (ht : Touches i bus bus₁) (hok : ∃ td bytes, PipeOk bus₁ i td bytes) : BusInv bus₁ := by
  refine ⟨?_, ?_, ?_⟩
  · intro j hj
    rw [(ht.inUse j).1] at hj
    by_cases hne : j = i
    · subst hne
      exact hok
    · obtain ⟨td, bytes, hj'⟩ := h.pipe j hj
      exact ⟨td, bytes, hj'.other h hi hj hne ht⟩
  · intro j hj
    rw [(ht.inUse j).1] at hj
    have hne : j ≠ i := by
      rintro rfl
      rw [hi] at hj
      exact absurd hj (by decide)
    rw [ht.completed j hne, ht.delivered j hne]
    exact h.unused j hj
  · intro j k hj hk hne
    obtain ⟨huse, hbuf, htd, hqh⟩ := ht.inUse j
    obtain ⟨huse', hbuf', htd', hqh'⟩ := ht.inUse k
    rw [huse] at hj
    rw [huse'] at hk
    rw [hbuf, htd, hqh, hbuf', htd', hqh']
    exact h.apart j k hj hk hne

/- A step of one pipe leaves the TDs of the others alone. -/
theorem BusInv.tdOf_other (h : BusInv bus) (hi : (bus.uhci.pipes i).inUse = true)
    (ht : Touches i bus bus₁) (hne : j ≠ i) : tdOf bus₁ j = tdOf bus j := by
  cases hju : (bus.uhci.pipes j).inUse with
  | false => simp [tdOf, (ht.inUse j).1, hju]
  | true =>
    obtain ⟨td, bytes, hok⟩ := h.pipe j hju
    rw [(hok.other h hi hju hne ht).tdOf ((ht.inUse j).1.trans hju), hok.tdOf hju]

/-! ### Arming the TD again -/

/- The pipe after `uhci_kbd_rearm_td`. -/
def advanced (p : KbdPipe) (advanceToggle : Bool) : KbdPipe :=
  if advanceToggle then {p with toggle := p.toggle ^^^ 1} else p

theorem advanced_eq (p : KbdPipe) (adv : Bool) :
    advanced p adv = {p with toggle := (advanced p adv).toggle} := by
  cases adv <;> rfl

theorem pipeToggle_advanced {p : KbdPipe} (h : p.toggle = 0 ∨ p.toggle = 1) (adv : Bool) :
    pipeToggle (advanced p adv) = (pipeToggle p ^^ adv) ∧
      ((advanced p adv).toggle = 0 ∨ (advanced p adv).toggle = 1) := by
  cases adv with
  | false => exact ⟨(Bool.xor_false _).symm, h⟩
  | true =>
    simp only [advanced, pipeToggle, if_true]
    obtain h | h := h <;> rw [h] <;> decide

theorem uhciKbdRearmTd_armed {st : Uhci} {p : KbdPipe} {qh : Qh} (adv : Bool)
    (hp : st.pipes i = p) (htd : st.heap p.td = some (.td td)) (hqh : st.heap p.qh = some (.qh qh)) :
    uhciKbdRearmTd i adv st =
      ((st.setPipe i (advanced p adv)).store p.td (.td {td with
        token := uhciBuildInToken p.devAddr p.ep (advanced p adv).toggle 8,
        controlStatus := tdArmed})).store p.qh (.qh {qh with verticalLinkPointer := p.td}) := by
  have hne : p.qh ≠ p.td := ne_of_heap hqh htd nofun
  have hheap : ∀ p', (st.setPipe i p').heap = st.heap := fun _ => rfl
  unfold uhciKbdRearmTd advanced
  rw [hp]
  cases adv with
  | false => simp only [Bool.false_eq_true, if_false, hheap, htd, store_heap_of_ne _ _ hne, hqh]
  | true => simp only [if_true, hheap, htd, store_heap_of_ne _ _ hne, hqh]

/- An armed TD is active. -/
theorem tdArmed_active : tdArmed &&& tdActive ≠ 0 := by decide

theorem not_dataStatus_of_active {cs : UInt32} (h : cs &&& tdActive ≠ 0) : ¬ dataStatus cs = true := by
  simp [dataStatus, h]

theorem rearm_touches (adv : Bool) (bus₁ : KbdBus) (hok : PipeOk bus i td bytes)
    (huhci : bus₁.uhci = bus.uhci) : Touches i bus₁ (rearm i adv bus₁) := by
  obtain ⟨qh, hqh⟩ := hok.qhAt
  have harm := uhciKbdRearmTd_armed adv rfl hok.tdAt hqh
  rw [← huhci] at harm
  refine ⟨⟨(advanced (bus₁.uhci.pipes i) adv).toggle, ?_⟩, ?_, ?_, fun _ _ => rfl, fun _ _ => rfl,
    fun _ _ => rfl⟩
  · rw [← advanced_eq, rearm, harm]
    exact Function.update_self ..
  · intro j hj
    rw [rearm, harm]
    exact Function.update_of_ne hj ..
  · intro a htd _ hqh
    rw [rearm, harm]
    exact (store_heap_of_ne _ _ hqh).trans (store_heap_of_ne _ _ htd)

/- The new toggle is the one the device expects. -/
theorem rearm_ok (adv : Bool) (bus₁ : KbdBus) (hok : PipeOk bus i td bytes)
    (huhci : bus₁.uhci = bus.uhci)
    (hsync : bus₁.devToggle i = (pipeToggle (bus.uhci.pipes i) ^^ adv))
    (hdone : bus₁.completed i = bus₁.delivered i) :
    ∃ td', td'.controlStatus = tdArmed ∧ PipeOk (rearm i adv bus₁) i td' bytes := by
  obtain ⟨qh, hqh⟩ := hok.qhAt
  obtain ⟨htog, hbit⟩ := pipeToggle_advanced hok.toggle adv
  have hqt : (bus.uhci.pipes i).qh ≠ (bus.uhci.pipes i).td := ne_of_heap hqh hok.tdAt nofun
  have hbt : (bus.uhci.pipes i).buf ≠ (bus.uhci.pipes i).td := ne_of_heap hok.bufAt hok.tdAt nofun
  have hbq : (bus.uhci.pipes i).buf ≠ (bus.uhci.pipes i).qh := ne_of_heap hok.bufAt hqh nofun
  have harm : (rearm i adv bus₁).uhci = _ := (congrArg (uhciKbdRearmTd i adv) huhci).trans
    (uhciKbdRearmTd_armed adv rfl hok.tdAt hqh)
  have hpipe : (rearm i adv bus₁).uhci.pipes i = advanced (bus.uhci.pipes i) adv := by
    rw [harm]
    exact Function.update_self ..
  refine ⟨{td with
    token := uhciBuildInToken (bus.uhci.pipes i).devAddr (bus.uhci.pipes i).ep
      (advanced (bus.uhci.pipes i) adv).toggle 8,
    controlStatus := tdArmed}, rfl, ?_, ?_, ⟨{qh with verticalLinkPointer := (bus.uhci.pipes i).td},
      ?_⟩, ?_, ?_, ?_, ?_⟩
  · rw [hpipe, harm, advanced_eq]
    exact (store_heap_of_ne _ _ hqt.symm).trans (store_heap_self ..)
  · rw [hpipe, harm, advanced_eq]
    exact (store_heap_of_ne _ _ hbq).trans ((store_heap_of_ne _ _ hbt).trans hok.bufAt)
  · rw [hpipe, harm, advanced_eq]
    exact store_heap_self ..
  · rw [hpipe, advanced_eq]
    exact hok.points
  · rw [hpipe]
    exact hbit
  · rw [hpipe]
    cases adv <;> rfl
  · unfold InSync
    rw [if_neg (not_dataStatus_of_active tdArmed_active), hpipe, htog]
    exact ⟨hsync, hdone⟩

/-! ### `uhci_kbd_service` -/

theorem Touches.trans {bus₂ : KbdBus} (h : Touches i bus bus₁) (h' : Touches i bus₁ bus₂) :
    Touches i bus bus₂ := by
  obtain ⟨-, hbuf, htd, hqh⟩ := h.inUse i
  obtain ⟨x, hx⟩ := h.self
  obtain ⟨y, hy⟩ := h'.self
  refine ⟨⟨y, by rw [hy, hx]⟩, ?_, ?_, ?_, ?_, ?_⟩
  · exact fun j hj => (h'.pipes j hj).trans (h.pipes j hj)
  · intro a ha hb hc
    rw [h'.heap a (htd ▸ ha) (hbuf ▸ hb) (hqh ▸ hc), h.heap a ha hb hc]
  · exact fun j hj => (h'.devToggle j hj).trans (h.devToggle j hj)
  · exact fun j hj => (h'.completed j hj).trans (h.completed j hj)
  · exact fun j hj => (h'.delivered j hj).trans (h.delivered j hj)

/- The TD of a pipe is waiting for the device. -/
def Armed (bus : KbdBus) (i : Fin uhciMaxKbdPipes) : Prop :=
  ∀ td, tdOf bus i = some td → td.controlStatus &&& tdActive ≠ 0

theorem deliver_touches (t : TextMode) (i : Fin uhciMaxKbdPipes) (bus : KbdBus) :
    Touches i bus (deliver t i bus) :=
  ⟨⟨(bus.uhci.pipes i).toggle, rfl⟩, fun _ _ => rfl, fun _ _ _ _ => rfl, fun _ _ => rfl,
    fun _ _ => rfl, fun _ hj => Function.update_of_ne hj ..⟩

/- A TD that brought a report: the report is delivered, and both ends move on
to the next toggle. -/
theorem deliver_ok (t : TextMode) (hok : PipeOk bus i td bytes)
    (hdata : dataStatus td.controlStatus = true) :
    Touches i bus (rearm i true (deliver t i bus)) ∧
      ∃ td', td'.controlStatus = tdArmed ∧ PipeOk (rearm i true (deliver t i bus)) i td' bytes := by
  have hsync := hok.sync
  rw [InSync, if_pos hdata] at hsync
  have hreport : reportAt bus.uhci (bus.uhci.pipes i).buf = reportOf bytes := by
    simp only [reportAt, hok.bufAt]
  have hdelivered : (deliver t i bus).delivered i = bus.delivered i ++ [reportOf bytes] := by
    simp only [deliver, Function.update_self, hreport]
  have hnext := rearm_ok true (deliver t i bus) hok rfl
    (by rw [Bool.xor_true]; exact hsync.1) (hsync.2.trans hdelivered.symm)
  exact ⟨(deliver_touches t i bus).trans (rearm_touches true (deliver t i bus) hok rfl), hnext⟩

/- A TD that failed is armed again with the same toggle. -/
theorem retry_ok (hok : PipeOk bus i td bytes) (hdata : ¬ dataStatus td.controlStatus = true) :
    Touches i bus (rearm i false bus) ∧
      ∃ td', td'.controlStatus = tdArmed ∧ PipeOk (rearm i false bus) i td' bytes := by
  have hsync := hok.sync
  rw [InSync, if_neg hdata] at hsync
  have hnext := rearm_ok false bus hok rfl (by rw [Bool.xor_false]; exact hsync.1) hsync.2
  exact ⟨rearm_touches false bus hok rfl, hnext⟩

theorem servicePipe_cases (t : TextMode) (hok : PipeOk bus i td bytes)
    (hi : (bus.uhci.pipes i).inUse = true) :
    (td.controlStatus &&& tdActive ≠ 0 ∧ servicePipe t bus i = bus) ∨
    (Touches i bus (servicePipe t bus i) ∧
      ∃ td', td'.controlStatus = tdArmed ∧ PipeOk (servicePipe t bus i) i td' bytes) := by
  unfold servicePipe
  simp only [hi, Bool.true_eq_false, if_false, hok.tdAt]
  by_cases hactive : td.controlStatus &&& tdActive ≠ 0
  · exact Or.inl ⟨hactive, if_pos hactive⟩
  · rw [if_neg hactive]
    by_cases hnak : td.controlStatus &&& tdNak ≠ 0
    · rw [if_pos hnak]
      exact Or.inr (retry_ok hok (by simp [dataStatus, hnak]))
    · rw [if_neg hnak]
      by_cases herr : td.controlStatus &&& tdErrMask ≠ 0
      · rw [if_pos herr]
        exact Or.inr (retry_ok hok (by simp [dataStatus, herr]))
      · rw [if_neg herr]
        rw [not_not] at hactive hnak herr
        exact Or.inr (deliver_ok t hok (by simp [dataStatus, hactive, hnak, herr]))

theorem servicePipe_completed (t : TextMode) (bus : KbdBus) (i : Fin uhciMaxKbdPipes) :
    (servicePipe t bus i).completed = bus.completed := by
  unfold servicePipe
  dsimp only
  split
  · rfl
  · split
    · split_ifs <;> rfl
    · rfl

theorem servicePipe_ok (t : TextMode) (h : BusInv bus) (i : Fin uhciMaxKbdPipes) :
    BusInv (servicePipe t bus i) ∧ Armed (servicePipe t bus i) i ∧
      ∀ j, Armed bus j → Armed (servicePipe t bus i) j := by
  cases hi : (bus.uhci.pipes i).inUse with
  | false =>
    have hsame : servicePipe t bus i = bus := if_pos hi
    have harmed : Armed bus i := by
      intro td htd
      simp [tdOf, hi] at htd
    rw [hsame]
    exact ⟨h, harmed, fun _ hj => hj⟩
  | true =>
    obtain ⟨td, bytes, hok⟩ := h.pipe i hi
    obtain ⟨hactive, hsame⟩ | ⟨ht, td', harmed, hok'⟩ := servicePipe_cases t hok hi
    · have hself : Armed bus i := by
        intro td' htd'
        rw [hok.tdOf hi, Option.some.injEq] at htd'
        exact htd' ▸ hactive
      rw [hsame]
      exact ⟨h, hself, fun _ hj => hj⟩
    · have hself : Armed (servicePipe t bus i) i := by
        intro td'' htd''
        rw [hok'.tdOf ((ht.inUse i).1.trans hi), Option.some.injEq] at htd''
        rw [← htd'', harmed]
        exact tdArmed_active
      refine ⟨h.touched hi ht ⟨td', bytes, hok'⟩, hself, ?_⟩
      intro j hj
      by_cases hne : j = i
      · rw [hne]
        exact hself
      · intro td'' htd''
        rw [h.tdOf_other hi ht hne] at htd''
        exact hj td'' htd''

/- After the call every TD is armed. -/
theorem service_ok (t : TextMode) (h : BusInv bus) :
    BusInv (uhciKbdService t bus) ∧ (∀ i, Armed (uhciKbdService t bus) i) ∧
      (uhciKbdService t bus).completed = bus.completed := by
  have hfold : ∀ (l : List (Fin uhciMaxKbdPipes)) (bus : KbdBus), BusInv bus →
      BusInv (l.foldl (servicePipe t) bus) ∧
      (∀ i, i ∈ l ∨ Armed bus i → Armed (l.foldl (servicePipe t) bus) i) ∧
      (l.foldl (servicePipe t) bus).completed = bus.completed := by
    intro l
    induction l with
    | nil =>
      intro bus h
      exact ⟨h, fun i hi => hi.resolve_left (by simp), rfl⟩
    | cons i l ih =>
      intro bus h
      obtain ⟨hinv, hself, hkeep⟩ := servicePipe_ok t h i
      obtain ⟨hinv', harmed, hcomp⟩ := ih _ hinv
      refine ⟨hinv', ?_, hcomp.trans (servicePipe_completed t bus i)⟩
      intro j hj
      apply harmed
      obtain hmem | hj := hj
      · obtain rfl | hmem := List.mem_cons.mp hmem
        · exact Or.inr hself
        · exact Or.inl hmem
      · exact Or.inr (hkeep j hj)
  obtain ⟨hinv, harmed, hcomp⟩ := hfold (List.finRange uhciMaxKbdPipes) bus h
  exact ⟨hinv, fun i => harmed i (Or.inl (List.mem_finRange i)), hcomp⟩

/-! ### Completions -/

theorem reportOf_ofFn (report : Report) : reportOf (List.ofFn report) = report := by
  funext i
  have hlt : i.val < (List.ofFn report).length := by
    rw [List.length_ofFn]
    exact i.isLt
  rw [reportOf, List.getD_eq_getElem?_getD, List.getElem?_eq_getElem hlt, List.getElem_ofFn]
  rfl

theorem inUse_of_tdOf (h : tdOf bus i = some td) : (bus.uhci.pipes i).inUse = true := by
  cases hi : (bus.uhci.pipes i).inUse with
  | false => simp [tdOf, hi] at h
  | true => rfl

theorem not_dataStatus_of_fail {cs : UInt32} (h : failStatus cs = true) : ¬ dataStatus cs = true := by
  simp only [failStatus, dataStatus, decide_eq_true_eq] at h ⊢
  rintro ⟨-, hnak, herr⟩
  exact h.2.elim (fun hn => hn hnak) (fun he => he herr)

theorem BusInv.pipeOf (h : BusInv bus) (htd : tdOf bus i = some td) :
    (bus.uhci.pipes i).inUse = true ∧ ∃ bytes, PipeOk bus i td bytes := by
  have hi := inUse_of_tdOf htd
  obtain ⟨td', bytes, hok⟩ := h.pipe i hi
  rw [hok.tdOf hi, Option.some.injEq] at htd
  exact ⟨hi, bytes, htd ▸ hok⟩

/- A completion changes nothing, or the pipe keeps its invariant. -/
theorem failedCompletion_cases (h : BusInv bus) (i : Fin uhciMaxKbdPipes) (status : UInt32) :
    failedCompletion i status bus = bus ∨
    ((bus.uhci.pipes i).inUse = true ∧ Touches i bus (failedCompletion i status bus) ∧
      ∃ td bytes, PipeOk (failedCompletion i status bus) i td bytes) := by
  unfold failedCompletion
  cases htd : tdOf bus i with
  | none => exact Or.inl rfl
  | some td =>
    dsimp only
    split
    next hc =>
      obtain ⟨hi, bytes, hok⟩ := h.pipeOf htd
      obtain ⟨qh, hqh⟩ := hok.qhAt
      have hsync := hok.sync
      rw [InSync, if_neg (not_dataStatus_of_active hc.1)] at hsync
      refine Or.inr ⟨hi,
        ⟨⟨_, rfl⟩, fun _ _ => rfl, fun a ha _ _ => store_heap_of_ne _ _ ha, fun _ _ => rfl,
          fun _ _ => rfl, fun _ _ => rfl⟩,
        ⟨{td with controlStatus := status}, bytes, store_heap_self .., ?_, ⟨qh, ?_⟩, hok.points,
          hok.toggle, hok.token, ?_⟩⟩
      · exact (store_heap_of_ne _ _ (ne_of_heap hok.bufAt hok.tdAt nofun)).trans hok.bufAt
      · exact (store_heap_of_ne _ _ (ne_of_heap hqh hok.tdAt nofun)).trans hqh
      · rw [InSync, if_neg (not_dataStatus_of_fail hc.2)]
        exact hsync
    next => exact Or.inl rfl

theorem dataCompletion_cases (h : BusInv bus) (i : Fin uhciMaxKbdPipes) (report : Report)
    (status : UInt32) :
    dataCompletion i report status bus = bus ∨
    ((bus.uhci.pipes i).inUse = true ∧ Touches i bus (dataCompletion i report status bus) ∧
      ∃ td bytes, PipeOk (dataCompletion i report status bus) i td bytes) := by
  unfold dataCompletion
  cases htd : tdOf bus i with
  | none => exact Or.inl rfl
  | some td =>
    dsimp only
    split
    next hc =>
      obtain ⟨hi, bytes, hok⟩ := h.pipeOf htd
      obtain ⟨qh, hqh⟩ := hok.qhAt
      have hsync := hok.sync
      rw [InSync, if_neg (not_dataStatus_of_active hc.1)] at hsync
      have hbt : (bus.uhci.pipes i).buf ≠ (bus.uhci.pipes i).td :=
        ne_of_heap hok.bufAt hok.tdAt nofun
      have hqt : (bus.uhci.pipes i).qh ≠ (bus.uhci.pipes i).td := ne_of_heap hqh hok.tdAt nofun
      have hqb : (bus.uhci.pipes i).qh ≠ (bus.uhci.pipes i).buf := ne_of_heap hqh hok.bufAt nofun
      rw [hok.points]
      refine Or.inr ⟨hi,
        ⟨⟨_, rfl⟩, fun _ _ => rfl, ?_, fun _ hj => Function.update_of_ne hj ..,
          fun _ hj => Function.update_of_ne hj .., fun _ _ => rfl⟩,
        ⟨{td with controlStatus := status}, List.ofFn report, ?_, store_heap_self .., ⟨qh, ?_⟩,
          hok.points, hok.toggle, hok.token, ?_⟩⟩
      · exact fun a ha hb _ => (store_heap_of_ne _ _ hb).trans (store_heap_of_ne _ _ ha)
      · exact (store_heap_of_ne _ _ hbt.symm).trans (store_heap_self ..)
      · exact (store_heap_of_ne _ _ hqb).trans ((store_heap_of_ne _ _ hqt).trans hqh)
      · rw [InSync, if_pos hc.2.2]
        simp only [Function.update_self, reportOf_ofFn]
        refine ⟨congrArg _ hsync.1, ?_⟩
        show bus.completed i ++ [report] = bus.delivered i ++ [report]
        rw [hsync.2]
    next => exact Or.inl rfl

theorem failedCompletion_ok (h : BusInv bus) (i : Fin uhciMaxKbdPipes) (status : UInt32) :
    BusInv (failedCompletion i status bus) := by
  obtain hsame | ⟨hi, ht, hok⟩ := failedCompletion_cases h i status
  · rw [hsame]
    exact h
  · exact h.touched hi ht hok

theorem dataCompletion_ok (h : BusInv bus) (i : Fin uhciMaxKbdPipes) (report : Report)
    (status : UInt32) : BusInv (dataCompletion i report status bus) := by
  obtain hsame | ⟨hi, ht, hok⟩ := dataCompletion_cases h i report status
  · rw [hsame]
    exact h
  · exact h.touched hi ht hok

/-! ### Interrupts -/

theorem acknowledge_ok (h : BusInv bus) (io status : UInt16) : BusInv (acknowledge io status bus) := by
  refine ⟨?_, h.unused, h.apart⟩
  intro i hi
  obtain ⟨td, bytes, hok⟩ := h.pipe i hi
  exact ⟨td, bytes, hok.congr rfl (fun _ _ => rfl) rfl rfl rfl⟩

theorem uhciIrqTop_ok (t : TextMode) (h : BusInv bus) (io status : UInt16) :
    BusInv (uhciIrqTop t io status bus) := by
  have hack := acknowledge_ok h io status
  unfold uhciIrqTop
  dsimp only
  split
  next => exact h
  next =>
    split <;> split
    · exact (service_ok t (service_ok t hack).1).1
    · exact (service_ok t hack).1
    · exact (service_ok t hack).1
    · exact hack

/-! ### Opening a pipe -/

/- The TD that a successful open leaves. -/
def openedTd (v : OpenWorld) (p : KbdPipe) : Td :=
  ⟨0x00000001, tdArmed, uhciBuildInToken p.devAddr p.ep p.toggle 8, v.buf⟩

theorem placeQhEveryInterval_heap {frnum : UInt16} {st st₁ : Uhci}
    (h : placeQhEveryInterval frnum i st = some st₁) : st₁.heap = st.heap := by
  simp only [placeQhEveryInterval, writeSchedule_eq, Option.some.injEq] at h
  rw [← h]
  rfl

theorem openPipe_armed (v : OpenWorld) (i : Fin uhciMaxKbdPipes) (p : KbdPipe) (st st₁ : Uhci)
    (h : openPipe v i p st = some (st₁, (i.val : ℤ))) :
    st₁.heap v.td = some (.td (openedTd v p)) := by
  rcases hbuf : st.alignedAlloc v.buf (.buffer (List.replicate 8 0)) with ⟨buf, s₁⟩
  rcases htd : s₁.alignedAlloc v.td (.td {}) with ⟨td, s₂⟩
  rcases hqh : s₂.alignedAlloc v.qh (.qh {}) with ⟨qh, s₃⟩
  simp only [openPipe, hbuf, htd, hqh] at h
  have hfail : ∀ s : Uhci, some (openFail i s) ≠ some (st₁, (i.val : ℤ)) := by
    intro s he
    have hresult := congrArg (fun o => o.map Prod.snd) he
    simp only [Option.map_some, openFail, Option.some.injEq] at hresult
    omega
  by_cases hnobuf : buf = 0
  · rw [if_pos hnobuf] at h
    exact absurd h (hfail _)
  rw [if_neg hnobuf] at h
  by_cases hnone : td = 0 ∨ qh = 0
  · rw [if_pos hnone] at h
    exact absurd h (hfail _)
  rw [if_neg hnone] at h
  obtain ⟨hnotd, hnoqh⟩ := not_or.mp hnone
  obtain ⟨rfl, -, rfl⟩ := alignedAlloc_of_ne_zero hbuf hnobuf
  obtain ⟨rfl, hgtd, rfl⟩ := alignedAlloc_of_ne_zero htd hnotd
  obtain ⟨rfl, hgqh, rfl⟩ := alignedAlloc_of_ne_zero hqh hnoqh
  obtain ⟨hqt, -⟩ := canGive_store hgqh
  generalize hs : Uhci.store (Uhci.setPipe _ _ _) v.td _ = s at h
  have hpipe : s.pipes i = {p with buf := v.buf, td := v.td, qh := v.qh} := by
    rw [← hs]
    exact Function.update_self ..
  have hstd : s.heap v.td = some (.td ⟨0x00000001, 0, 0, v.buf⟩) := by
    rw [← hs]
    exact store_heap_self ..
  have hsqh : s.heap v.qh = some (.qh {}) := by
    rw [← hs]
    exact (store_heap_of_ne _ _ hqt).trans (store_heap_self ..)
  rw [uhciKbdRearmTd_eq hpipe hstd hsqh hqt, Option.map_eq_some_iff] at h
  obtain ⟨st₂, hplace, he⟩ := h
  obtain rfl : st₂ = st₁ := congrArg Prod.fst he
  rw [placeQhEveryInterval_heap hplace]
  exact (store_heap_of_ne _ _ hqt.symm).trans ((store_heap_of_ne _ _ hqt.symm).trans
    (store_heap_self ..))

/- A pipe that is left alone while live blocks are kept. -/
theorem PipeOk.keeps (h : PipeOk bus j td bytes) (hk : Keeps bus.uhci bus₁.uhci)
    (hp : bus₁.uhci.pipes j = bus.uhci.pipes j) (ht : bus₁.devToggle j = bus.devToggle j)
    (hc : bus₁.completed j = bus.completed j) (hd : bus₁.delivered j = bus.delivered j) :
    PipeOk bus₁ j td bytes := by
  obtain ⟨x, hx⟩ := h.qhAt
  refine h.congr hp ?_ ht hc hd
  rintro a (rfl | rfl | rfl)
  · rw [hk _ _ h.tdAt, h.tdAt]
  · rw [hk _ _ h.bufAt, h.bufAt]
  · rw [hk _ _ hx, hx]

theorem openFailed_ok (h : BusInv bus) {st₁ : Uhci} (hi : (bus.uhci.pipes i).inUse = false)
    (hfail : OpenFailed bus.uhci i st₁) : BusInv {bus with uhci := st₁} := by
  have hother : ∀ j, (st₁.pipes j).inUse = true →
      st₁.pipes j = bus.uhci.pipes j ∧ (bus.uhci.pipes j).inUse = true := by
    intro j hj
    rw [hfail.pipes] at hj ⊢
    by_cases hne : j = i
    · rw [hne, Function.update_self] at hj
      exact absurd hj (by decide)
    · rw [Function.update_of_ne hne] at hj ⊢
      exact ⟨rfl, hj⟩
  refine ⟨?_, ?_, ?_⟩
  · intro j hj
    obtain ⟨hp, hj'⟩ := hother j hj
    obtain ⟨td, bytes, hok⟩ := h.pipe j hj'
    exact ⟨td, bytes, hok.keeps hfail.keeps hp rfl rfl rfl⟩
  · intro j hj
    by_cases hne : j = i
    · rw [hne]
      exact h.unused i hi
    · have hj' : (st₁.pipes j).inUse = false := hj
      rw [hfail.pipes, Function.update_of_ne hne] at hj'
      exact h.unused j hj'
  · intro j k hj hk hne
    obtain ⟨hp, hj'⟩ := hother j hj
    obtain ⟨hp', hk'⟩ := hother k hk
    show (st₁.pipes j).buf ≠ (st₁.pipes k).buf ∧ (st₁.pipes j).td ≠ (st₁.pipes k).td ∧
      (st₁.pipes j).qh ≠ (st₁.pipes k).qh
    rw [hp, hp']
    exact h.apart j k hj' hk' hne

/- The bus after a pipe has been opened. -/
def connected (bus : KbdBus) (i : Fin uhciMaxKbdPipes) (st₁ : Uhci) : KbdBus :=
  {bus with
    uhci := st₁
    devToggle := Function.update bus.devToggle i false
    completed := Function.update bus.completed i []
    delivered := Function.update bus.delivered i []}

/- The blocks of the new pipe were free before, those of the others were not. -/
theorem opened_apart (h : BusInv bus) {st₁ : Uhci} {p : KbdPipe} (hopen : Opened bus.uhci i p st₁)
    (hj : (bus.uhci.pipes j).inUse = true) :
    p.buf ≠ (bus.uhci.pipes j).buf ∧ p.td ≠ (bus.uhci.pipes j).td ∧ p.qh ≠ (bus.uhci.pipes j).qh := by
  obtain ⟨td, bytes, hok⟩ := h.pipe j hj
  obtain ⟨x, hx⟩ := hok.qhAt
  refine ⟨?_, ?_, ?_⟩
  · exact ne_of_heap (hopen.fresh _ (by simp)) hok.bufAt nofun
  · exact ne_of_heap (hopen.fresh _ (by simp)) hok.tdAt nofun
  · exact ne_of_heap (hopen.fresh _ (by simp)) hx nofun

theorem opened_pipeOk {st₁ : Uhci} {v : OpenWorld} {p : KbdPipe} (htoggle : p.toggle = 0)
    (hopen : Opened bus.uhci i (openedPipe v p) st₁)
    (harmed : st₁.heap v.td = some (.td (openedTd v p))) :
    ∃ td bytes, PipeOk (connected bus i st₁) i td bytes := by
  have hself : (connected bus i st₁).uhci.pipes i = openedPipe v p := hopen.pipe_self
  obtain ⟨bytes, hbytes⟩ := hopen.owns.buf
  refine ⟨openedTd v p, bytes, ?_, ?_, ?_, ?_, ?_, ?_, ?_⟩
  · rw [hself]
    exact harmed
  · rw [hself]
    exact hbytes
  · rw [hself]
    exact hopen.owns.qh
  · rw [hself]
    rfl
  · rw [hself]
    exact Or.inl htoggle
  · rw [hself]
    rfl
  · have hwait : ¬ dataStatus (openedTd v p).controlStatus = true :=
      not_dataStatus_of_active tdArmed_active
    rw [InSync, if_neg hwait, hself]
    simp [connected, pipeToggle, openedPipe, htoggle]

theorem opened_ok (h : BusInv bus) {st₁ : Uhci} {v : OpenWorld} {p : KbdPipe}
    (htoggle : p.toggle = 0) (hopen : Opened bus.uhci i (openedPipe v p) st₁)
    (harmed : st₁.heap v.td = some (.td (openedTd v p))) : BusInv (connected bus i st₁) := by
  have hself : (connected bus i st₁).uhci.pipes i = openedPipe v p := hopen.pipe_self
  have hother : ∀ j, j ≠ i → (connected bus i st₁).uhci.pipes j = bus.uhci.pipes j :=
    fun j hj => hopen.pipe_of_ne hj
  refine ⟨?_, ?_, ?_⟩
  · intro j hj
    by_cases hne : j = i
    · subst hne
      exact opened_pipeOk htoggle hopen harmed
    · rw [hother j hne] at hj
      obtain ⟨td, bytes, hok⟩ := h.pipe j hj
      exact ⟨td, bytes, hok.keeps hopen.keeps (hother j hne) (Function.update_of_ne hne ..)
        (Function.update_of_ne hne ..) (Function.update_of_ne hne ..)⟩
  · intro j hj
    by_cases hne : j = i
    · subst hne
      simp [connected]
    · rw [hother j hne] at hj
      simp only [connected, Function.update_of_ne hne]
      exact h.unused j hj
  · intro j k hj hk hne
    by_cases hji : j = i
    · subst hji
      rw [hother k hne.symm] at hk ⊢
      rw [hself]
      exact opened_apart h hopen hk
    · rw [hother j hji] at hj ⊢
      by_cases hki : k = i
      · subst hki
        obtain ⟨hb, ht, hq⟩ := opened_apart h hopen hj
        rw [hself]
        exact ⟨hb.symm, ht.symm, hq.symm⟩
      · rw [hother k hki] at hk ⊢
        exact h.apart j k hj hk hne

theorem freePipe_inUse {st : Uhci} (h : freePipe st = some i) : (st.pipes i).inUse = false := by
  have hfree := List.find?_some h
  simpa using hfree

theorem openOn_ok (h : BusInv bus) (r : OpenRequest) : BusInv (openOn r bus) := by
  unfold openOn uhciKbdOpenInterruptIn
  cases hfree : freePipe bus.uhci with
  | none => exact h
  | some i =>
    dsimp only
    have hi := freePipe_inUse hfree
    obtain ⟨st₁, he, hfail⟩ | ⟨-, st₁, he, hopen⟩ := openPipe_cases r.world i
      (newPipe r.ioBase r.devAddr r.endpointAddress r.intervalFrames r.keyboardDevIndex) bus.uhci
      rfl rfl
    · rw [he]
      exact openFailed_ok h hi hfail
    · have harmed := openPipe_armed _ _ _ _ _ he
      rw [he]
      dsimp only
      rw [if_neg (by omega)]
      exact opened_ok h rfl hopen harmed

/-! ### Runs -/

theorem busStep_ok (t : TextMode) (h : BusInv bus) (a : BusAction) : BusInv (busStep t bus a) := by
  cases a with
  | openPipe r => exact openOn_ok h r
  | data i report status => exact dataCompletion_ok h i report status
  | fail i status => exact failedCompletion_ok h i status
  | service => exact (service_ok t h).1
  | interrupt io status => exact uhciIrqTop_ok t h io status

theorem busRun_ok (t : TextMode) (heap : Addr → Option Object) (keyboards : KeyboardSystem)
    (actions : List BusAction) : BusInv (busRun t (idleBus heap keyboards) actions) := by
  have hnone : ∀ i, ((idleBus heap keyboards).uhci.pipes i).inUse ≠ true := fun _ => Bool.false_ne_true
  have hstart : BusInv (idleBus heap keyboards) :=
    ⟨fun i hi => absurd hi (hnone i), fun _ _ => rfl, fun i _ hi => absurd hi (hnone i)⟩
  unfold busRun
  generalize idleBus heap keyboards = bus at hstart
  induction actions generalizing bus with
  | nil => exact hstart
  | cons a actions ih => exact ih _ (busStep_ok t hstart a)

/- A report that has come in and has not been served yet. -/
def pending (bus : KbdBus) (i : Fin uhciMaxKbdPipes) : List Report :=
  match tdOf bus i with
  | some td =>
    if dataStatus td.controlStatus then [reportAt bus.uhci (bus.uhci.pipes i).buf] else []
  | none => []

theorem BusInv.exactly_once (h : BusInv bus) (i : Fin uhciMaxKbdPipes) :
    bus.completed i = bus.delivered i ++ pending bus i := by
  unfold pending
  cases hi : (bus.uhci.pipes i).inUse with
  | false =>
    rw [h.unused i hi]
    simp [tdOf, hi]
  | true =>
    obtain ⟨td, bytes, hok⟩ := h.pipe i hi
    have hreport : reportAt bus.uhci (bus.uhci.pipes i).buf = reportOf bytes := by
      simp only [reportAt, hok.bufAt]
    have hsync := hok.sync
    rw [hok.tdOf hi]
    dsimp only
    rw [hreport]
    unfold InSync at hsync
    split at hsync
    next hdata => rw [if_pos hdata, hsync.2]
    next hdata => rw [if_neg hdata, hsync.2, List.append_nil]

end Step

end CasseOS.Usb
