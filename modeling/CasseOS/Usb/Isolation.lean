import CasseOS.Usb.Controllers
import CasseOS.Usb.Service
import CasseOS.Usb.Enumerate

/-! # Several host controllers (`uhci/controller.c`, `uhci/uhci_isr.c`, `usb.c`)

`usb_enumerate_devices` brings the controllers up one after the other. They all
read the one `frame_list`, which is cleared for each of them, and they all share
the one `g_uhci_ctx`, which the interrupt handler takes its registers from. -/

namespace CasseOS.Usb
open Keyboard Screen

/- What a controller and its ports answer while it is brought up. -/
structure ControllerWorld where
  /-- `USBSTS` after the reset. -/
  resetStatus : UInt16
  /-- The frame list register as it is read back. -/
  frameListRead : UInt32
  ports : ℕ → EnumWorld

structure UsbHost where
  stack : UsbStack
  /-- The address of `frame_list`. -/
  frameListAddr : UInt32
  /-- The frame list register of the controller at each I/O base. -/
  frameListBase : UInt16 → UInt32
  /-- `g_uhci_ctx`. -/
  ctxIoBase : UInt16
  ctxIrqLine : UInt8
  /-- The legacy lines on whose vector `uhci_irq_top` is registered. -/
  handlers : UInt8 → Bool
  /-- The I/O base and the line of each controller that was initialised. -/
  initialised : List (UInt16 × UInt8)

/-! ### Bringing a controller up -/

/- `HCHalted`. -/
def usbstsHchalted : UInt16 := 0x0020

/- The reset left the controller halted. -/
def ControllerWorld.halted (w : ControllerWorld) : Bool := w.resetStatus &&& usbstsHchalted ≠ 0

def UsbHost.uhci (host : UsbHost) : Uhci := host.stack.uhci

def UsbHost.withUhci (host : UsbHost) (uhci : Uhci) : UsbHost :=
  {host with stack := {host.stack with uhci}}

/-- `uhci_reset_controller` (`controller.c:23-35`). -/
def uhciResetController (w : ControllerWorld) (ioBase : UInt16) (st : Uhci) : Uhci × Bool :=
  ((st.portWordOut ioBase 0x0002).portWordOut ioBase 0x0000, w.halted)

/-- `uhci_initialize_frame_list` (`controller.c:37-41`) with the driver in any state. -/
def Uhci.initializeFrameList (st : Uhci) : Uhci := {st with frameList := fun _ => terminate}

/-- `uhci_set_frame_list_base_address` (`controller.c:43-54`). -/
def uhciSetFrameListBaseAddress (w : ControllerWorld) (ioBase : UInt16) (host : UsbHost) :
    UsbHost × Bool :=
  ({host with frameListBase := Function.update host.frameListBase ioBase w.frameListRead},
    w.frameListRead = host.frameListAddr)

/-- `uhci_enable_interrupts` (`controller.c:56-66`); what it reads back is only logged. -/
def uhciEnableInterrupts (ioBase : UInt16) (st : Uhci) : Uhci :=
  st.portWordOut (ioBase + 0x04) 0x0006

/-- `uhci_start_controller` (`controller.c:68-76`). -/
def uhciStartController (ioBase : UInt16) (st : Uhci) : Uhci := st.portWordOut ioBase 0x0001

/-- `uhci_install_isr` (`uhci_isr.c:61-78`). -/
def uhciInstallIsr (ioBase : UInt16) (line : UInt8) (host : UsbHost) : UsbHost :=
  let host := {host with ctxIoBase := ioBase, ctxIrqLine := line}
  if 16 ≤ line then host else {host with handlers := Function.update host.handlers line true}

/-- `uhci_initialize_controller` (`controller.c:78-103`); bus mastering is left out. -/
def uhciInitializeController (w : ControllerWorld) (ioBase : UInt16) (line : UInt8)
    (host : UsbHost) : UsbHost × Bool :=
  let (uhci, halted) := uhciResetController w ioBase host.uhci
  if halted = false then (host.withUhci uhci, false)
  else
    let (host, set) := uhciSetFrameListBaseAddress w ioBase (host.withUhci uhci.initializeFrameList)
    if set = false then (host, false)
    else
      let uhci := uhciStartController ioBase (uhciEnableInterrupts ioBase host.uhci)
      let host := uhciInstallIsr ioBase line (host.withUhci uhci)
      ({host with initialised := host.initialised ++ [(ioBase, line)]}, true)

def numPorts : ℕ := 2

/-- `uhci_enumerate_devices` (`enumerate.c:274-278`). -/
def uhciEnumerateDevices (w : ControllerWorld) (ioBase : UInt16) (st : UsbStack) : UsbStack :=
  (List.range numPorts).foldl (fun st port => (uhciEnumerateDevice (w.ports port) ioBase port st).1) st

/- An entry of `usb_controllers`, and what its controller will answer. -/
structure ControllerCall where
  controller : UsbController
  world : ControllerWorld

/- The UHCI device of the entry, if it is one. -/
def ControllerCall.uhciDevice (table : PciTable) (call : ControllerCall) : Option PciDevice :=
  (call.controller.pciDevice.bind fun i => table.devices[i]?).filter fun dev => dev.progIf = 0x00

def ControllerCall.ioBase (call : ControllerCall) : UInt16 := call.controller.baseAddress.toUInt16

/-- The body of the loop (`usb.c:60-83`); whether the controller came up is not looked at. -/
def enumerateController (table : PciTable) (call : ControllerCall) (host : UsbHost) : UsbHost :=
  match call.uhciDevice table with
  | none => host
  | some dev =>
    let (host, _) := uhciInitializeController call.world call.ioBase dev.interruptLine host
    {host with stack := uhciEnumerateDevices call.world call.ioBase host.stack}

/-- `usb_enumerate_devices` (`usb.c:57-85`). -/
def usbEnumerateDevices (table : PciTable) (calls : List ControllerCall) (host : UsbHost) : UsbHost :=
  calls.foldl (fun host call => enumerateController table call host)
    {host with stack := {host.stack with deviceCount := 0}}

/-- An interrupt on a legacy line: the handler registered there runs, with the
status it reads from the controller it knows of. -/
def UsbHost.interrupt (host : UsbHost) (t : TextMode) (line : UInt8) (read : UInt16 → UInt16)
    (bus : KbdBus) : KbdBus :=
  if host.handlers line then uhciIrqTop t host.ctxIoBase (read (host.ctxIoBase + 0x02)) bus else bus

/-! ### Isolation -/

/- The pipe is open, and the frame list its controller reads leads to its QH in
every entry of its schedule. -/
structure UsbHost.Scheduled (host : UsbHost) (i : Fin uhciMaxKbdPipes) : Prop where
  inUse : (host.uhci.pipes i).inUse
  reads : host.frameListBase (host.uhci.pipes i).ioBase = host.frameListAddr
  reached : ∀ f ∈ scheduleSlots (host.uhci.pipes i),
    Reaches host.uhci (host.uhci.frameList f) (host.uhci.pipes i).qh

/- Every pipe that is scheduled stays so. -/
def PipesKept (host host₁ : UsbHost) : Prop :=
  ∀ i, host.Scheduled i → host₁.uhci.pipes i = host.uhci.pipes i ∧ host₁.Scheduled i

/- An interrupt of an initialised controller is served from its own status
register, which is also the one that is acknowledged. -/
def HandlersOwn (host : UsbHost) : Prop :=
  ∀ c ∈ host.initialised, c.2 < 16 → ∀ t read bus,
    host.interrupt t c.2 read bus = uhciIrqTop t c.1 (read (c.1 + 0x02)) bus

def hostStep (table : PciTable) (host : UsbHost) (call : ControllerCall) : Option UsbHost :=
  some (enumerateController table call host)

/- Both, for the controllers in turn. -/
structure Isolated (table : PciTable) (host : UsbHost) (calls : List ControllerCall) : Prop where
  pipes : Run.Steps (hostStep table) PipesKept host calls
  handlers : Run.Throughout (hostStep table) HandlersOwn host calls

/- Such a run is the loop of `usb_enumerate_devices`. -/
theorem exec_hostStep (table : PciTable) (host : UsbHost) (calls : List ControllerCall) :
    Run.exec (hostStep table) {host with stack := {host.stack with deviceCount := 0}} calls =
      some (usbEnumerateDevices table calls host) := by
  exact Run.exec_some (fun host call => enumerateController table call host) _ calls

/-! ### When a controller leaves the others alone -/

/- The call, if it gets to link a QH, uses none of the entries that are to be kept. -/
def Avoids (kept : Slot → Prop) (st : Uhci) (op : UsbOp) : Prop :=
  op.Links st → ∀ f ∈ op.slots, ¬ kept f

section Checks
variable (kept : Slot → Prop) (w : EnumWorld) (ioBase : UInt16) (n : ℕ) (st : UsbStack)

def readDeviceDescriptorAvoids : Prop :=
  Avoids kept st.uhci (.getDeviceDescriptor w.getDevice (st.devices n).address w.deviceDesc)

def readShortConfigurationAvoids : Prop :=
  Avoids kept st.uhci (.getConfigurationDescriptor w.getConfig (st.devices n).address w.shortCfg)

def readConfigurationAvoids : Prop :=
  let (blob, uhci) := st.uhci.alignedAlloc w.blob
    (.buffer (copyBytes w.blobBytes 0 w.totalLength.toNat))
  blob ≠ 0 → Avoids kept uhci (.getFullConfigurationDescriptor w.getFullConfig
    (st.devices n).address blob w.totalLength)

def setConfigurationAvoids : Prop :=
  Avoids kept st.uhci (.setConfiguration w.setConfig (st.devices n).address
    (configurationValue (st.devices n).configDescriptor))

def attachKeyboardAvoids : Prop :=
  let dev := st.devices n
  let ep := dev.endpointDescriptor
  let idx := (keyboardRegisterUsbBootKeyboard st.keyboards dev.address (endpointAddress ep)
    (endpointInterval ep) (maxPacketSize ep)).1
  isBootKeyboard dev.interfaceDescriptor → 0 ≤ idx →
    Avoids kept st.uhci (.openInterruptIn w.openPipe ioBase dev.address (endpointAddress ep)
      (endpointInterval ep) (maxPacketSize ep) idx)

end Checks

/- One for each of `enumSteps`. -/
def enumChecks (kept : Slot → Prop) (w : EnumWorld) (ioBase : UInt16) (n : ℕ) :
    List (UsbStack → Prop) :=
  [readDeviceDescriptorAvoids kept w n, readShortConfigurationAvoids kept w n,
    readConfigurationAvoids kept w n, setConfigurationAvoids kept w n,
    attachKeyboardAvoids kept w ioBase n]

/- Every transfer and every opening the enumeration of the port gets to avoids
the entries that are to be kept. -/
structure EnumCall.Avoids (kept : Slot → Prop) (c : EnumCall) (st : UsbStack) : Prop where
  setAddress : st.deviceCount < maxUsbDevices → portReady c.world.portStatus = true →
    Usb.Avoids kept (uhciResetPort c.world c.ioBase c.port st.uhci)
      (.setDeviceAddress c.world.setAddress c.ioBase c.address)
  steps : c.Claims st → Run.Checked (enumSteps c.world c.ioBase st.deviceCount.toNat)
    (enumChecks kept c.world c.ioBase st.deviceCount.toNat) (c.claimed st)

def ControllerCall.port (call : ControllerCall) (port : ℕ) : EnumCall :=
  ⟨call.world.ports port, call.ioBase, port⟩

/- The ports in turn. -/
def PortsAvoid (kept : Slot → Prop) (call : ControllerCall) : List ℕ → UsbStack → Prop
  | [], _ => True
  | port :: ports, st =>
    (call.port port).Avoids kept st ∧ PortsAvoid kept call ports ((call.port port).run st).1

/- An entry of the schedule of a pipe that is scheduled. -/
def UsbHost.Kept (host : UsbHost) (f : Slot) : Prop :=
  ∃ i, host.Scheduled i ∧ f ∈ scheduleSlots (host.uhci.pipes i)

/- The initialisation gets to its end. -/
def ControllerCall.initialises (call : ControllerCall) (host : UsbHost) : Prop :=
  call.world.halted = true ∧ call.world.frameListRead = host.frameListAddr

/- The condition on one controller. -/
structure Isolating (table : PciTable) (host : UsbHost) (call : ControllerCall) : Prop where
  /-- No pipe is scheduled, or the frame list is not cleared and the ports avoid
  the entries of the pipes that are. -/
  schedule : (call.uhciDevice table).isSome → (∀ i, ¬ host.Scheduled i) ∨
    call.world.halted = false ∧ PortsAvoid host.Kept call (List.range numPorts)
      (host.withUhci (uhciResetController call.world call.ioBase host.uhci).1).stack
  /-- A controller that is initialised finds none initialised before, but for
  those with no line and those at its own I/O base. -/
  context : (call.uhciDevice table).isSome → call.initialises host →
    ∀ c ∈ host.initialised, c.2 < 16 → c.1 = call.ioBase

/-! ### What an enumeration leaves alone -/

/- The live blocks, the open pipes and the entries that are to be kept. -/
structure Undisturbed (kept : Slot → Prop) (st st₁ : Uhci) : Prop where
  keeps : Keeps st st₁
  pipes : ∀ i, (st.pipes i).inUse → st₁.pipes i = st.pipes i
  frames : ∀ f, kept f → st₁.frameList f = st.frameList f

section Undisturbed
variable {kept : Slot → Prop} {st st₁ st₂ : Uhci} {answers : List Addr} {slots : List Slot}
  {dangles : Prop}

theorem Undisturbed.refl (kept : Slot → Prop) (st : Uhci) : Undisturbed kept st st :=
  ⟨Keeps.refl st, fun _ _ => rfl, fun _ _ => rfl⟩

theorem Undisturbed.trans (h : Undisturbed kept st st₁) (h' : Undisturbed kept st₁ st₂) :
    Undisturbed kept st st₂ := by
  refine ⟨fun a o ha => h'.keeps a o (h.keeps a o ha), ?_, ?_⟩
  · intro i hi
    have hpipe := h.pipes i hi
    exact (h'.pipes i (hpipe ▸ hi)).trans hpipe
  · intro f hf
    exact (h'.frames f hf).trans (h.frames f hf)

theorem Grows.undisturbed (h : Grows st st₁) : Undisturbed kept st st₁ :=
  ⟨h.keeps, fun i _ => congrFun h.pipes i, fun f _ => congrFun h.frames f⟩

theorem ControlEffect.undisturbed (h : ControlEffect st answers slots dangles st₁)
    (havoid : Supplied st answers → ∀ f ∈ slots, ¬ kept f) : Undisturbed kept st st₁ := by
  cases h with
  | kept grows => exact grows.undisturbed
  | written word supplied keeps pipes frames _ =>
    refine ⟨keeps, fun i _ => congrFun pipes i, fun f hf => (frames f).trans (if_neg fun hmem => ?_)⟩
    exact havoid supplied f hmem hf

/- Opening takes a pipe that is free. -/
theorem open_undisturbed {v : OpenWorld} {ioBase : UInt16} {devAddr endpointAddress interval : UInt8}
    {wMaxPacket : UInt16} {idx r : ℤ}
    (havoid : Avoids kept st
      (.openInterruptIn v ioBase devAddr endpointAddress interval wMaxPacket idx))
    (hopen : uhciKbdOpenInterruptIn v ioBase devAddr endpointAddress interval wMaxPacket idx st =
      some (st₁, r)) : Undisturbed kept st st₁ := by
  obtain ⟨st', r', he, hcases⟩ := uhciKbdOpenInterruptIn_cases v ioBase devAddr endpointAddress
    interval wMaxPacket idx st
  obtain ⟨rfl, rfl⟩ : st₁ = st' ∧ r = r' := Prod.mk.inj (Option.some.inj (hopen.symm.trans he))
  rcases hcases with rfl | ⟨i, hfree, hcases⟩
  · exact .refl kept st₁
  have hne : ∀ j, (st.pipes j).inUse → j ≠ i := by
    rintro j hj rfl
    rw [freePipe_inUse hfree] at hj
    exact absurd hj Bool.false_ne_true
  rcases hcases with hfail | ⟨hsupp, hopened⟩
  · refine ⟨hfail.keeps, fun j hj => ?_, fun f _ => congrFun hfail.frames f⟩
    rw [hfail.pipes, Function.update_of_ne (hne j hj)]
  · refine ⟨hopened.keeps, fun j hj => hopened.pipe_of_ne (hne j hj), fun f hf => ?_⟩
    refine (hopened.frames f).trans (if_neg fun hmem => ?_)
    exact havoid ⟨by rw [hfree]; rfl, hsupp⟩ f hmem hf

end Undisturbed

section Stages
variable {kept : Slot → Prop} {w : EnumWorld} {ioBase : UInt16} {n : ℕ} {st : UsbStack}

theorem readDeviceDescriptor_undisturbed (h : readDeviceDescriptorAvoids kept w n st) :
    Undisturbed kept st.uhci (readDeviceDescriptor w n st).1.uhci :=
  (uhciGetDeviceDescriptor_effect w.getDevice _ w.deviceDesc st.uhci).undisturbed h

theorem readShortConfiguration_undisturbed (h : readShortConfigurationAvoids kept w n st) :
    Undisturbed kept st.uhci (readShortConfiguration w n st).1.uhci :=
  (uhciGetConfigurationDescriptor_effect w.getConfig _ w.shortCfg st.uhci).undisturbed h

theorem setConfiguration_undisturbed (h : setConfigurationAvoids kept w n st) :
    Undisturbed kept st.uhci (setConfiguration w n st).1.uhci :=
  (uhciSetConfiguration_effect w.setConfig _ _ st.uhci).undisturbed h

/- The blob was free before, so freeing it takes no block from anybody else. -/
theorem free_undisturbed {st st₁ : Uhci} {a : Addr} (h : Undisturbed kept st st₁)
    (ha : st.heap a = none) : Undisturbed kept st (st₁.alignedFree a) := by
  refine ⟨h.keeps.alignedFree (Or.inr ha), ?_, ?_⟩
  · rw [alignedFree_pipes]
    exact h.pipes
  · rw [alignedFree_frameList]
    exact h.frames

theorem readConfiguration_undisturbed (h : readConfigurationAvoids kept w n st) :
    Undisturbed kept st.uhci (readConfiguration w n st).1.uhci := by
  unfold readConfigurationAvoids at h
  unfold readConfiguration
  rcases alignedAlloc_cases st.uhci w.blob
    (.buffer (copyBytes w.blobBytes 0 w.totalLength.toNat)) with ⟨hgive, he⟩ | he
  · have hgrows := (Grows.refl st.uhci).alignedAlloc he
    simp only [he, if_neg hgive.1] at h ⊢
    have hread := hgrows.undisturbed.trans ((uhciGetFullConfigurationDescriptor_effect
      w.getFullConfig (st.devices n).address w.blob w.totalLength _).undisturbed (h hgive.1))
    split
    · exact free_undisturbed hread hgive.2.2
    · exact free_undisturbed hread hgive.2.2
  · simp only [he, ↓reduceIte]
    exact .refl kept st.uhci

theorem attachKeyboard_undisturbed (h : attachKeyboardAvoids kept w ioBase n st) :
    Undisturbed kept st.uhci (attachKeyboard w ioBase n st).1.uhci := by
  unfold attachKeyboardAvoids at h
  unfold attachKeyboard
  dsimp only at h ⊢
  split
  · next hboot =>
    split
    · next hidx =>
      split
      · next uhci pipeId hopen => exact open_undisturbed (h hboot hidx) hopen
      · exact .refl kept st.uhci
    · exact .refl kept st.uhci
  · exact .refl kept st.uhci

/- Each stage that passes its check. -/
theorem enumSteps_undisturbed (base : Uhci) :
    List.Forall₂ (fun f q => ∀ s : UsbStack, Undisturbed kept base s.uhci → q s →
      Undisturbed kept base (f s).1.uhci) (enumSteps w ioBase n) (enumChecks kept w ioBase n) :=
  .cons (fun _ hs hq => hs.trans (readDeviceDescriptor_undisturbed hq)) <|
  .cons (fun _ hs hq => hs.trans (readShortConfiguration_undisturbed hq)) <|
  .cons (fun _ hs hq => hs.trans (readConfiguration_undisturbed hq)) <|
  .cons (fun _ hs hq => hs.trans (setConfiguration_undisturbed hq)) <|
  .cons (fun _ hs hq => hs.trans (attachKeyboard_undisturbed hq)) .nil

end Stages

theorem EnumCall.run_undisturbed {kept : Slot → Prop} {c : EnumCall} {st : UsbStack}
    (h : c.Avoids kept st) : Undisturbed kept st.uhci (c.run st).1.uhci := by
  have hreset : Undisturbed kept st.uhci (uhciResetPort c.world c.ioBase c.port st.uhci) :=
    ⟨fun _ _ ha => ha, fun _ _ => rfl, fun _ _ => rfl⟩
  by_cases hfull : maxUsbDevices ≤ st.deviceCount
  · rw [c.run_eq st, if_pos hfull]
    exact .refl kept st.uhci
  by_cases hport : portReady c.world.portStatus = false
  · rw [c.run_eq st, if_neg hfull, if_pos hport]
    exact hreset
  have haddr : Undisturbed kept st.uhci (c.setAddress st).1 :=
    hreset.trans ((uhciSetDeviceAddress_effect c.world.setAddress c.ioBase c.address _).undisturbed
      (h.setAddress (UInt8.not_le.mp hfull) (Bool.eq_true_of_not_eq_false hport)))
  by_cases hok : (c.setAddress st).2 = 0
  · rw [c.run_eq st, if_neg hfull, if_neg hport, if_pos hok]
    exact haddr
  · have hclaims : c.Claims st :=
      ⟨UInt8.not_le.mp hfull, Bool.eq_true_of_not_eq_false hport, hok⟩
    rw [EnumCall.run_claims hclaims]
    exact Run.bail_checked (enumSteps_undisturbed st.uhci) haddr (h.steps hclaims)

theorem ports_undisturbed {kept : Slot → Prop} {call : ControllerCall} {ports : List ℕ}
    {st : UsbStack} (h : PortsAvoid kept call ports st) :
    Undisturbed kept st.uhci (ports.foldl (fun st port =>
      (uhciEnumerateDevice (call.world.ports port) call.ioBase port st).1) st).uhci := by
  induction ports generalizing st with
  | nil => exact .refl kept st.uhci
  | cons port ports ih => exact (EnumCall.run_undisturbed h.1).trans (ih h.2)

/-! ### Controllers in turn -/

theorem Reaches.keeps {st st₁ : Uhci} {link : UInt32} {q : Addr} (h : Reaches st link q)
    (hk : Keeps st st₁) : Reaches st₁ link q := by
  induction h with
  | here q => exact .here q
  | next head _ ih => exact .next (hk _ _ head) ih

theorem UsbHost.Scheduled.undisturbed {host host₁ : UsbHost} {i : Fin uhciMaxKbdPipes}
    (h : host.Scheduled i) (hu : Undisturbed host.Kept host.uhci host₁.uhci)
    (hbase : host₁.frameListBase = host.frameListBase)
    (haddr : host₁.frameListAddr = host.frameListAddr) :
    host₁.uhci.pipes i = host.uhci.pipes i ∧ host₁.Scheduled i := by
  have hpipe := hu.pipes i h.inUse
  refine ⟨hpipe, ?_, ?_, ?_⟩
  · rw [hpipe]
    exact h.inUse
  · rw [hpipe, hbase, haddr]
    exact h.reads
  · intro f hf
    rw [hpipe] at hf ⊢
    rw [hu.frames f ⟨i, h, hf⟩]
    exact (h.reached f hf).keeps hu.keeps

/- A controller that does not halt is not initialised, but its ports are enumerated. -/
theorem enumerateController_not_halted {table : PciTable} {call : ControllerCall} {dev : PciDevice}
    (hdev : call.uhciDevice table = some dev) (hhalt : call.world.halted = false) (host : UsbHost) :
    enumerateController table call host =
      let host := host.withUhci (uhciResetController call.world call.ioBase host.uhci).1
      {host with stack := uhciEnumerateDevices call.world call.ioBase host.stack} := by
  unfold enumerateController uhciInitializeController uhciResetController
  simp only [hdev, hhalt, ↓reduceIte]

theorem enumerateController_pipesKept {table : PciTable} {host : UsbHost} {call : ControllerCall}
    (h : Isolating table host call) : PipesKept host (enumerateController table call host) := by
  intro i hi
  cases hdev : call.uhciDevice table with
  | none =>
    unfold enumerateController
    rw [hdev]
    exact ⟨rfl, hi⟩
  | some dev =>
    obtain hnone | ⟨hhalt, hports⟩ := h.schedule (by rw [hdev]; rfl)
    · exact absurd hi (hnone i)
    · rw [enumerateController_not_halted hdev hhalt host]
      have hreset : Undisturbed host.Kept host.uhci
          (uhciResetController call.world call.ioBase host.uhci).1 :=
        ⟨fun _ _ ha => ha, fun _ _ => rfl, fun _ _ => rfl⟩
      exact hi.undisturbed (hreset.trans (ports_undisturbed hports)) rfl rfl

/- What makes the handlers own: they are there, and the one context they share
is that of every controller with a line. -/
def HandlersInv (host : UsbHost) : Prop :=
  ∀ c ∈ host.initialised, c.2 < 16 → host.handlers c.2 = true ∧ host.ctxIoBase = c.1

theorem HandlersInv.own {host : UsbHost} (h : HandlersInv host) : HandlersOwn host := by
  intro c hc hline t read bus
  obtain ⟨hhandler, hio⟩ := h c hc hline
  rw [UsbHost.interrupt, if_pos hhandler, hio]

theorem uhciInstallIsr_initialised (ioBase : UInt16) (line : UInt8) (host : UsbHost) :
    (uhciInstallIsr ioBase line host).initialised = host.initialised := by
  unfold uhciInstallIsr
  dsimp only
  split
  · rfl
  · rfl

theorem uhciInstallIsr_inv {host : UsbHost} {ioBase : UInt16} {line : UInt8} (h : HandlersInv host)
    (hctx : ∀ c ∈ host.initialised, c.2 < 16 → c.1 = ioBase) :
    HandlersInv {uhciInstallIsr ioBase line host with
      initialised := (uhciInstallIsr ioBase line host).initialised ++ [(ioBase, line)]} := by
  intro c hc hline
  rw [uhciInstallIsr_initialised] at hc
  have hhandlers : (uhciInstallIsr ioBase line host).handlers c.2 = true ∧ ioBase = c.1 := by
    unfold uhciInstallIsr
    rw [List.mem_append, List.mem_singleton] at hc
    obtain hold | rfl := hc
    · refine ⟨?_, (hctx c hold hline).symm⟩
      have hset := (h c hold hline).1
      dsimp only
      split
      · exact hset
      · by_cases heq : c.2 = line
        · rw [heq]
          exact Function.update_self ..
        · exact (Function.update_of_ne heq _ _).trans hset
    · rw [if_neg (UInt8.not_le.mpr hline)]
      exact ⟨Function.update_self .., rfl⟩
  refine ⟨hhandlers.1, ?_⟩
  rw [← hhandlers.2]
  unfold uhciInstallIsr
  dsimp only
  split
  · rfl
  · rfl

theorem enumerateController_inv {table : PciTable} {host : UsbHost} {call : ControllerCall}
    (hinv : HandlersInv host) (h : Isolating table host call) :
    HandlersInv (enumerateController table call host) := by
  unfold enumerateController
  split
  · exact hinv
  · next dev hdev =>
    show HandlersInv (uhciInitializeController call.world call.ioBase dev.interruptLine host).1
    unfold uhciInitializeController uhciResetController uhciSetFrameListBaseAddress
    dsimp only
    split
    · exact hinv
    · next hhalt =>
      split
      · exact hinv
      · next hset =>
        have hinit : call.initialises host :=
          ⟨Bool.eq_true_of_not_eq_false hhalt, of_decide_eq_true (Bool.eq_true_of_not_eq_false hset)⟩
        apply uhciInstallIsr_inv
        · exact hinv
        · exact h.context (by rw [hdev]; rfl) hinit

/-- In every run in which each controller meets the condition, from a driver in
any state with no controller initialised, every scheduled pipe stays scheduled
and every interrupt is served from the register of the controller that raised
it. -/
theorem controllers_isolated (table : PciTable) (host : UsbHost) (calls : List ControllerCall)
    (hok : Run.Guarded (hostStep table) (Isolating table) {host with initialised := []} calls) :
    Isolated table {host with initialised := []} calls := by
  have hpipes : Run.Steps (hostStep table) PipesKept {host with initialised := []} calls := by
    refine Run.steps_of_guarded ?_ hok
    intro host call h
    exact ⟨_, rfl, enumerateController_pipesKept h⟩
  have hhandlers : Run.Throughout (hostStep table) HandlersInv {host with initialised := []} calls := by
    refine Run.throughout_of_invariant ?_ (fun _ hc => absurd hc List.not_mem_nil) hok
    intro host call hinv h
    exact ⟨_, rfl, enumerateController_inv hinv h⟩
  exact ⟨hpipes, hhandlers.mono fun _ h => h.own⟩

/- The driver before any controller is looked at, with `frame_list` at `0x100000`. -/
def bootHost : UsbHost := ⟨emptyStack, 0x100000, fun _ => 0, 0, 0, fun _ => false, []⟩

def uhciAt (bar : UInt32) (line : UInt8) : PciDevice :=
  ⟨0x8086, 0x0C, 0x03, 0x00, fun i => if i = 4 then bar else 0, fun _ => false, line⟩

/- Two controllers, on lines 11 and 10. -/
def twoUhciTable : PciTable := ⟨[uhciAt 0xC000 11, uhciAt 0xC020 10], by decide⟩

/- The controller at an index, with nothing connected to it. -/
def emptyController (resetStatus : UInt16) (index : ℕ) (base : UInt32) : ControllerCall :=
  ⟨⟨some index, base⟩, resetStatus, 0x100000, fun _ => (firstReadCall 0x0000 0).world⟩

/- A keyboard that is polled in every 128th frame. -/
def slowKeyboard : EnumWorld :=
  {(keyboardCall 0 0).world with blobBytes := byteAt (keyboardBlob.dropLast ++ [128])}

/- The first controller comes up, with a keyboard on its first port. -/
def keyboardController : ControllerCall :=
  ⟨⟨some 0, 0xC000⟩, 0x0020, 0x100000,
    fun port => if port = 0 then slowKeyboard else (firstReadCall 0x0000 0).world⟩

def keyboardHost : UsbHost := enumerateController twoUhciTable keyboardController bootHost

theorem keyboardHost_scheduled : keyboardHost.Scheduled 0 := by
  refine ⟨by decide +kernel, by decide +kernel, ?_⟩
  have hlinks : ∀ f ∈ scheduleSlots (keyboardHost.uhci.pipes 0),
      keyboardHost.uhci.frameList f = qhWord (keyboardHost.uhci.pipes 0).qh := by decide +kernel
  intro f hf
  rw [hlinks f hf]
  exact .here _

/- The second controller does not halt, and the keyboard stays on its schedule. -/
theorem controllers_isolated_one_halts :
    keyboardHost.Scheduled 0 ∧ keyboardHost.initialised = [(0xC000, 11)] ∧
      Isolated twoUhciTable {bootHost with initialised := []}
        [keyboardController, emptyController 0x0000 1 0xC020] := by
  refine ⟨keyboardHost_scheduled, by decide +kernel,
    controllers_isolated twoUhciTable bootHost _ ⟨⟨fun _ => Or.inl ?_, ?_⟩, ?_⟩⟩
  · intro i hi
    exact absurd hi.inUse Bool.false_ne_true
  · intro _ _ c hc
    exact absurd hc List.not_mem_nil
  · intro host _
    have hunplugged : ∀ kept port st,
        ((emptyController 0x0000 1 0xC020).port port).Avoids kept st := by
      intro kept port st
      have hstatus : ¬portReady 0x0000 = true := by decide
      exact ⟨fun _ h => absurd h hstatus, fun h => absurd h.2.1 hstatus⟩
    refine ⟨⟨fun _ => Or.inr ⟨by decide, hunplugged _ _ _, hunplugged _ _ _, trivial⟩, ?_⟩,
      fun _ _ => trivial⟩
    exact fun _ h => absurd h.1 (by decide)

/- Both come up. The handler on line 11 now reads the status of the controller
on line 10: it finds nothing there and does not acknowledge. -/
theorem second_controller_takes_context :
    ¬ Isolated twoUhciTable {bootHost with initialised := []}
      [emptyController 0x0020 0 0xC000, emptyController 0x0020 1 0xC020] := by
  rintro ⟨-, -, host₁, ⟨⟩, -, host₂, ⟨⟩, h⟩
  have hserve := h (0xC000, 11) (by decide) (by decide) vgaText
    (fun r => if r = 0xC002 then 0x0004 else 0) (idleBus (fun _ => none) emptyStack.keyboards)
  have hports := congrArg (fun b => b.uhci.portsOut) hserve
  exact absurd hports (by decide)

end CasseOS.Usb
