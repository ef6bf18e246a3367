import CasseOS.Keyboard.HotPlug
import CasseOS.Lib.Run
import CasseOS.Usb.Schedule

/-! # Enumeration (`drivers/usb/uhci/enumerate.c`)

A device that answers SET_ADDRESS gets the next entry of `usb_devices`; its
descriptors are read into it, the device is configured, and a boot keyboard
gets a keyboard slot and a pipe. A step that fails ends the call. -/

namespace CasseOS.Usb
open Keyboard Screen

/-! ### Descriptors

A descriptor is the bytes of its packed structure. -/

abbrev Bytes := List UInt8

def byteAt (d : Bytes) (i : ℕ) : UInt8 := d.getD i 0

def usbDescTypeInterface : UInt8 := 0x04
def usbDescTypeEndpoint : UInt8 := 0x05

/- Fields of `usb_configuration_descriptor_t`, `usb_interface_descriptor_t` and
`usb_endpoint_descriptor_t`. -/
def configurationValue (d : Bytes) : UInt8 := byteAt d 5
def interfaceNumber (d : Bytes) : UInt8 := byteAt d 2
def alternateSetting (d : Bytes) : UInt8 := byteAt d 3
def interfaceClass (d : Bytes) : UInt8 := byteAt d 5
def interfaceSubclass (d : Bytes) : UInt8 := byteAt d 6
def interfaceProtocol (d : Bytes) : UInt8 := byteAt d 7
def endpointAddress (d : Bytes) : UInt8 := byteAt d 2
def endpointAttributes (d : Bytes) : UInt8 := byteAt d 3
def maxPacketSize (d : Bytes) : UInt16 := (byteAt d 4).toUInt16 ||| (byteAt d 5).toUInt16 <<< 8
def endpointInterval (d : Bytes) : UInt8 := byteAt d 6

/- Class `USB_CLASS_HID`, subclass `USB_SUBCLASS_BOOT`, protocol `USB_PROTOCOL_KEYBOARD`. -/
def isBootKeyboard (d : Bytes) : Bool :=
  interfaceClass d = 0x03 ∧ interfaceSubclass d = 0x01 ∧ interfaceProtocol d = 0x01

/- `usb_device_t`. -/
structure UsbDevice where
  address : UInt8
  descriptor : Bytes
  configDescriptor : Bytes
  interfaceDescriptor : Bytes
  /-- `endpoint_descriptors[0]`, the one endpoint the driver uses. -/
  endpointDescriptor : Bytes
  /-- `endpoint_descriptors[1]` to `[15]`. -/
  otherEndpoints : Fin 15 → Bytes

/-! ### Parsing

`buf` is the memory from the blob on: a descriptor that claims to be shorter
than its structure is copied with the bytes that follow it, which may lie
outside the blob. -/

def copyBytes (buf : ℕ → UInt8) (off n : ℕ) : Bytes := (List.range n).map fun i => buf (off + i)

/- The offsets the two loops visit. -/
def descriptorOffsets (buf : ℕ → UInt8) (totalLen off : ℕ) : List ℕ :=
  if h : off + 2 ≤ totalLen ∧ buf off ≠ 0 ∧ off + (buf off).toNat ≤ totalLen then
    have : 0 < (buf off).toNat := Nat.pos_of_ne_zero fun hz => h.2.1 (UInt8.toNat_inj.mp hz)
    off :: descriptorOffsets buf totalLen (off + (buf off).toNat)
  else []
termination_by totalLen - off

/-- The first pass (`enumerate.c:75-90`): the first interface and the last boot
keyboard interface so far. -/
def pass1 (buf : ℕ → UInt8) (acc : Option Bytes × Option Bytes) (off : ℕ) :
    Option Bytes × Option Bytes :=
  if buf (off + 1) = usbDescTypeInterface then
    let id := copyBytes buf off 9
    (acc.1.or (some id), if isBootKeyboard id then some id else acc.2)
  else acc

/-- The second pass (`enumerate.c:102-119`): the first interrupt IN endpoint in
the block of the chosen interface. -/
def pass2 (buf : ℕ → UInt8) (chosen : Bytes) : Bool → List ℕ → Option Bytes
  | _, [] => none
  | inBlock, off :: offs =>
    if buf (off + 1) = usbDescTypeInterface then
      let id := copyBytes buf off 9
      pass2 buf chosen (interfaceNumber id = interfaceNumber chosen ∧
        alternateSetting id = alternateSetting chosen) offs
    else if buf (off + 1) = usbDescTypeEndpoint ∧ inBlock = true then
      let ep := copyBytes buf off 7
      if endpointAttributes ep &&& 0x3 = 0x3 ∧ endpointAddress ep &&& 0x80 ≠ 0 then some ep
      else pass2 buf chosen inBlock offs
    else pass2 buf chosen inBlock offs

/-- `usb_parse_config_blob_into_device` (`enumerate.c:62-128`), for a blob and a
device that are not `NULL`. -/
def usbParseConfigBlobIntoDevice (buf : ℕ → UInt8) (totalLen : UInt16) (dev : UsbDevice) :
    UsbDevice × Bool :=
  if totalLen < 9 then (dev, false)
  else
    let dev := {dev with configDescriptor := copyBytes buf 0 9}
    let offs := descriptorOffsets buf totalLen.toNat 0
    match offs.foldl (pass1 buf) (none, none) with
    | (none, _) => (dev, false)
    | (some firstIf, bestIf) =>
      let chosen := bestIf.getD firstIf
      let dev := {dev with interfaceDescriptor := chosen}
      match pass2 buf chosen false offs with
      | none => (dev, false)
      | some ep => ({dev with endpointDescriptor := ep}, true)

/-! ### The devices -/

def maxUsbDevices : UInt8 := 128

/- The driver with its table of devices. -/
structure UsbStack where
  uhci : Uhci
  keyboards : KeyboardSystem
  /-- `usb_devices`. -/
  devices : ℕ → UsbDevice
  deviceCount : UInt8
  /-- Whether the enumeration of an entry got to its end: the device is
  configured, and a boot keyboard has its pipe. -/
  enumerated : ℕ → Bool

/- What the port, the device and the heap answer during one enumeration. -/
structure EnumWorld where
  /-- The port register after the reset, before it is enabled, and at the end. -/
  portReset : UInt16
  portBefore : UInt16
  portStatus : UInt16
  setAddress : TransferWorld
  getDevice : TransferWorld
  getConfig : TransferWorld
  getFullConfig : TransferWorld
  setConfig : TransferWorld
  /-- Where the descriptors are read to, and what is there afterwards. -/
  deviceDesc : Addr
  deviceBytes : Bytes
  shortCfg : Addr
  totalLength : UInt16
  blob : Addr
  blobBytes : ℕ → UInt8
  openPipe : OpenWorld

def portEnable : UInt16 := 0x0004
def portConnectStatus : UInt16 := 0x0001
def portResetBit : UInt16 := 0x0200

def portAddr (ioBase : UInt16) (port : ℕ) : UInt16 := ioBase + 0x10 + UInt16.ofNat (port * 2)

/-- `uhci_reset_port` (`enumerate.c:131-153`). -/
def uhciResetPort (w : EnumWorld) (ioBase : UInt16) (port : ℕ) (st : Uhci) : Uhci :=
  let addr := portAddr ioBase port
  ((st.portWordOut addr portResetBit).portWordOut addr (w.portReset &&& ~~~portResetBit)).portWordOut
    addr (w.portBefore ||| portEnable)

/- The port is enabled and a device is connected. -/
def portReady (status : UInt16) : Bool := status &&& portEnable ≠ 0 ∧ status &&& portConnectStatus ≠ 0

/-! ### The steps of `uhci_enumerate_device`

Each step takes the index `n` of the entry in `usb_devices`, and tells whether
the call goes on. -/

section Steps
variable (w : EnumWorld) (ioBase : UInt16) (n : ℕ)

def setDevice (dev : UsbDevice) (st : UsbStack) : UsbStack :=
  {st with devices := Function.update st.devices n dev}

/-- The device descriptor (`enumerate.c:183-186`). -/
def readDeviceDescriptor (st : UsbStack) : UsbStack × Bool :=
  let dev := st.devices n
  let (uhci, ok) := uhciGetDeviceDescriptor w.getDevice dev.address w.deviceDesc st.uhci
  (setDevice n {dev with descriptor := w.deviceBytes} {st with uhci}, ok ≠ 0)

/-- The short configuration descriptor (`enumerate.c:188-195`). -/
def readShortConfiguration (st : UsbStack) : UsbStack × Bool :=
  let (uhci, ok) := uhciGetConfigurationDescriptor w.getConfig (st.devices n).address w.shortCfg
    st.uhci
  ({st with uhci}, ok ≠ 0)

/-- The whole configuration: the blob is allocated, read, parsed and freed
(`enumerate.c:197-215`). -/
def readConfiguration (st : UsbStack) : UsbStack × Bool :=
  let dev := st.devices n
  let (blob, uhci) := st.uhci.alignedAlloc w.blob (.buffer (copyBytes w.blobBytes 0 w.totalLength.toNat))
  if blob = 0 then ({st with uhci}, false)
  else
    let (uhci, ok) := uhciGetFullConfigurationDescriptor w.getFullConfig dev.address blob
      w.totalLength uhci
    if ok = 0 then ({st with uhci := uhci.alignedFree blob}, false)
    else
      let (dev, parsed) := usbParseConfigBlobIntoDevice w.blobBytes w.totalLength dev
      (setDevice n dev {st with uhci := uhci.alignedFree blob}, parsed)

/-- SET_CONFIGURATION (`enumerate.c:217-220`). -/
def setConfiguration (st : UsbStack) : UsbStack × Bool :=
  let dev := st.devices n
  let (uhci, ok) := uhciSetConfiguration w.setConfig dev.address
    (configurationValue dev.configDescriptor) st.uhci
  ({st with uhci}, ok ≠ 0)

/-- A boot keyboard is registered and its pipe opened (`enumerate.c:222-246`).
The call reaches its end in any case; the result tells whether the keyboard has
a pipe. Opening always comes to an end, so there is no third outcome. -/
def attachKeyboard (st : UsbStack) : UsbStack × Bool :=
  let dev := st.devices n
  let ep := dev.endpointDescriptor
  if isBootKeyboard dev.interfaceDescriptor then
    let (idx, keyboards) := keyboardRegisterUsbBootKeyboard st.keyboards dev.address
      (endpointAddress ep) (endpointInterval ep) (maxPacketSize ep)
    let st := {st with keyboards}
    if 0 ≤ idx then
      match uhciKbdOpenInterruptIn w.openPipe ioBase dev.address (endpointAddress ep)
        (endpointInterval ep) (maxPacketSize ep) idx st.uhci with
      | some (uhci, pipeId) => ({st with uhci}, 0 ≤ pipeId)
      | none => (st, false)
    else (st, false)
  else (st, true)

/- Everything after the entry is claimed. -/
def enumSteps : List (UsbStack → UsbStack × Bool) :=
  [readDeviceDescriptor w n, readShortConfiguration w n, readConfiguration w n, setConfiguration w n,
    attachKeyboard w ioBase n]

end Steps

/-- `usb_devices[usb_device_count++]` (`enumerate.c:180-181`). -/
def claimEntry (address : UInt8) (st : UsbStack) : UsbStack :=
  let n := st.deviceCount.toNat
  {st with
    devices := Function.update st.devices n {st.devices n with address}
    deviceCount := st.deviceCount + 1
    enumerated := Function.update st.enumerated n false}

/-- `uhci_enumerate_device` (`enumerate.c:155-272`); the messages are left out.
The result tells whether the device was brought up. -/
def uhciEnumerateDevice (w : EnumWorld) (ioBase : UInt16) (port : ℕ) (st : UsbStack) :
    UsbStack × Bool :=
  if maxUsbDevices ≤ st.deviceCount then (st, false)
  else
    let address := UInt8.ofNat (port + 1)
    let st := {st with uhci := uhciResetPort w ioBase port st.uhci}
    if portReady w.portStatus = false then (st, false)
    else
      let (uhci, ok) := uhciSetDeviceAddress w.setAddress ioBase address st.uhci
      let st := {st with uhci}
      if ok = 0 then (st, false)
      else
        let n := st.deviceCount.toNat
        let (st, ok) := Run.bail (enumSteps w ioBase n) (claimEntry address st)
        ({st with enumerated := Function.update st.enumerated n ok}, ok)

/-! ### What the steps leave alone -/

theorem ControlEffect.pipes {st st₁ : Uhci} {answers : List Addr} {slots : List Slot}
    {dangles : Prop} (h : ControlEffect st answers slots dangles st₁) : st₁.pipes = st.pipes := by
  cases h with
  | kept grows => exact grows.pipes
  | written word _ _ pipes _ _ => exact pipes

/- The table of devices, but for the contents of entry `n`. -/
structure KeepsTable (n : ℕ) (st st₁ : UsbStack) : Prop where
  count : st₁.deviceCount = st.deviceCount
  devices : ∀ i, i ≠ n → st₁.devices i = st.devices i
  enumerated : st₁.enumerated = st.enumerated

section Keeps
variable (w : EnumWorld) (ioBase : UInt16) (n : ℕ) (st : UsbStack)

theorem KeepsTable.refl : KeepsTable n st st := ⟨rfl, fun _ _ => rfl, rfl⟩

theorem KeepsTable.trans {n : ℕ} {st st₁ st₂ : UsbStack} (h : KeepsTable n st st₁)
    (h' : KeepsTable n st₁ st₂) : KeepsTable n st st₂ :=
  ⟨h'.count.trans h.count, fun i hi => (h'.devices i hi).trans (h.devices i hi),
    h'.enumerated.trans h.enumerated⟩

theorem setDevice_keeps (dev : UsbDevice) (uhci : Uhci) :
    KeepsTable n st (setDevice n dev {st with uhci}) :=
  ⟨rfl, fun _ hi => Function.update_of_ne hi .., rfl⟩

theorem readConfiguration_keeps : KeepsTable n st (readConfiguration w n st).1 := by
  unfold readConfiguration
  dsimp only
  split
  · exact ⟨rfl, fun _ _ => rfl, rfl⟩
  · split
    · exact ⟨rfl, fun _ _ => rfl, rfl⟩
    · exact setDevice_keeps n st _ _

theorem attachKeyboard_keeps : KeepsTable n st (attachKeyboard w ioBase n st).1 := by
  unfold attachKeyboard
  dsimp only
  split
  · split
    · split
      · exact ⟨rfl, fun _ _ => rfl, rfl⟩
      · exact ⟨rfl, fun _ _ => rfl, rfl⟩
    · exact ⟨rfl, fun _ _ => rfl, rfl⟩
  · exact .refl n st

theorem enumSteps_keep {f : UsbStack → UsbStack × Bool} (hf : f ∈ enumSteps w ioBase n) :
    KeepsTable n st (f st).1 := by
  simp only [enumSteps, List.mem_cons, List.not_mem_nil, or_false] at hf
  obtain rfl | rfl | rfl | rfl | rfl := hf
  · exact setDevice_keeps n st _ _
  · exact ⟨rfl, fun _ _ => rfl, rfl⟩
  · exact readConfiguration_keeps w n st
  · exact ⟨rfl, fun _ _ => rfl, rfl⟩
  · exact attachKeyboard_keeps w ioBase n st

theorem bail_enumSteps_keeps : KeepsTable n st (Run.bail (enumSteps w ioBase n) st).1 :=
  Run.bail_invariant (fun _ hf s hs => hs.trans (enumSteps_keep w ioBase n s hf)) (.refl n st)

end Keeps

/-! ### All or nothing -/

/- The tables before and after a call. -/
structure SameTables (st st₁ : UsbStack) : Prop where
  count : st₁.deviceCount = st.deviceCount
  devices : ∀ i < st.deviceCount.toNat, st₁.devices i = st.devices i
  keyboards : st₁.keyboards.usb = st.keyboards.usb
  pipes : st₁.uhci.pipes = st.uhci.pipes

def AllEnumerated (st : UsbStack) : Prop := ∀ i < st.deviceCount.toNat, st.enumerated i = true

structure EnumCall where
  world : EnumWorld
  ioBase : UInt16
  port : ℕ

def EnumCall.run (c : EnumCall) (st : UsbStack) : UsbStack × Bool :=
  uhciEnumerateDevice c.world c.ioBase c.port st

/- A call that does not bring its device up leaves the tables as they are, and
so every entry stays one of an enumerated device. -/
structure AllOrNothing (c : EnumCall) (st : UsbStack) : Prop where
  unchanged : (c.run st).2 = false → SameTables st (c.run st).1
  entries : AllEnumerated st → AllEnumerated (c.run st).1

def EnumCall.address (c : EnumCall) : UInt8 := UInt8.ofNat (c.port + 1)

/- SET_ADDRESS, after the port is reset. -/
def EnumCall.setAddress (c : EnumCall) (st : UsbStack) : Uhci × ℤ :=
  uhciSetDeviceAddress c.world.setAddress c.ioBase c.address
    (uhciResetPort c.world c.ioBase c.port st.uhci)

/- There is an entry left, the port has a device and SET_ADDRESS succeeds. -/
def EnumCall.Claims (c : EnumCall) (st : UsbStack) : Prop :=
  st.deviceCount < maxUsbDevices ∧ portReady c.world.portStatus = true ∧ (c.setAddress st).2 ≠ 0

/- The state in which the remaining steps start. -/
def EnumCall.claimed (c : EnumCall) (st : UsbStack) : UsbStack :=
  claimEntry c.address {st with uhci := (c.setAddress st).1}

/- No step after SET_ADDRESS fails. -/
def EnumCall.StepsSucceed (c : EnumCall) (st : UsbStack) : Prop :=
  Run.AllSucceed (enumSteps c.world c.ioBase st.deviceCount.toNat) (c.claimed st)

theorem resetPort_pipes (w : EnumWorld) (ioBase : UInt16) (port : ℕ) (st : Uhci) :
    (uhciResetPort w ioBase port st).pipes = st.pipes := rfl

theorem EnumCall.setAddress_pipes (c : EnumCall) (st : UsbStack) :
    (c.setAddress st).1.pipes = st.uhci.pipes :=
  (uhciSetDeviceAddress_effect c.world.setAddress c.ioBase c.address _).pipes.trans
    (resetPort_pipes c.world c.ioBase c.port st.uhci)

theorem EnumCall.run_eq (c : EnumCall) (st : UsbStack) :
    c.run st =
      if maxUsbDevices ≤ st.deviceCount then (st, false)
      else if portReady c.world.portStatus = false then
        ({st with uhci := uhciResetPort c.world c.ioBase c.port st.uhci}, false)
      else if (c.setAddress st).2 = 0 then ({st with uhci := (c.setAddress st).1}, false)
      else
        let r := Run.bail (enumSteps c.world c.ioBase st.deviceCount.toNat) (c.claimed st)
        ({r.1 with enumerated := Function.update r.1.enumerated st.deviceCount.toNat r.2}, r.2) :=
  rfl

theorem EnumCall.run_not_claims {c : EnumCall} {st : UsbStack} (h : ¬ c.Claims st) :
    (c.run st).2 = false ∧ SameTables st (c.run st).1 ∧ (c.run st).1.enumerated = st.enumerated := by
  rw [c.run_eq st]
  by_cases hfull : maxUsbDevices ≤ st.deviceCount
  · rw [if_pos hfull]
    exact ⟨rfl, ⟨rfl, fun _ _ => rfl, rfl, rfl⟩, rfl⟩
  · rw [if_neg hfull]
    by_cases hport : portReady c.world.portStatus = false
    · rw [if_pos hport]
      exact ⟨rfl, ⟨rfl, fun _ _ => rfl, rfl, rfl⟩, rfl⟩
    · rw [if_neg hport]
      have haddr : (c.setAddress st).2 = 0 := by
        by_contra hne
        exact h ⟨UInt8.not_le.mp hfull, Bool.eq_true_of_not_eq_false hport, hne⟩
      rw [if_pos haddr]
      exact ⟨rfl, ⟨rfl, fun _ _ => rfl, rfl, c.setAddress_pipes st⟩, rfl⟩

theorem EnumCall.run_claims {c : EnumCall} {st : UsbStack} (h : c.Claims st) :
    c.run st = let r := Run.bail (enumSteps c.world c.ioBase st.deviceCount.toNat) (c.claimed st)
      ({r.1 with enumerated := Function.update r.1.enumerated st.deviceCount.toNat r.2}, r.2) := by
  obtain ⟨hroom, hport, haddr⟩ := h
  rw [c.run_eq st, if_neg (UInt8.not_le.mpr hroom), if_neg (ne_false_of_eq_true hport), if_neg haddr]

/- Once the entry is claimed the count has gone up, whatever follows. -/
theorem EnumCall.run_claims_count {c : EnumCall} {st : UsbStack} (h : c.Claims st) :
    (c.run st).1.deviceCount.toNat = st.deviceCount.toNat + 1 ∧
      (c.run st).1.enumerated = Function.update st.enumerated st.deviceCount.toNat (c.run st).2 ∧
      ((c.run st).2 = true ↔ c.StepsSucceed st) := by
  have hkeeps := bail_enumSteps_keeps c.world c.ioBase st.deviceCount.toNat (c.claimed st)
  have hroom : st.deviceCount.toNat < 128 := UInt8.lt_iff_toNat_lt.mp h.1
  rw [EnumCall.run_claims h]
  dsimp only
  refine ⟨?_, ?_, Run.bail_eq_true⟩
  · rw [hkeeps.count]
    show (st.deviceCount + 1).toNat = _
    rw [UInt8.toNat_add, UInt8.toNat_one]
    omega
  · rw [hkeeps.enumerated]
    exact Function.update_idem ..

theorem allOrNothing_iff (c : EnumCall) (st : UsbStack) :
    AllOrNothing c st ↔ ¬ c.Claims st ∨ c.StepsSucceed st := by
  by_cases hclaims : c.Claims st
  · obtain ⟨hcount, henum, hok⟩ := EnumCall.run_claims_count hclaims
    constructor
    · intro h
      refine Or.inr (hok.mp ?_)
      by_contra hfail
      have hsame := h.unchanged (Bool.eq_false_of_not_eq_true hfail)
      rw [hsame.count] at hcount
      omega
    · rintro (hnot | hsteps)
      · exact absurd hclaims hnot
      · have htrue := hok.mpr hsteps
        refine ⟨fun hfail => absurd (htrue.symm.trans hfail) (by decide), ?_⟩
        intro hall i hi
        rw [henum, htrue]
        by_cases hin : i = st.deviceCount.toNat
        · rw [hin, Function.update_self]
        · rw [Function.update_of_ne hin]
          exact hall i (by omega)
  · obtain ⟨-, hsame, henum⟩ := EnumCall.run_not_claims hclaims
    refine ⟨fun _ => Or.inl hclaims, fun _ => ⟨fun _ => hsame, ?_⟩⟩
    intro hall i hi
    rw [hsame.count] at hi
    rw [henum]
    exact hall i hi

/- Calls in turn. -/
def enumStep (st : UsbStack) (c : EnumCall) : Option UsbStack := some (c.run st).1

/- The condition on one call. -/
def EnumCall.Clean (st : UsbStack) (c : EnumCall) : Prop := ¬ c.Claims st ∨ c.StepsSucceed st

/-- Enumeration is all or nothing exactly if the call claims no entry or no
later step fails. In a run of such calls from an empty table, every entry below
`usb_device_count` is one of a device brought up to the end. -/
theorem enumeration_all_or_nothing (st : UsbStack) (calls : List EnumCall) :
    (∀ c st, AllOrNothing c st ↔ ¬ c.Claims st ∨ c.StepsSucceed st) ∧
    (Run.Guarded enumStep EnumCall.Clean {st with deviceCount := 0} calls →
      Run.Throughout enumStep AllEnumerated {st with deviceCount := 0} calls) := by
  refine ⟨allOrNothing_iff, ?_⟩
  intro hclean
  refine Run.throughout_of_invariant ?_ ?_ hclean
  · intro st c hall hc
    exact ⟨_, rfl, ((allOrNothing_iff c st).mpr hc).entries hall⟩
  · intro i hi
    exact absurd hi (Nat.not_lt_zero i)

/- No devices and no keyboards yet, and an empty heap. -/
def emptyStack : UsbStack :=
  ⟨uhciInitializeFrameList fun _ => none, noKeyboards biosConsole,
    fun _ => ⟨0, [], [], [], [], fun _ => []⟩, 0, fun _ => false⟩

/- A transfer whose blocks are taken from `base` on and whose TDs end with `status`. -/
def answersAt (base : Addr) (status : UInt32) : TransferWorld :=
  ⟨base + 0x10, base + 0x20, base + 0x30, base + 0x40, base + 0x50, 0, 1, 0, fun _ => status, status⟩

/- The configuration, interface, HID and endpoint descriptors of a boot keyboard. -/
def keyboardBlob : Bytes :=
  [9, 2, 34, 0, 1, 1, 0, 0xA0, 50, 9, 4, 0, 0, 1, 3, 1, 1, 0, 9, 0x21, 0x11, 1, 0, 1, 0x22, 63, 0,
    7, 5, 0x81, 3, 8, 0, 8]

/- A keyboard that ends SET_ADDRESS with `status` and answers all the rest. -/
def keyboardCall (port : ℕ) (status : UInt32) : EnumCall where
  world := ⟨0, 0, 0x0005, answersAt 0x1000 status, answersAt 0x1100 0, answersAt 0x1200 0,
    answersAt 0x1300 0, answersAt 0x1400 0, 0x90000, [], 0x90100, 34, 0x1500, byteAt keyboardBlob,
    ⟨0x2010, 0x2020, 0x2030, 0⟩⟩
  ioBase := 0xC000
  port := port

/- A keyboard on port 0 is brought up, with its slot and its pipe; then one on port 1
stalls at SET_ADDRESS. -/
theorem enumeration_all_or_nothing_keyboard :
    let st := ((keyboardCall 0 0).run emptyStack).1
    let st' := ((keyboardCall 1 0x400000).run st).1
    st.deviceCount = 1 ∧ st.enumerated 0 = true ∧ initialised (st.keyboards.usb 0) = true ∧
      (st.uhci.pipes 0).inUse = true ∧ ((keyboardCall 1 0x400000).run st).2 = false ∧
      SameTables st st' ∧
      Run.Throughout enumStep AllEnumerated {emptyStack with deviceCount := 0}
        [keyboardCall 0 0, keyboardCall 1 0x400000] := by
  have hclaims : (keyboardCall 0 0).Claims emptyStack :=
    ⟨by decide, by decide, by decide +kernel⟩
  have hup : ((keyboardCall 0 0).run emptyStack).2 = true := by decide +kernel
  have hsteps := (EnumCall.run_claims_count hclaims).2.2.mp hup
  have hrefused : ¬(keyboardCall 1 0x400000).Claims ((keyboardCall 0 0).run emptyStack).1 := by
    rintro ⟨-, -, haddr⟩
    exact haddr (by decide +kernel)
  have hfails : ((keyboardCall 1 0x400000).run ((keyboardCall 0 0).run emptyStack).1).2 = false := by
    decide +kernel
  obtain ⟨hiff, hrun⟩ := enumeration_all_or_nothing emptyStack
    [keyboardCall 0 0, keyboardCall 1 0x400000]
  refine ⟨by decide +kernel, by decide +kernel, by decide +kernel, by decide +kernel, hfails,
    ((hiff _ _).mpr (Or.inl hrefused)).unchanged hfails, hrun ⟨Or.inr hsteps, ?_⟩⟩
  rintro _ ⟨⟩
  exact ⟨Or.inl hrefused, fun _ _ => trivial⟩

/- A call on port 0 in which the device answers the first read with `status`. -/
def firstReadCall (portStatus : UInt16) (status : UInt32) : EnumCall :=
  ⟨⟨0, 0, portStatus, transferAt 0 0, transferAt 0 status, transferAt 0 0, transferAt 0 0,
    transferAt 0 0, 0x90000, [], 0x90100, 34, 0x3010, fun _ => 0, ⟨0x2010, 0x2020, 0x2030, 0⟩⟩, 0xC000,
    0⟩

/- The device stalls when its descriptor is read: its entry stays in the table. -/
theorem stalled_device_keeps_entry :
    ¬ AllOrNothing (firstReadCall 0x0005 0x400000) emptyStack := by
  intro h
  have hsame := (h.unchanged (by decide)).count
  exact absurd hsame (by decide)

end CasseOS.Usb
