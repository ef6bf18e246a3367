import CasseOS.Usb.Uhci

/-! # Control transfers (`drivers/usb/uhci/transfer.c`)

Each of the five helpers takes a setup packet, its TDs and a QH from the heap,
links the QH into one or two entries of the frame list, waits for a TD and, on
the exits that clean up, terminates the entries again and frees the blocks. The
exits differ from helper to helper, so each keeps its own body. -/

namespace CasseOS.Usb

/- What the heap, the registers and the device answer during one control transfer. -/
structure TransferWorld where
  /-- The answers of `aligned_alloc`, by what the block is for. -/
  sp : Addr
  tdSetup : Addr
  tdData : Addr
  tdStatus : Addr
  qh : Addr
  /-- The frame number register, `io_base + 0x06`. -/
  frnum : UInt16
  /-- The command register, `io_base + 0x00`. -/
  usbcmd : UInt16
  /-- The status register, `io_base + 0x02`. -/
  usbsts : UInt16
  /-- `control_status` of the TD waited for, at each test of the loop. -/
  polled : ℕ → UInt32
  /-- `control_status` of the TD that is looked at after the wait. -/
  checked : UInt32

/-! ### Waiting -/

/-- The loop of `uhci_wait_for_transfer_complete` (`transfer.c:43`) with `timeout` left, from
test `k` on: the final value of `timeout` and the last status tested. -/
def waitLoop (polled : ℕ → UInt32) : ℕ → ℕ → ℤ × UInt32
  | 0, k => if polled k &&& 0x800000 ≠ 0 then (-1, polled k) else (0, polled k)
  | timeout + 1, k =>
    if polled k &&& 0x800000 ≠ 0 then waitLoop polled timeout (k + 1)
    else ((timeout : ℤ) + 1, polled k)

/-- `uhci_wait_for_transfer_complete` (`transfer.c:39-53`). -/
def uhciWaitForTransferComplete (polled : ℕ → UInt32) : ℤ :=
  let (timeout, controlStatus) := waitLoop polled 3000 0
  if timeout ≤ 0 then -1
  else if controlStatus &&& bit 22 ≠ 0 then -2
  else if controlStatus &&& bit 21 ≠ 0 then -3
  else if controlStatus &&& bit 20 ≠ 0 then -4
  else if controlStatus &&& bit 19 ≠ 0 then -5
  else if controlStatus &&& bit 18 ≠ 0 then -6
  else if controlStatus &&& bit 17 ≠ 0 then -7
  else 1

/-! ### The blocks of a transfer -/

/- A control request: its setup packet, the tokens of its stages and, where there is a data
stage, the buffer it fills. -/
structure Request where
  packet : SetupPacket
  setupToken : UInt32
  data : Option (UInt32 × Addr)
  statusToken : UInt32

structure Transfer where
  sp : Addr
  tdSetup : Addr
  /-- `NULL` where the request has no data stage. -/
  tdData : Addr
  tdStatus : Addr
  qh : Addr

def terminatedTd (token : UInt32) : Td := ⟨0x00000001, 0x800000, token, 0⟩

/-- The TDs and the QH are linked: setup, data, status (`transfer.c:75-86`, `134-150`). -/
def linkTransfer (req : Request) (t : Transfer) (st : Uhci) : Uhci :=
  match req.data with
  | none =>
    (((st.store t.tdSetup (.td ⟨t.tdStatus ||| 0x04, 0x800000, req.setupToken, t.sp⟩)).store
      t.tdStatus (.td (terminatedTd req.statusToken))).store
      t.qh (.qh ⟨0x00000001, t.tdSetup⟩))
  | some (token, buffer) =>
    ((((st.store t.tdSetup (.td ⟨t.tdData ||| 0x04, 0x800000, req.setupToken, t.sp⟩)).store
      t.tdData (.td ⟨t.tdStatus ||| 0x04, 0x800000, token, buffer⟩)).store
      t.tdStatus (.td (terminatedTd req.statusToken))).store
      t.qh (.qh ⟨0x00000001, t.tdSetup⟩))

/-- The common start of the helpers (`transfer.c:59-86`, `119-150`): without a setup packet
nothing else is requested; otherwise all TDs and the QH are, and if one of them is `NULL` the
transfer is given up as it stands. -/
def allocateTransfer (w : TransferWorld) (req : Request) (st : Uhci) : Option Transfer × Uhci :=
  let (sp, st) := st.alignedAlloc w.sp (.setupPacket req.packet)
  if sp = 0 then (none, st)
  else
    let (tdSetup, st) := st.alignedAlloc w.tdSetup (.td {})
    let (tdData, st) := if req.data.isSome then st.alignedAlloc w.tdData (.td {}) else (0, st)
    let (tdStatus, st) := st.alignedAlloc w.tdStatus (.td {})
    let (qh, st) := st.alignedAlloc w.qh (.qh {})
    if tdSetup = 0 ∨ (req.data.isSome ∧ tdData = 0) ∨ tdStatus = 0 ∨ qh = 0 then (none, st)
    else
      let t : Transfer := ⟨sp, tdSetup, tdData, tdStatus, qh⟩
      (some t, linkTransfer req t st)

def setupToken (addr : UInt8) : UInt32 :=
  (0x2D : UInt32) ||| (addr.toUInt32 <<< 8) ||| ((7 : UInt32) <<< 21)

/- `USB_DESC_TYPE_DEVICE` and `USB_DESC_TYPE_CONFIGURATION`. -/
def usbDescTypeDevice : UInt16 := 0x01
def usbDescTypeConfiguration : UInt16 := 0x02

/- A standard GET_DESCRIPTOR request of `length` bytes into `buffer`. -/
def descriptorRequest (addr : UInt8) (descType length : UInt16) (buffer : Addr) : Request where
  packet := ⟨0x80, 0x06, descType <<< 8, 0, length⟩
  setupToken := setupToken addr
  data := some ((0x69 : UInt32) ||| (addr.toUInt32 <<< 8) ||| bit 19 |||
    ((length.toUInt32 - 1) <<< 21), buffer)
  statusToken := (0xE1 : UInt32) ||| (addr.toUInt32 <<< 8) ||| bit 19

def setAddressRequest (newAddress : UInt8) : Request where
  packet := ⟨0x00, 0x05, newAddress.toUInt16, 0, 0⟩
  setupToken := setupToken 0
  data := none
  statusToken := 0x69

def setConfigurationRequest (addr cfgVal : UInt8) : Request where
  packet := ⟨0x00, 0x09, cfgVal.toUInt16, 0, 0⟩
  setupToken := setupToken addr
  data := none
  statusToken := (0x69 : UInt32) ||| (addr.toUInt32 <<< 8) ||| bit 19

/-! ### The helpers -/

/- The entries of the next two frames. -/
def nextTwoSlots (frnum : UInt16) : List Slot :=
  let fr := (frnum &&& 0x7FF).toNat + 1
  [slotOf fr, slotOf (fr + 1)]

/- The entry of the current frame. -/
def currentSlot (frnum : UInt16) : List Slot := [slotOf (frnum &&& 0x7FF).toNat]

/-- `uhci_set_device_address` (`transfer.c:57-115`); `port` is not looked at. -/
def uhciSetDeviceAddress (w : TransferWorld) (ioBase : UInt16) (newAddress : UInt8) (st : Uhci) :
    Uhci × ℤ :=
  match allocateTransfer w (setAddressRequest newAddress) st with
  | (none, st) => (st, 0)
  | (some t, st) =>
    let slots := nextTwoSlots w.frnum
    let st := st.setFrames slots (qhWord t.qh)
    if w.usbcmd &&& 0x01 = 0 then (st, 0)
    else if uhciWaitForTransferComplete w.polled ≠ 1 then (st, 0)
    else
      let st := if w.usbsts &&& 0x02 ≠ 0 then st.portWordOut (ioBase + 0x02) 0x02 else st
      if w.checked &&& 0x400000 ≠ 0 then
        ((st.setFrames slots terminate).freeAll [t.tdSetup, t.tdStatus, t.qh, t.sp], 0)
      else
        ((st.setFrames slots terminate).freeAll [t.tdSetup, t.tdStatus, t.qh, t.sp], 1)

/-- `uhci_get_device_descriptor` (`transfer.c:117-172`); the descriptor has 18 bytes. -/
def uhciGetDeviceDescriptor (w : TransferWorld) (addr : UInt8) (devDesc : Addr) (st : Uhci) :
    Uhci × ℤ :=
  match allocateTransfer w (descriptorRequest addr usbDescTypeDevice 18 devDesc) st with
  | (none, st) => (st, 0)
  | (some t, st) =>
    let slots := nextTwoSlots w.frnum
    let st := st.setFrames slots (qhWord t.qh)
    if uhciWaitForTransferComplete w.polled ≠ 1 then (st, 0)
    else if w.checked &&& 0x400000 ≠ 0 then
      ((st.setFrames slots terminate).freeAll [t.tdSetup, t.tdData, t.tdStatus, t.qh], 0)
    else
      ((st.setFrames slots terminate).freeAll [t.tdSetup, t.tdData, t.tdStatus, t.qh], 1)

/-- `uhci_get_configuration_descriptor` (`transfer.c:174-223`); the descriptor has 9 bytes. The
failure exit frees the QH and leaves the entry as it is. -/
def uhciGetConfigurationDescriptor (w : TransferWorld) (addr : UInt8) (cfg : Addr) (st : Uhci) :
    Uhci × ℤ :=
  match allocateTransfer w (descriptorRequest addr usbDescTypeConfiguration 9 cfg) st with
  | (none, st) => (st, 0)
  | (some t, st) =>
    let slots := currentSlot w.frnum
    let st := st.setFrames slots (qhWord t.qh)
    if uhciWaitForTransferComplete w.polled ≠ 1 then
      (st.freeAll [t.tdSetup, t.tdData, t.tdStatus, t.qh], 0)
    else
      ((st.setFrames slots terminate).freeAll [t.tdSetup, t.tdData, t.tdStatus, t.qh], 1)

/-- `uhci_get_full_configuration_descriptor` (`transfer.c:225-274`). -/
def uhciGetFullConfigurationDescriptor (w : TransferWorld) (addr : UInt8) (buf : Addr)
    (totalLen : UInt16) (st : Uhci) : Uhci × ℤ :=
  match allocateTransfer w (descriptorRequest addr usbDescTypeConfiguration totalLen buf) st with
  | (none, st) => (st, 0)
  | (some t, st) =>
    let slots := currentSlot w.frnum
    let st := st.setFrames slots (qhWord t.qh)
    if uhciWaitForTransferComplete w.polled ≠ 1 then
      (st.freeAll [t.tdSetup, t.tdData, t.tdStatus, t.qh, t.sp], 0)
    else
      ((st.setFrames slots terminate).freeAll [t.tdSetup, t.tdData, t.tdStatus, t.qh, t.sp], 1)

/-- `uhci_set_configuration` (`transfer.c:276-325`). -/
def uhciSetConfiguration (w : TransferWorld) (addr cfgVal : UInt8) (st : Uhci) : Uhci × ℤ :=
  match allocateTransfer w (setConfigurationRequest addr cfgVal) st with
  | (none, st) => (st, 0)
  | (some t, st) =>
    let slots := nextTwoSlots w.frnum
    let st := st.setFrames slots (qhWord t.qh)
    if uhciWaitForTransferComplete w.polled ≠ 1 then (st, 0)
    else if w.checked &&& bit 22 ≠ 0 then
      ((st.setFrames slots terminate).freeAll [t.tdSetup, t.tdStatus, t.qh], 0)
    else
      ((st.setFrames slots terminate).freeAll [t.tdSetup, t.tdStatus, t.qh], 1)

end CasseOS.Usb
