import Mathlib.Data.UInt
import Mathlib.Logic.Function.Basic

/-! # The UHCI driver's memory (`drivers/usb/uhci/uhci.h`)

The host controller walks `frame_list`, one entry a frame; an entry is the
terminate value or the address of a queue head (QH) with the QH bit set. The
driver takes setup packets, transfer descriptors (TD), queue heads and report
buffers from the heap. The kernel image starts at `0x80000` and the heap is part
of it, so addresses are 32-bit words and `get_physical_address` is the identity. -/

namespace CasseOS.Usb

abbrev Addr := UInt32

/- `1u << n`. -/
def bit (n : UInt32) : UInt32 := 1 <<< n

/- `uhci_td_t`. -/
structure Td where
  linkPointer : UInt32 := 0
  controlStatus : UInt32 := 0
  token : UInt32 := 0
  bufferPointer : UInt32 := 0
deriving DecidableEq

/- `uhci_qh_t`. -/
structure Qh where
  horizontalLinkPointer : UInt32 := 0
  verticalLinkPointer : UInt32 := 0
deriving DecidableEq

/- `usb_setup_packet_t`. -/
structure SetupPacket where
  bmRequestType : UInt8
  bRequest : UInt8
  wValue : UInt16
  wIndex : UInt16
  wLength : UInt16
deriving DecidableEq

/- What a block of the heap was taken for. -/
inductive Object where
  | setupPacket (p : SetupPacket)
  | td (td : Td)
  | qh (qh : Qh)
  | buffer (bytes : List UInt8)
deriving DecidableEq

/- The index of an entry of `frame_list`. -/
abbrev Slot := Fin 1024

/- `frame_list[fr % 1024]`. -/
def slotOf (fr : ℕ) : Slot := Fin.ofNat 1024 fr

/- `uhci_kbd_pipe_t`; all fields 0 is a pipe that is not in use. -/
structure KbdPipe where
  inUse : Bool := false
  ioBase : UInt16 := 0
  devAddr : UInt8 := 0
  ep : UInt8 := 0
  interval : UInt8 := 0
  devIndex : UInt8 := 0
  toggle : UInt8 := 0
  firstSlot : Slot := slotOf 0
  buf : Addr := 0
  td : Addr := 0
  qh : Addr := 0
deriving DecidableEq

/- `UHCI_MAX_KBD_PIPES`. -/
abbrev uhciMaxKbdPipes : ℕ := 4

structure Uhci where
  frameList : Slot → UInt32
  /-- The live blocks: allocated and not freed. -/
  heap : Addr → Option Object
  /-- The pointers passed to `aligned_free`, in order. -/
  frees : List Addr
  /-- The words written to ports, in order. -/
  portsOut : List (UInt16 × UInt16)
  /-- `g_kbd_pipes`. -/
  pipes : Fin uhciMaxKbdPipes → KbdPipe

/-! ### The heap

`aligned_alloc(16, size)` answers `NULL` or a block that is not in use; which of
the two, and which block, is up to the heap, so each request carries the answer
it gets. An answer the heap cannot give counts as `NULL`. -/

/- The heap can hand out a block at `a`. -/
def Uhci.CanGive (st : Uhci) (a : Addr) : Prop := a ≠ 0 ∧ a % 16 = 0 ∧ st.heap a = none

instance (st : Uhci) (a : Addr) : Decidable (st.CanGive a) :=
  inferInstanceAs (Decidable (a ≠ 0 ∧ a % 16 = 0 ∧ st.heap a = none))

def Uhci.store (st : Uhci) (a : Addr) (o : Object) : Uhci :=
  {st with heap := Function.update st.heap a (some o)}

def Uhci.alignedAlloc (st : Uhci) (answer : Addr) (o : Object) : Addr × Uhci :=
  if st.CanGive answer then (answer, st.store answer o) else (0, st)

def Uhci.alignedFree (st : Uhci) (a : Addr) : Uhci :=
  if a = 0 then st
  else {st with heap := Function.update st.heap a none, frees := st.frees ++ [a]}

def Uhci.freeAll (st : Uhci) (l : List Addr) : Uhci := l.foldl Uhci.alignedFree st

/-! ### Registers and the frame list -/

def Uhci.portWordOut (st : Uhci) (port value : UInt16) : Uhci :=
  {st with portsOut := st.portsOut ++ [(port, value)]}

/- The terminate bit. -/
def terminate : UInt32 := 0x00000001

/- `get_physical_address(qh) | 0x00000002`. -/
def qhWord (qh : Addr) : UInt32 := qh ||| 0x00000002

def Uhci.setFrames (st : Uhci) (slots : List Slot) (word : UInt32) : Uhci :=
  {st with frameList := slots.foldl (fun fl f => Function.update fl f word) st.frameList}

/-- The state after `uhci_initialize_frame_list` (`controller.c:37-41`), before any pipe is
opened. Other parts of the kernel may own blocks already. -/
def uhciInitializeFrameList (heap : Addr → Option Object) : Uhci :=
  ⟨fun _ => terminate, heap, [], [], fun _ => {}⟩

end CasseOS.Usb
