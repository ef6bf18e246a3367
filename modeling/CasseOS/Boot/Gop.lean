import CasseOS.Boot.Uefi

/-! # The graphics output of the loader (`bootloader/uefi/gop.c`, `main.c`)

`locate_gop` asks for the protocol, and if that gives none, the handles that are said
to have it; then it asks the protocol for its mode. `efi_main` tells the kernel of a
framebuffer if it returns no error. -/

namespace CasseOS.Boot

/- `EFI_GRAPHICS_OUTPUT_MODE_INFORMATION`, as far as it is read. -/
structure ModeInformation where
  horizontalResolution : UInt32
  verticalResolution : UInt32
  pixelsPerScanLine : UInt32

/- `EFI_GRAPHICS_OUTPUT_PROTOCOL_MODE`. -/
structure GopMode where
  mode : UInt32
  frameBufferBase : UInt64
  frameBufferSize : UInt64

/- The answer to a request for an interface: its status, and the pointer that is
written, if one is. -/
structure InterfaceAnswer where
  status : Status
  interface : Option UInt64

structure QueryAnswer where
  status : Status
  info : ModeInformation

structure GopFirmware where
  locateProtocol : InterfaceAnswer
  locateHandleBuffer : Status
  /-- What `HandleProtocol` answers for each of the handles. -/
  handles : List InterfaceAnswer
  /-- The `Mode` of the protocol at each address. -/
  mode : UInt64 → GopMode
  queryMode : UInt64 → UInt32 → QueryAnswer

/- `gop_info_t`. -/
structure GopInfo where
  gop : UInt64
  width : UInt32
  height : UInt32
  pixelsPerScanline : UInt32
  framebufferBase : UInt64
  framebufferSize : UInt64

/- What `gop` is after the answer. -/
def InterfaceAnswer.written (gop : UInt64) (answer : InterfaceAnswer) : UInt64 :=
  answer.interface.getD gop

/-- The loop over the handles (`gop.c:17-23`) on `status` and `gop`. -/
def handleLoop : List InterfaceAnswer → Status → UInt64 → Status × UInt64
  | [], status, gop => (status, gop)
  | answer :: answers, status, gop =>
    let gop := answer.written gop
    if efiError answer.status = false ∧ gop ≠ 0 then (efiSuccess, gop)
    else handleLoop answers status gop

/- The mode of the protocol, as it is stored in `*out_info`. -/
def GopFirmware.info (fw : GopFirmware) (gop : UInt64) : GopInfo :=
  let info := (fw.queryMode gop (fw.mode gop).mode).info
  ⟨gop, info.horizontalResolution, info.verticalResolution, info.pixelsPerScanLine,
    (fw.mode gop).frameBufferBase, (fw.mode gop).frameBufferSize⟩

/-- The end of `locate_gop` (`gop.c:30-45`). -/
def queryGop (fw : GopFirmware) (gop : UInt64) : Status × Option GopInfo :=
  let answer := fw.queryMode gop (fw.mode gop).mode
  if efiError answer.status then (answer.status, none) else (efiSuccess, some (fw.info gop))

/-- `locate_gop` (`gop.c:4-46`): its status, and what it stores in `*out_info`, if
it stores anything. -/
def locateGop (fw : GopFirmware) (outInfo : UInt64) : Status × Option GopInfo :=
  if outInfo = 0 then (efiInvalidParameter, none)
  else
    let gop := fw.locateProtocol.written 0
    if efiError fw.locateProtocol.status ∨ gop = 0 then
      if efiError fw.locateHandleBuffer then (fw.locateHandleBuffer, none)
      else
        let (status, gop) := handleLoop fw.handles fw.locateHandleBuffer gop
        if efiError status ∨ gop = 0 then (status, none) else queryGop fw gop
    else queryGop fw gop

/- `kernel_bootinfo_t`, as far as `efi_main` writes it. -/
structure KernelBootinfo where
  flags : UInt64
  fbBase : UInt64
  fbSize : UInt64
  fbWidth : UInt32
  fbHeight : UInt32
  fbStride : UInt32
  fbBpp : UInt32
deriving DecidableEq

def flagUefi : UInt64 := 0x1
def flagFramebuffer : UInt64 := 0x2

/- `gop_info_t gop_info = {0};` -/
def noGopInfo : GopInfo := ⟨0, 0, 0, 0, 0, 0⟩

/-- What `efi_main` tells the kernel (`main.c:269-285`), from what `locate_gop` left. -/
def writeBootinfo (located : Status × Option GopInfo) (bootInfo : KernelBootinfo) :
    KernelBootinfo :=
  let gopInfo := located.2.getD noGopInfo
  let flags := bootInfo.flags ||| flagUefi
  if efiError located.1 then ⟨flags, 0, 0, 0, 0, 0, 0⟩
  else ⟨flags ||| flagFramebuffer, gopInfo.framebufferBase, gopInfo.framebufferSize,
    gopInfo.width, gopInfo.height, gopInfo.pixelsPerScanline, 32⟩

/-! ### A usable result -/

/- Without an error `*out_info` is the mode of a protocol that is not NULL, with one
nothing is stored; so the kernel is told of a framebuffer only if there is one. -/
structure Usable (fw : GopFirmware) (located : Status × Option GopInfo) : Prop where
  filled : efiError located.1 = false → ∃ gop ≠ 0, located.2 = some (fw.info gop)
  unchanged : efiError located.1 = true → located.2 = none
  told : ∀ bootInfo, bootInfo.flags &&& flagFramebuffer = 0 →
    (writeBootinfo located bootInfo).flags &&& flagFramebuffer ≠ 0 →
      ∃ gop ≠ 0, writeBootinfo located bootInfo =
        ⟨bootInfo.flags ||| flagUefi ||| flagFramebuffer, (fw.info gop).framebufferBase,
          (fw.info gop).framebufferSize, (fw.info gop).width, (fw.info gop).height,
          (fw.info gop).pixelsPerScanline, 32⟩

/- What `gop` is after all these answers. -/
def lastWritten (gop : UInt64) (answers : List InterfaceAnswer) : UInt64 :=
  answers.foldl InterfaceAnswer.written gop

/- The protocol is not to be had: not by itself, nor from any of the handles, though
the handles can be listed; and no pointer is left over from a request that failed. -/
structure GopFirmware.EmptyHanded (fw : GopFirmware) : Prop where
  protocol : efiError fw.locateProtocol.status = true ∨ fw.locateProtocol.written 0 = 0
  listed : efiError fw.locateHandleBuffer = false
  handles : ∀ n, ∀ answer ∈ fw.handles[n]?, efiError answer.status = false →
    lastWritten (fw.locateProtocol.written 0) (fw.handles.take (n + 1)) = 0
  left : lastWritten (fw.locateProtocol.written 0) fw.handles = 0

theorem flags_uefi (flags : UInt64) (h : flags &&& flagFramebuffer = 0) :
    (flags ||| flagUefi) &&& flagFramebuffer = 0 := by
  have huefi : flagUefi &&& flagFramebuffer = 0 := by decide
  apply UInt64.toBitVec_inj.mp
  rw [UInt64.toBitVec_and, UInt64.toBitVec_or, BitVec.and_or_distrib_right,
    ← UInt64.toBitVec_and, ← UInt64.toBitVec_and, h, huefi]
  rfl

theorem Usable.of_error {fw : GopFirmware} {status : Status} (h : efiError status = true) :
    Usable fw (status, none) := by
  refine ⟨fun hok => absurd h (ne_true_of_eq_false hok), fun _ => rfl, fun bootInfo hflags htold => ?_⟩
  rw [writeBootinfo, if_pos h] at htold
  exact absurd (flags_uefi _ hflags) htold

theorem Usable.query (fw : GopFirmware) {gop : UInt64} (hgop : gop ≠ 0) :
    Usable fw (queryGop fw gop) := by
  have hsuccess : ¬efiError efiSuccess = true := by decide
  rw [queryGop]
  split
  · next herror => exact .of_error herror
  · refine ⟨fun _ => ⟨gop, hgop, rfl⟩, fun herror => absurd herror hsuccess,
      fun bootInfo _ _ => ⟨gop, hgop, ?_⟩⟩
    rw [writeBootinfo, if_neg hsuccess]
    rfl

theorem not_usable {fw : GopFirmware} {status : Status} (h : efiError status = false) :
    ¬ Usable fw (status, none) := by
  intro husable
  obtain ⟨gop, -, hstored⟩ := husable.filled h
  cases hstored

/-! ### The handles -/

/- The loop ends with a protocol that is not NULL, or asks all the handles. -/
inductive Asked (answers : List InterfaceAnswer) (status : Status) (gop : UInt64) :
    Status × UInt64 → Prop where
  | found (n : ℕ) (answer : InterfaceAnswer) (at_n : answer ∈ answers[n]?)
      (ok : efiError answer.status = false) (pointer : lastWritten gop (answers.take (n + 1)) ≠ 0) :
      Asked answers status gop (efiSuccess, lastWritten gop (answers.take (n + 1)))
  | all (none : ∀ n, ∀ answer ∈ answers[n]?, efiError answer.status = false →
      lastWritten gop (answers.take (n + 1)) = 0) :
      Asked answers status gop (status, lastWritten gop answers)

theorem handleLoop_asked (answers : List InterfaceAnswer) (status : Status) (gop : UInt64) :
    Asked answers status gop (handleLoop answers status gop) := by
  induction answers generalizing gop with
  | nil => exact .all fun n answer h => by simp at h
  | cons answer answers ih =>
    rw [handleLoop]
    split
    · next hfound => exact .found 0 answer rfl hfound.1 hfound.2
    · next hnext =>
      have hlater := ih (answer.written gop)
      generalize handleLoop answers status (answer.written gop) = r at hlater ⊢
      cases hlater with
      | found n later at_n ok pointer => exact .found (n + 1) later at_n ok pointer
      | all none =>
        refine .all fun n later hn hok => ?_
        cases n with
        | zero =>
          cases hn
          exact not_not.mp fun hz => hnext ⟨hok, hz⟩
        | succ n => exact none n later hn hok

/-- `locate_gop` gives a usable result unless it comes away with empty hands: then it
returns the status of `LocateHandleBuffer`, and the kernel is told of a framebuffer. -/
theorem locate_gop_usable (fw : GopFirmware) (outInfo : UInt64) :
    Usable fw (locateGop fw outInfo) ↔ outInfo = 0 ∨ ¬ fw.EmptyHanded := by
  rw [locateGop]
  by_cases hnull : outInfo = 0
  · rw [if_pos hnull]
    exact ⟨fun _ => .inl hnull, fun _ => .of_error (by decide)⟩
  rw [if_neg hnull, or_iff_right hnull]
  dsimp only
  by_cases hprotocol : efiError fw.locateProtocol.status = true ∨ fw.locateProtocol.written 0 = 0
  · rw [if_pos hprotocol]
    by_cases hlisted : efiError fw.locateHandleBuffer = true
    · rw [if_pos hlisted]
      exact ⟨fun _ hempty => absurd hlisted (ne_true_of_eq_false hempty.listed),
        fun _ => .of_error hlisted⟩
    rw [if_neg hlisted]
    have hasked := handleLoop_asked fw.handles fw.locateHandleBuffer (fw.locateProtocol.written 0)
    generalize handleLoop fw.handles fw.locateHandleBuffer (fw.locateProtocol.written 0) = r at *
    cases hasked with
    | found n answer at_n ok pointer =>
      have hgood : ¬(efiError efiSuccess = true ∨
          lastWritten (fw.locateProtocol.written 0) (fw.handles.take (n + 1)) = 0) := by
        simp [pointer, show efiError efiSuccess = false by decide]
      rw [if_neg hgood]
      exact ⟨fun _ hempty => pointer (hempty.handles n answer at_n ok), fun _ => .query fw pointer⟩
    | all none =>
      by_cases hleft : lastWritten (fw.locateProtocol.written 0) fw.handles = 0
      · -- the error that is returned is none
        rw [if_pos (.inr hleft)]
        have hempty : fw.EmptyHanded :=
          ⟨hprotocol, eq_false_of_ne_true hlisted, none, hleft⟩
        exact ⟨fun husable => absurd husable (not_usable hempty.listed),
          fun hn => absurd hempty hn⟩
      · rw [if_neg (not_or.mpr ⟨hlisted, hleft⟩)]
        exact ⟨fun _ hempty => hleft hempty.left, fun _ => .query fw hleft⟩
  · rw [if_neg hprotocol]
    exact ⟨fun _ hempty => hprotocol hempty.protocol,
      fun _ => .query fw (not_or.mp hprotocol).2⟩

/- A protocol that is installed on one handle with no interface. -/
def nullGop : GopFirmware :=
  ⟨⟨efiSuccess, some 0⟩, efiSuccess, [⟨efiSuccess, some 0⟩], fun _ => ⟨0, 0, 0⟩,
    fun _ _ => ⟨efiSuccess, ⟨0, 0, 0⟩⟩⟩

/- The kernel is told of a framebuffer of no size at address 0. -/
theorem null_gop_told : ¬ Usable nullGop (locateGop nullGop 0x1000) ∧
    writeBootinfo (locateGop nullGop 0x1000) ⟨0, 0, 0, 0, 0, 0, 0⟩ =
      ⟨flagUefi ||| flagFramebuffer, 0, 0, 0, 0, 0, 32⟩ :=
  ⟨not_usable (show efiError efiSuccess = false by decide), by decide⟩

end CasseOS.Boot
