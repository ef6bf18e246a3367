import CasseOS.Boot.EfiMain
import CasseOS.Lib.Bits
import CasseOS.Screen.FbBounds

/-! # From the loader to the kernel (`kernel/kernel_entry.asm`, `kernel/kernel.c`)

`kernel_uefi_entry` copies the boot info the loader points it to into a variable of
the kernel, before `kernel_main` lets the framebuffer console read it there. What
the loader was told about the screen is what the console comes up with. -/

namespace CasseOS.Boot
open Bits Bytes Screen

/- Addresses in the linked kernel. -/
structure KernelSymbols where
  /-- The variable `kernel_bootinfo`, in `.bss`. -/
  kernelBootinfo : UInt64
  reloadCsDone : UInt64
  hang : UInt64

def codeSeg64 : ℕ := 8

/-- `kernel_uefi_entry` up to the first instruction of `kernel_main`
(`kernel_entry.asm:18-40`), on the memory: the far return takes off the stack what
was pushed for it. -/
def kernelUefiEntry (k : KernelSymbols) (stackTop bootInfo : UInt64) (mem : Memory) : Memory :=
  let mem := Bytes.store 8 mem (stackTop.toNat - 8) codeSeg64
  let mem := Bytes.store 8 mem (stackTop.toNat - 16) k.reloadCsDone.toNat
  let mem := copyEach 8 (kernelBootinfoSize.toNat / 8) mem k.kernelBootinfo.toNat bootInfo.toNat
  Bytes.store 8 mem (stackTop.toNat - 8) k.hang.toNat

/- `kernel_bootinfo_t` as the console reads it (`bootinfo.h:8-18`). -/
def consoleBootinfoAt (mem : Memory) (a : ℕ) : Screen.KernelBootinfo where
  flags := UInt64.ofNat (load 8 mem (a + 16))
  fbBase := UInt64.ofNat (load 8 mem (a + 24))
  fbWidth := UInt32.ofNat (load 4 mem (a + 40))
  fbHeight := UInt32.ofNat (load 4 mem (a + 44))
  fbStride := UInt32.ofNat (load 4 mem (a + 48))
  fbBpp := UInt32.ofNat (load 4 mem (a + 52))

/-- The choice of the screen in `kernel_main` (`kernel.c:22-25`). -/
def chooseScreen (c : Console) (b : Screen.KernelBootinfo) (pixels : Pixels) : Console :=
  let (fbReady, c) := framebufferConsoleInit c (some b) pixels
  if fbReady then c else {c with available := true}

/-! ### The copy -/

/- Where the loader and the linker have put things: the stack is on pages of its
own, and `.bss` follows the file. The loader asks for no pages for `.bss`; that the
stack is not there is a matter of the firmware. -/
structure Layout (w : EfiWorld) (v : KernelVolume) (k : KernelSymbols) : Prop where
  stack : w.stack.2.toNat + kernelStackSize < 2 ^ 64
  stackApart : w.stack.2.toNat + kernelStackSize ≤ kernelLoadAddress ∨
    kernelLoadAddress + v.file.content.length ≤ w.stack.2.toNat
  bss : kernelLoadAddress + v.file.content.length ≤ k.kernelBootinfo.toNat
  bssApart : w.stack.2.toNat + kernelStackSize ≤ k.kernelBootinfo.toNat ∨
    k.kernelBootinfo.toNat + 56 ≤ w.stack.2.toNat

section Copy
variable {k : KernelSymbols} {stackTop bootInfo : UInt64} {mem : Memory}

theorem kernelUefiEntry_other (hstack : 16 ≤ stackTop.toNat) {a : ℕ}
    (ha : a + 16 < stackTop.toNat ∨ stackTop.toNat ≤ a)
    (hk : a < k.kernelBootinfo.toNat ∨ k.kernelBootinfo.toNat + 56 ≤ a) :
    kernelUefiEntry k stackTop bootInfo mem a = mem a := by
  have hsize : 8 * (kernelBootinfoSize.toNat / 8) = 56 := by decide
  unfold kernelUefiEntry
  rw [store_other (by omega), copyEach_other (by omega), store_other (by omega),
    store_other (by omega)]

/- The block arrives as it was, when nothing of it is on the stack. -/
theorem kernelUefiEntry_copies (hstack : 16 ≤ stackTop.toNat)
    (hup : bootInfo.toNat + 56 ≤ k.kernelBootinfo.toNat)
    (hfrom : bootInfo.toNat + 56 + 16 ≤ stackTop.toNat ∨ stackTop.toNat ≤ bootInfo.toNat)
    (hto : k.kernelBootinfo.toNat + 56 + 16 ≤ stackTop.toNat ∨
      stackTop.toNat ≤ k.kernelBootinfo.toNat) {i : ℕ} (hi : i < 56) :
    kernelUefiEntry k stackTop bootInfo mem (k.kernelBootinfo.toNat + i) =
      mem (bootInfo.toNat + i) := by
  have hsize : 8 * (kernelBootinfoSize.toNat / 8) = 56 := by decide
  unfold kernelUefiEntry
  rw [store_other (by omega), copyEach_copies (by omega) (by omega), store_other (by omega),
    store_other (by omega)]

end Copy

theorem bootinfoAt_congr {mem mem' : Memory} {a b : ℕ} (h : ∀ i < 56, mem' (b + i) = mem (a + i)) :
    bootinfoAt mem' b = bootinfoAt mem a := by
  have hload : ∀ n off, off + n ≤ 56 → load n mem' (b + off) = load n mem (a + off) := by
    intro n off hoff
    refine load_congr fun i hi => ?_
    rw [Nat.add_assoc, Nat.add_assoc]
    exact h (off + i) (by omega)
  unfold bootinfoAt
  simp (disch := omega) only [hload]

/-! ### The screen -/

/- `locate_gop` has given a framebuffer with an address and a size. -/
def shows (located : Status × Option GopInfo) : Bool :=
  let info := located.2.getD noGopInfo
  efiError located.1 = false ∧ info.framebufferBase ≠ 0 ∧ info.width ≠ 0 ∧ info.height ≠ 0 ∧
    info.pixelsPerScanline ≠ 0

def GopInfo.framebuffer (info : GopInfo) : FramebufferConsole :=
  ⟨info.width.toNat, info.height.toNat, info.pixelsPerScanline.toNat, 32, framebufferFontWidth,
    framebufferFontHeight⟩

def KernelBootinfo.console (b : KernelBootinfo) : Screen.KernelBootinfo :=
  ⟨b.flags, b.fbBase, b.fbWidth, b.fbHeight, b.fbStride, b.fbBpp⟩

theorem console_bootinfoAt (mem : Memory) (a : ℕ) :
    (bootinfoAt mem a).console = consoleBootinfoAt mem a := rfl

/- The screen the kernel comes up with. -/
structure ScreenOf (located : Status × Option GopInfo) (c : Console) : Prop where
  ready : c.fb.ready = shows located
  text : c.available = !shows located
  dev : shows located = true → c.fb.dev = (located.2.getD noGopInfo).framebuffer

theorem ScreenOf.hidden {located : Status × Option GopInfo} {c : Console} (h : shows located = false)
    (hready : c.fb.ready = false) (htext : c.available = true) : ScreenOf located c :=
  ⟨hready.trans h.symm, by rw [htext, h]; rfl, fun h' => absurd h' (ne_true_of_eq_false h)⟩

theorem chooseScreen_told (located : Status × Option GopInfo) (old : KernelBootinfo) (c : Console)
    (pixels : Pixels) :
    ScreenOf located (chooseScreen c (writeBootinfo located old).console pixels) := by
  unfold writeBootinfo chooseScreen framebufferConsoleInit
  by_cases herror : efiError located.1 = true
  · -- no address, whatever the flags are
    have hno : shows located = false := by simp [shows, herror]
    simp only [KernelBootinfo.console, herror, if_true, true_or, ite_self]
    exact .hidden hno rfl rfl
  · have hflag : (old.flags ||| flagUefi ||| flagFramebuffer) &&& kernelBootinfoFlagFramebuffer ≠ 0 := by
      rw [show kernelBootinfoFlagFramebuffer = flagFramebuffer from rfl, or_and_bit64]
      decide
    generalize hinfo : located.2.getD noGopInfo = info
    simp only [KernelBootinfo.console, if_neg herror, if_neg hflag]
    by_cases hnone : info.framebufferBase = 0 ∨ info.width = 0 ∨ info.height = 0 ∨
        info.pixelsPerScanline = 0
    · have hno : shows located = false := by
        rw [shows, hinfo, decide_eq_false_iff_not]
        tauto
      simp only [if_pos hnone]
      exact .hidden hno rfl rfl
    · have hyes : shows located = true := by
        rw [shows, hinfo, decide_eq_true_iff]
        have hok := eq_false_of_ne_true herror
        tauto
      simp only [if_neg hnone]
      exact ⟨hyes.symm, by rw [hyes]; rfl, fun _ => by rw [hinfo]; rfl⟩

/-! ### From one to the other -/

/- The members as the file has them. -/
def KernelFile.bootinfo (f : KernelFile) (o : ℕ) : KernelBootinfo :=
  bootinfoAt (fun i => f.content.getD i 0) o

def KernelFile.uefiEntry (f : KernelFile) (o : ℕ) : UInt64 :=
  uefiEntryAt (fun i => f.content.getD i 0) o

/- What `kernel_main` finds, when the loader has entered the kernel. -/
structure HandedOver (w : EfiWorld) (v : KernelVolume) (o : ℕ) (k : KernelSymbols) (mem : Memory) :
    Prop where
  /-- The kernel is in memory as it is in the file, but for what the loader fills in. -/
  image : ∀ i < v.file.content.length, i < o + 16 ∨ o + 56 ≤ i →
    mem (kernelLoadAddress + i) = v.file.content.getD i 0
  /-- The stack is clear below the two words the entry has used. -/
  stack : ∀ a, w.stack.2.toNat ≤ a → a + 16 < w.stack.2.toNat + kernelStackSize → mem a = 0
  bootinfo : bootinfoAt mem k.kernelBootinfo.toNat =
    writeBootinfo (locateGop w.gop w.gopInfo) (v.file.bootinfo o)
  screen : ∀ c pixels, ScreenOf (locateGop w.gop w.gopInfo)
    (chooseScreen c (consoleBootinfoAt mem k.kernelBootinfo.toNat) pixels)

variable {w : EfiWorld} {v : KernelVolume} {o : ℕ} {k : KernelSymbols} {mem : Memory}

/- The memory the kernel is entered with. -/
theorem prepared_image (hmem : v.file.LoadedIn mem) (hl : Layout w v k) {i : ℕ}
    (hi : i < v.file.content.length) (ho : i < o + 16 ∨ o + 56 ≤ i) :
    w.prepared mem o (kernelLoadAddress + i) = v.file.content.getD i 0 := by
  have hapart := hl.stackApart
  rw [EfiWorld.prepared, fill_other (by omega), storeBootinfo_other _ _ _ (by omega), hmem i hi]

theorem prepared_bootinfo (hmem : v.file.LoadedIn mem) (hl : Layout w v k)
    (ho : o + 56 ≤ v.file.content.length) : bootinfoAt (w.prepared mem o) (kernelLoadAddress + o) =
      writeBootinfo (locateGop w.gop w.gopInfo) (v.file.bootinfo o) := by
  have hapart := hl.stackApart
  have hfile : bootinfoAt mem (kernelLoadAddress + o) = v.file.bootinfo o := by
    refine bootinfoAt_congr fun i hi => ?_
    rw [Nat.add_assoc]
    exact hmem (o + i) (by omega)
  have hfill : bootinfoAt (w.prepared mem o) (kernelLoadAddress + o) = bootinfoAt (storeBootinfo mem
      (kernelLoadAddress + o) (writeBootinfo (locateGop w.gop w.gopInfo)
        (bootinfoAt mem (kernelLoadAddress + o)))) (kernelLoadAddress + o) :=
    bootinfoAt_congr fun i hi => fill_other (by omega)
  rw [hfill, bootinfoAt_storeBootinfo, hfile]

theorem uefiEntryAt_congr {mem mem' : Memory} {a b : ℕ} (h : ∀ i < 16, mem' (b + i) = mem (a + i)) :
    uefiEntryAt mem' b = uefiEntryAt mem a := by
  have hload : load 8 mem' (b + 8) = load 8 mem (a + 8) := by
    refine load_congr fun i hi => ?_
    rw [Nat.add_assoc, Nat.add_assoc]
    exact h (8 + i) (by omega)
  rw [uefiEntryAt, uefiEntryAt, hload]

/- The entry of the kernel, on the memory the loader has prepared. -/
theorem handedOver (hmem : v.file.LoadedIn mem) (hl : Layout w v k)
    (hfits : o + 56 ≤ v.file.content.length) {stackTop bootInfo : UInt64}
    (htop : stackTop.toNat = w.stack.2.toNat + kernelStackSize)
    (hinfo : bootInfo.toNat = kernelLoadAddress + o) :
    HandedOver w v o k (kernelUefiEntry k stackTop bootInfo (w.prepared mem o)) := by
  have happart := hl.stackApart
  have hbss := hl.bss
  have hbssApart := hl.bssApart
  have hstackSize : kernelStackSize = 65536 := rfl
  have hcopied : bootinfoAt (kernelUefiEntry k stackTop bootInfo (w.prepared mem o))
      k.kernelBootinfo.toNat = writeBootinfo (locateGop w.gop w.gopInfo) (v.file.bootinfo o) := by
    rw [← prepared_bootinfo hmem hl hfits, ← hinfo]
    refine bootinfoAt_congr fun i hi => ?_
    exact kernelUefiEntry_copies (by omega) (by omega) (by omega) (by omega) hi
  refine ⟨fun i hi ho => ?_, fun a ha hlt => ?_, hcopied, fun c pixels => ?_⟩
  · rw [kernelUefiEntry_other (by omega) (by omega) (by omega)]
    exact prepared_image hmem hl hi ho
  · rw [kernelUefiEntry_other (by omega) (by omega) (by omega), EfiWorld.prepared, fill]
    exact if_pos (by omega)
  · rw [← console_bootinfoAt, hcopied]
    exact chooseScreen_told ..

/-- The boot info in the file, filled in from what `locate_gop` gave, is what the kernel
finds in its variable, and the screen is the framebuffer that was found or, without
one, VGA text (`main.c:258-305`, `kernel_entry.asm:18-40`, `kernel.c:22-25`). -/
theorem bootinfo_handed_over {fuel : ℕ} (hw : w.Documented fuel) (h : w.Enters v o)
    (hl : Layout w v k) (s : Firmware × Memory) : ∃ stackTop bootInfo mem,
      efiMain w fuel s = some (.entered (v.file.uefiEntry o) stackTop bootInfo mem) ∧
        stackTop.toNat = w.stack.2.toNat + kernelStackSize ∧
          bootInfo.toNat = kernelLoadAddress + o ∧
            HandedOver w v o k (kernelUefiEntry k stackTop bootInfo mem) := by
  obtain ⟨mem, hmem, hrun⟩ := efiMain_enters hw s h
  have hsize := (hw.source h.source).size
  have hfits := h.header.fits hsize
  have htop : (w.stack.2 + UInt64.ofNat kernelStackSize).toNat = w.stack.2.toNat + kernelStackSize := by
    rw [UInt64.toNat_add, UInt64.toNat_ofNat_of_lt' (by decide), Nat.mod_eq_of_lt hl.stack]
  have hinfo : (UInt64.ofNat (kernelLoadAddress + o)).toNat = kernelLoadAddress + o := by
    have haddress : kernelLoadAddress = 0x80000 := rfl
    exact UInt64.toNat_ofNat_of_lt' (show kernelLoadAddress + o < 2 ^ 64 by omega)
  have hentry : uefiEntryAt (w.prepared mem o) (kernelLoadAddress + o) = v.file.uefiEntry o := by
    refine uefiEntryAt_congr fun i hi => ?_
    rw [Nat.add_assoc]
    exact prepared_image hmem hl (by omega) (by omega)
  rw [EfiWorld.entered, hentry] at hrun
  exact ⟨_, _, _, hrun, htop, hinfo, handedOver hmem hl hfits htop hinfo⟩

def symbolsAfter : KernelSymbols := ⟨0x80040, 0x80030, 0x80034⟩

theorem symbolsAfter_layout : Layout oneVolume headerVolume symbolsAfter where
  stack := by decide
  stackApart := by decide
  bss := by decide
  bssApart := by decide

theorem one_volume_hands_over : ∃ stackTop bootInfo mem,
    efiMain oneVolume 0x8000 (freeFirmware, fun _ => 0) =
      some (.entered (headerOnly.uefiEntry 0) stackTop bootInfo mem) ∧
      stackTop.toNat = 0x200000 + kernelStackSize ∧ bootInfo.toNat = kernelLoadAddress + 0 ∧
      HandedOver oneVolume headerVolume 0 symbolsAfter
        (kernelUefiEntry symbolsAfter stackTop bootInfo mem) :=
  bootinfo_handed_over oneVolume_documented oneVolume_enters symbolsAfter_layout _

end CasseOS.Boot
