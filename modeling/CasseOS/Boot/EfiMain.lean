import CasseOS.Boot.BootInfo
import CasseOS.Boot.ExitBootServices
import CasseOS.Boot.Gop
import CasseOS.Boot.LoadKernel
import CasseOS.Lib.Bytes

/-! # The loader as a whole (`bootloader/uefi/main.c`)

`efi_main` looks for a volume with a kernel, loads it, fills in the header it finds
in it, clears a stack, leaves the boot services and enters the kernel. The firmware
answers as it likes; of the memory it writes what it is asked to. -/

namespace CasseOS.Boot
open Bytes Reading

/- A volume: the answers until its root directory is open, then its kernel file. -/
structure KernelVolume where
  handleProtocol : Status
  openVolume : Status
  file : KernelFile

structure EfiWorld where
  gop : GopFirmware
  /-- `&gop_info`. -/
  gopInfo : UInt64
  locateHandleBuffer : Status
  volumes : List KernelVolume
  loadedImage : InterfaceAnswer
  /-- The volume the loader itself was loaded from. -/
  bootVolume : KernelVolume
  /-- The answer to the request for a stack, and the address of its pages. -/
  stack : Status × UInt64
  rounds : List Round

/- How `efi_main` ends; a kernel is entered with a stack, a boot info and a memory. -/
inductive Left where
  | returned (status : Status)
  | entered (entry stackTop bootInfo : UInt64) (mem : Memory)

/-! ### Loading -/

/- The output parameters before they are written. -/
def noKernel : LoadedKernel := ⟨0, 0, 0⟩

abbrev LoadResult := Option ((Firmware × Memory) × Status × LoadedKernel)

/-- `HandleProtocol`, `OpenVolume` and `load_kernel` (`main.c:230-247`, `203-221`). -/
def tryKernel (fuel : ℕ) (v : KernelVolume) (s : Firmware × Memory) (out : LoadedKernel) : LoadResult :=
  if efiError v.handleProtocol then some (s, v.handleProtocol, out)
  else if efiError v.openVolume then some (s, v.openVolume, out)
  else (loadKernelInto v.file fuel ⟨s.1, s.2, [], 0, 0⟩ out).map fun r => ((r.1.fw, r.1.mem), r.2)

/-- The loop over the volumes (`main.c:229-256`). -/
def kernelLoop (fuel : ℕ) : List KernelVolume → Status → Firmware × Memory → LoadedKernel →
    Option ((Firmware × Memory) × Except Status LoadedKernel)
  | [], status, s, _ => some (s, .error status)
  | v :: volumes, _, s, out => do
    let (s, status, out) ← tryKernel fuel v s out
    if efiError status then kernelLoop fuel volumes status s out else some (s, .ok out)

/-- Up to the label `kernel_loaded` (`main.c:191-256`). -/
def locateKernel (w : EfiWorld) (fuel : ℕ) (s : Firmware × Memory) :
    Option ((Firmware × Memory) × Except Status LoadedKernel) :=
  if efiError w.locateHandleBuffer then
    if efiError w.loadedImage.status ∨ w.loadedImage.written 0 = 0 then
      some (s, .error w.loadedImage.status)
    else (tryKernel fuel w.bootVolume s noKernel).map fun r =>
      (r.1, if efiError r.2.1 then .error r.2.1 else .ok r.2.2)
  else kernelLoop fuel w.volumes w.locateHandleBuffer s noKernel

/-! ### The boot info -/

/- The members that `efi_main` writes, where they are in `kernel_bootinfo_t`
(`kernel_bootinfo.h:11-21`). -/
def bootinfoAt (mem : Memory) (a : ℕ) : KernelBootinfo where
  flags := UInt64.ofNat (load 8 mem (a + 16))
  fbBase := UInt64.ofNat (load 8 mem (a + 24))
  fbSize := UInt64.ofNat (load 8 mem (a + 32))
  fbWidth := UInt32.ofNat (load 4 mem (a + 40))
  fbHeight := UInt32.ofNat (load 4 mem (a + 44))
  fbStride := UInt32.ofNat (load 4 mem (a + 48))
  fbBpp := UInt32.ofNat (load 4 mem (a + 52))

def storeBootinfo (mem : Memory) (a : ℕ) (b : KernelBootinfo) : Memory :=
  let mem := Bytes.store 8 mem (a + 16) b.flags.toNat
  let mem := Bytes.store 8 mem (a + 24) b.fbBase.toNat
  let mem := Bytes.store 8 mem (a + 32) b.fbSize.toNat
  let mem := Bytes.store 4 mem (a + 40) b.fbWidth.toNat
  let mem := Bytes.store 4 mem (a + 44) b.fbHeight.toNat
  let mem := Bytes.store 4 mem (a + 48) b.fbStride.toNat
  Bytes.store 4 mem (a + 52) b.fbBpp.toNat

def magicAt (mem : Memory) (a : ℕ) : UInt64 := UInt64.ofNat (load 8 mem a)

def uefiEntryAt (mem : Memory) (a : ℕ) : UInt64 := UInt64.ofNat (load 8 mem (a + 8))

/-! ### The function -/

/- `KERNEL_STACK_PAGES * PAGE_SIZE`. -/
def kernelStackSize : ℕ := 16 * pageSize

/-- From the label `kernel_loaded` on (`main.c:258-305`), and `uefi_enter_kernel`
(`enter_kernel.S:4-10`); `none` where `exit_boot_services` goes on. -/
def enterKernel (w : EfiWorld) (fuel : ℕ) (mem : Memory) (kernel : LoadedKernel) : Option Left := do
  let found ← (findKernelBootinfo kernel.fileSize fuel).run fun i => mem (kernel.address + i)
  match found with
  | none => some (.returned efiLoadError)
  | some offset =>
    let bootInfo := kernel.address + offset.toNat
    if magicAt mem bootInfo ≠ kernelBootinfoMagic then some (.returned efiLoadError)
    else
      let mem := storeBootinfo mem bootInfo
        (writeBootinfo (locateGop w.gop w.gopInfo) (bootinfoAt mem bootInfo))
      if efiError w.stack.1 then some (.returned w.stack.1)
      else
        let stackTop := w.stack.2 + UInt64.ofNat kernelStackSize
        let mem := fill mem w.stack.2.toNat kernelStackSize 0
        let status ← (exitBootServices w.rounds).2
        if efiError status then some (.returned status)
        else some (.entered (uefiEntryAt mem bootInfo) stackTop (UInt64.ofNat bootInfo) mem)

/-- `efi_main` (`main.c:177-306`). -/
def efiMain (w : EfiWorld) (fuel : ℕ) (s : Firmware × Memory) : Option Left := do
  let (s, result) ← locateKernel w fuel s
  match result with
  | .error status => some (.returned status)
  | .ok kernel => enterKernel w fuel s.2 kernel

/-! ### What is loaded -/

/- The kernel in memory. -/
def KernelFile.LoadedIn (f : KernelFile) (mem : Memory) : Prop :=
  ∀ i < f.content.length, mem (kernelLoadAddress + i) = f.content.getD i 0

def KernelFile.loaded (f : KernelFile) : LoadedKernel := ⟨kernelLoadAddress, kernelPages f.size, f.size⟩

/- `GetInfo` tells what it needs, and no file is beyond its limits. -/
structure KernelVolume.Documented (v : KernelVolume) : Prop where
  size : v.file.content.length < 2 ^ 63
  info : v.file.infoSize = efiBufferTooSmall

structure KernelVolume.Loads (v : KernelVolume) : Prop where
  handleProtocol : efiError v.handleProtocol = false
  openVolume : efiError v.openVolume = false
  prepared : v.file.Prepared
  delivers : v.file.Delivers

/- What an attempt ends with. -/
structure Attempt (v : KernelVolume) (mem : Memory) (status : Status) (out : LoadedKernel) : Prop where
  loads_iff : efiError status = false ↔ v.Loads
  loaded : efiError status = false → out = v.file.loaded ∧ v.file.LoadedIn mem

theorem Attempt.fails {v : KernelVolume} {mem : Memory} {status : Status} {out : LoadedKernel}
    (hstatus : efiError status = true) (h : ¬v.Loads) : Attempt v mem status out := by
  have hne : ¬efiError status = false := ne_false_of_eq_true hstatus
  exact ⟨⟨fun h' => absurd h' hne, fun h' => absurd h' h⟩, fun h' => absurd h' hne⟩

theorem loadKernelInto_attempt {v : KernelVolume} (hv : v.Documented) {fuel : ℕ}
    (hfuel : v.file.content.length < fuel) (hhandle : efiError v.handleProtocol = false)
    (hvolume : efiError v.openVolume = false) (fw : Firmware) (mem : Memory) (out : LoadedKernel) :
    ∃ st status out', loadKernelInto v.file fuel ⟨fw, mem, [], 0, 0⟩ out = some (st, status, out') ∧
      Attempt v st.mem status out' := by
  unfold loadKernelInto
  by_cases hopen : efiError v.file.openFile = true
  · rw [if_pos hopen]
    exact ⟨_, _, _, rfl, .fails hopen fun h => ne_true_of_eq_false h.prepared.openFile hopen⟩
  rw [if_neg hopen]
  have hstatus := getFileSize_status fw.openFile hv.info []
  have hvalue := getFileSize_size fw.openFile hv.info []
  generalize getFileSize (v.file.volume []) fw.openFile = g at hstatus hvalue ⊢
  obtain ⟨fw₁, sized, size⟩ := g
  dsimp only at hstatus hvalue ⊢
  by_cases hsized : efiError sized = true
  · rw [if_pos hsized]
    refine ⟨_, _, _, rfl, .fails hsized fun h => ?_⟩
    exact ne_true_of_eq_false (hstatus.mpr ⟨h.prepared.allocatePool, h.prepared.getInfo⟩) hsized
  rw [if_neg hsized, hvalue (eq_false_of_ne_true hsized), KernelFile.allocate]
  by_cases hpages : efiError v.file.allocatePages = true
  · rw [if_pos hpages, if_pos hpages]
    exact ⟨_, _, _, rfl, .fails hpages fun h => ne_true_of_eq_false h.prepared.allocatePages hpages⟩
  rw [if_neg hpages, if_neg hpages]
  obtain ⟨hpool, hget⟩ := hstatus.mp (eq_false_of_ne_true hsized)
  have hprepared : v.file.Prepared :=
    ⟨eq_false_of_ne_true hopen, hpool, hget, eq_false_of_ne_true hpages⟩
  obtain ⟨st, r, hloop, -, -, houtcome⟩ := readLoop_spec hv.size fuel
    (loading_start (fw₁.take (kernelPages v.file.size)) mem hv.size)
    (by rw [toNat_size hv.size]; exact hfuel)
  rw [hloop, Option.map_some]
  cases houtcome with
  | whole hdelivers hholds =>
    exact ⟨_, _, _, rfl, ⟨fun _ => ⟨hhandle, hvolume, hprepared, hdelivers⟩, fun _ => by decide⟩,
      fun _ => ⟨rfl, hholds⟩⟩
  | failed hfailed hdelivers => exact ⟨_, _, _, rfl, .fails hfailed fun h => hdelivers h.delivers⟩
  | short hremaining hdelivers =>
    dsimp only
    rw [if_pos hremaining]
    exact ⟨_, _, _, rfl, .fails (by decide) fun h => hdelivers h.delivers⟩

theorem tryKernel_attempt {v : KernelVolume} (hv : v.Documented) {fuel : ℕ}
    (hfuel : v.file.content.length < fuel) (s : Firmware × Memory) (out : LoadedKernel) :
    ∃ s' status out', tryKernel fuel v s out = some (s', status, out') ∧
      Attempt v s'.2 status out' := by
  unfold tryKernel
  by_cases hhandle : efiError v.handleProtocol = true
  · rw [if_pos hhandle]
    exact ⟨_, _, _, rfl, .fails hhandle fun h => ne_true_of_eq_false h.handleProtocol hhandle⟩
  by_cases hvolume : efiError v.openVolume = true
  · rw [if_neg hhandle, if_pos hvolume]
    exact ⟨_, _, _, rfl, .fails hvolume fun h => ne_true_of_eq_false h.openVolume hvolume⟩
  obtain ⟨st, status, out', hrun, hattempt⟩ := loadKernelInto_attempt hv hfuel
    (eq_false_of_ne_true hhandle) (eq_false_of_ne_true hvolume) s.1 s.2 out
  rw [if_neg hhandle, if_neg hvolume, hrun]
  exact ⟨_, _, _, rfl, hattempt⟩

open Classical in
/- The volume the kernel comes from: the first that loads one. -/
noncomputable def EfiWorld.source (w : EfiWorld) : Option KernelVolume :=
  if efiError w.locateHandleBuffer then
    if efiError w.loadedImage.status ∨ w.loadedImage.written 0 = 0 then none
    else [w.bootVolume].find? fun v => v.Loads
  else w.volumes.find? fun v => v.Loads

def Located : Option KernelVolume → Memory → Except Status LoadedKernel → Prop
  | some v, mem, r => r = .ok v.file.loaded ∧ v.file.LoadedIn mem
  | none, _, r => ∃ status, r = .error status

open Classical in
theorem kernelLoop_located (fuel : ℕ) (volumes : List KernelVolume)
    (hdoc : ∀ v ∈ volumes, v.Documented ∧ v.file.content.length < fuel) (status : Status)
    (s : Firmware × Memory) (out : LoadedKernel) :
    ∃ s' r, kernelLoop fuel volumes status s out = some (s', r) ∧
      Located (volumes.find? fun v => v.Loads) s'.2 r := by
  induction volumes generalizing status s out with
  | nil => exact ⟨s, .error status, rfl, status, rfl⟩
  | cons v volumes ih =>
    obtain ⟨hv, hfuel⟩ := hdoc v List.mem_cons_self
    obtain ⟨s', status', out', hrun, hattempt⟩ := tryKernel_attempt hv hfuel s out
    have hstep : kernelLoop fuel (v :: volumes) status s out =
        if efiError status' then kernelLoop fuel volumes status' s' out' else some (s', .ok out') := by
      rw [kernelLoop, hrun]
      rfl
    by_cases hfail : efiError status' = true
    · have hloads : ¬v.Loads := fun h => ne_true_of_eq_false (hattempt.loads_iff.mpr h) hfail
      rw [hstep, if_pos hfail, List.find?_cons_of_neg (by simpa using hloads)]
      exact ih (fun u hu => hdoc u (List.mem_cons_of_mem v hu)) status' s' out'
    · have hok := eq_false_of_ne_true hfail
      obtain ⟨hout, hloaded⟩ := hattempt.loaded hok
      have hloads := hattempt.loads_iff.mp hok
      rw [hstep, if_neg hfail, List.find?_cons_of_pos (by simpa using hloads)]
      exact ⟨s', .ok out', rfl, congrArg Except.ok hout, hloaded⟩

/- All volumes keep to the documentation, and the loops have rounds enough. -/
structure EfiWorld.Documented (w : EfiWorld) (fuel : ℕ) : Prop where
  volumes : ∀ v ∈ w.bootVolume :: w.volumes, v.Documented ∧ v.file.content.length < fuel
  rounds : 0x8000 ≤ fuel

theorem locateKernel_located {w : EfiWorld} {fuel : ℕ} (hw : w.Documented fuel)
    (s : Firmware × Memory) :
    ∃ s' r, locateKernel w fuel s = some (s', r) ∧ Located w.source s'.2 r := by
  unfold locateKernel EfiWorld.source
  by_cases hlocate : efiError w.locateHandleBuffer = true
  · rw [if_pos hlocate, if_pos hlocate]
    by_cases himage : efiError w.loadedImage.status = true ∨ w.loadedImage.written 0 = 0
    · rw [if_pos himage, if_pos himage]
      exact ⟨s, _, rfl, _, rfl⟩
    · rw [if_neg himage, if_neg himage]
      obtain ⟨hv, hfuel⟩ := hw.volumes w.bootVolume List.mem_cons_self
      obtain ⟨s', status, out, hrun, hattempt⟩ := tryKernel_attempt hv hfuel s noKernel
      rw [hrun]
      by_cases hfail : efiError status = true
      · have hloads : ¬w.bootVolume.Loads := fun h =>
          ne_true_of_eq_false (hattempt.loads_iff.mpr h) hfail
        rw [List.find?_cons_of_neg (by simpa using hloads)]
        exact ⟨s', _, rfl, status, if_pos hfail⟩
      · have hok := eq_false_of_ne_true hfail
        obtain ⟨hout, hloaded⟩ := hattempt.loaded hok
        have hloads := hattempt.loads_iff.mp hok
        rw [List.find?_cons_of_pos (by simpa using hloads)]
        exact ⟨s', _, rfl, (if_neg hfail).trans (congrArg Except.ok hout), hloaded⟩
  · rw [if_neg hlocate, if_neg hlocate]
    exact kernelLoop_located fuel w.volumes (fun v hv => hw.volumes v (List.mem_cons_of_mem _ hv)) _ s _

theorem EfiWorld.Documented.source {w : EfiWorld} {fuel : ℕ} (hw : w.Documented fuel)
    {v : KernelVolume} (hv : w.source = some v) : v.Documented := by
  have hmem : v ∈ w.bootVolume :: w.volumes := by
    unfold EfiWorld.source at hv
    split at hv
    · split at hv
      · cases hv
      · rw [List.mem_singleton.mp (List.mem_of_find?_eq_some hv)]
        exact List.mem_cons_self
    · exact List.mem_cons_of_mem _ (List.mem_of_find?_eq_some hv)
  exact (hw.volumes v hmem).1

/-! ### The header -/

/- The last place in the window with the magic number. -/
def KernelFile.Header (f : KernelFile) (o : ℕ) : Prop :=
  IsGreatest {j | InWindow f.size j ∧ HoldsMagic (fun i => f.content.getD i 0) j} o

theorem holdsMagic_loaded {f : KernelFile} {mem : Memory} (h : f.LoadedIn mem) {j : ℕ}
    (hj : j + 8 ≤ f.content.length) : HoldsMagic (fun i => mem (kernelLoadAddress + i)) j ↔
      HoldsMagic (fun i => f.content.getD i 0) j := by
  have hsame : (List.range 8).map (fun i => mem (kernelLoadAddress + (j + i))) =
      (List.range 8).map fun i => f.content.getD (j + i) 0 :=
    List.map_congr_left fun i hi => h (j + i) (by rw [List.mem_range] at hi; omega)
  rw [HoldsMagic, HoldsMagic, hsame]

theorem header_found {f : KernelFile} {mem : Memory} (h : f.LoadedIn mem)
    (hsize : f.content.length < 2 ^ 63) {fuel : ℕ} (hfuel : 0x8000 ≤ fuel) :
    ∃ r, (findKernelBootinfo f.size fuel).run (fun i => mem (kernelLoadAddress + i)) = some r ∧
      ∀ o, r = some o ↔ f.Header o.toNat := by
  have hlen := toNat_size hsize
  have hbootinfo : kernelBootinfoSize.toNat = 56 := by decide
  rcases Nat.lt_or_ge f.size.toNat kernelBootinfoSize.toNat with hlt | hge
  · refine ⟨none, ?_, fun o => ⟨fun ho => absurd ho.symm (Option.some_ne_none o), fun ho => ?_⟩⟩
    · rw [findKernelBootinfo_of_lt _ hlt, run_pure]
    · have hfits := ho.1.1.1
      omega
  · obtain ⟨s, hlast, hfirst, hle, hsteps, heq⟩ := findKernelBootinfo_of_le f.size hge
    obtain ⟨r, hrun, hr⟩ := (iterate_bootinfoRound (fun i => mem (kernelLoadAddress + i)) fuel s hle).2
      (by omega)
    have hset : {j | s.1.toNat - s.2.toNat ≤ j ∧ j ≤ s.1.toNat ∧
        HoldsMagic (fun i => mem (kernelLoadAddress + i)) j} =
        {j | InWindow f.size j ∧ HoldsMagic (fun i => f.content.getD i 0) j} := by
      ext j
      simp only [Set.mem_ofPred_eq, InWindow]
      constructor
      · rintro ⟨hlow, hhigh, hmagic⟩
        exact ⟨⟨by omega, by omega⟩, (holdsMagic_loaded h (by omega)).mp hmagic⟩
      · rintro ⟨⟨hfits, hlow⟩, hmagic⟩
        exact ⟨by omega, by omega, (holdsMagic_loaded h (by omega)).mpr hmagic⟩
    refine ⟨r, by rw [heq, hrun], fun o => ?_⟩
    rw [KernelFile.Header, ← hset]
    cases r with
    | none =>
      exact ⟨fun ho => absurd ho.symm (Option.some_ne_none o),
        fun ho => absurd ho.1.2.2 (hr _ ho.1.1 ho.1.2.1)⟩
    | some o' =>
      constructor
      · rintro ⟨⟩
        exact hr
      · intro ho
        rw [UInt64.toNat.inj (IsGreatest.unique hr ho)]

theorem KernelFile.Header.fits {f : KernelFile} {o : ℕ} (h : f.Header o)
    (hsize : f.content.length < 2 ^ 63) : o + 56 ≤ f.content.length := by
  have hfits : o + 56 ≤ f.size.toNat := h.1.1.1
  rwa [toNat_size hsize] at hfits

theorem magicAt_header {f : KernelFile} {mem : Memory} (h : f.LoadedIn mem) {o : ℕ} (ho : f.Header o)
    (hsize : f.content.length < 2 ^ 63) : magicAt mem (kernelLoadAddress + o) = kernelBootinfoMagic := by
  have hfits := ho.fits hsize
  have hbytes : ∀ i < 8, mem (kernelLoadAddress + o + i) = magicBytes.getD (0 + i) 0 := by
    intro i hi
    have hat : i < ((List.range 8).map fun i => f.content.getD (o + i) 0).length := by simpa using hi
    have hmagic : ((List.range 8).map fun i => f.content.getD (o + i) 0) = magicBytes := ho.1.2
    rw [Nat.zero_add, ← hmagic, List.getD_eq_getElem _ _ hat, List.getElem_map, List.getElem_range,
      Nat.add_assoc]
    exact h (o + i) (by omega)
  have hload : load 8 mem (kernelLoadAddress + o) = load 8 (fun i => magicBytes.getD i 0) 0 :=
    load_congr hbytes
  rw [magicAt, hload]
  decide

/-! ### The members -/

section Members
variable (mem : Memory) (a : ℕ) (b : KernelBootinfo)

theorem ofNat_load_store64 (mem : Memory) (a : ℕ) (v : UInt64) :
    UInt64.ofNat (load 8 (Bytes.store 8 mem a v.toNat) a) = v := by
  rw [load_store, Nat.mod_eq_of_lt (by have := v.toNat_lt; omega)]
  exact UInt64.ofNat_toNat

theorem ofNat_load_store32 (mem : Memory) (a : ℕ) (v : UInt32) :
    UInt32.ofNat (load 4 (Bytes.store 4 mem a v.toNat) a) = v := by
  rw [load_store, Nat.mod_eq_of_lt (by have := v.toNat_lt; omega)]
  exact UInt32.ofNat_toNat

/- What is stored is read back. -/
theorem bootinfoAt_storeBootinfo : bootinfoAt (storeBootinfo mem a b) a = b := by
  have hother : ∀ m n c d (mem : Memory) (v : ℕ), d + m ≤ c ∨ c + n ≤ d →
      load m (Bytes.store n mem c v) d = load m mem d := fun m n c d mem v h => load_store_other h
  unfold bootinfoAt storeBootinfo
  obtain ⟨flags, fbBase, fbSize, fbWidth, fbHeight, fbStride, fbBpp⟩ := b
  simp (disch := omega) only [hother, ofNat_load_store64, ofNat_load_store32]

theorem storeBootinfo_other {c : ℕ} (h : c < a + 16 ∨ a + 56 ≤ c) : storeBootinfo mem a b c = mem c := by
  unfold storeBootinfo
  simp (disch := omega) only [store_other]

end Members

/-! ### Entering -/

/- What it takes to enter the kernel `v` with the header at `o`. -/
structure EfiWorld.Enters (w : EfiWorld) (v : KernelVolume) (o : ℕ) : Prop where
  source : w.source = some v
  header : v.file.Header o
  stack : efiError w.stack.1 = false
  exit : ∃ status, (exitBootServices w.rounds).2 = some status ∧ efiError status = false

/- The memory the kernel is entered with, from the one it is loaded in. -/
def EfiWorld.prepared (w : EfiWorld) (mem : Memory) (o : ℕ) : Memory :=
  fill (storeBootinfo mem (kernelLoadAddress + o) (writeBootinfo (locateGop w.gop w.gopInfo)
    (bootinfoAt mem (kernelLoadAddress + o)))) w.stack.2.toNat kernelStackSize 0

def EfiWorld.entered (w : EfiWorld) (mem : Memory) (o : ℕ) : Left :=
  .entered (uefiEntryAt (w.prepared mem o) (kernelLoadAddress + o))
    (w.stack.2 + UInt64.ofNat kernelStackSize) (UInt64.ofNat (kernelLoadAddress + o))
    (w.prepared mem o)

variable {w : EfiWorld} {fuel : ℕ}

theorem enterKernel_header {v : KernelVolume} (hv : v.Documented) (hfuel : 0x8000 ≤ fuel)
    {mem : Memory} (hmem : v.file.LoadedIn mem) :
    (∃ o, v.file.Header o ∧ enterKernel w fuel mem v.file.loaded =
      if efiError w.stack.1 then some (.returned w.stack.1)
      else (exitBootServices w.rounds).2.map fun status =>
        if efiError status then .returned status else w.entered mem o) ∨
    (∀ o, ¬v.file.Header o) ∧ enterKernel w fuel mem v.file.loaded = some (.returned efiLoadError) := by
  obtain ⟨r, hrun, hr⟩ := header_found hmem hv.size hfuel
  have hfound : (findKernelBootinfo v.file.loaded.fileSize fuel).run
      (fun i => mem (v.file.loaded.address + i)) = some r := hrun
  cases r with
  | none =>
    refine .inr ⟨fun o ho => ?_, ?_⟩
    · have hlt : o < 2 ^ 64 := by
        have hfits := ho.fits hv.size
        have hsize := hv.size
        omega
      have hto : (UInt64.ofNat o).toNat = o := UInt64.toNat_ofNat_of_lt' hlt
      exact Option.some_ne_none _ ((hr (UInt64.ofNat o)).mpr (by rwa [hto])).symm
    · rw [enterKernel, hfound]
      rfl
  | some offset =>
    have ho := (hr offset).mp rfl
    have hmagic : magicAt mem (v.file.loaded.address + offset.toNat) = kernelBootinfoMagic :=
      magicAt_header hmem ho hv.size
    refine .inl ⟨offset.toNat, ho, ?_⟩
    rw [enterKernel, hfound]
    dsimp only [Option.bind_eq_bind, Option.bind_some]
    rw [if_neg (not_not.mpr hmagic)]
    by_cases hstack : efiError w.stack.1 = true
    · rw [if_pos hstack, if_pos hstack]
    · rw [if_neg hstack, if_neg hstack]
      cases (exitBootServices w.rounds).2 with
      | none => rfl
      | some status =>
        rw [Option.bind_some, Option.map_some]
        by_cases hstatus : efiError status = true
        · rw [if_pos hstatus, if_pos hstatus]
        · rw [if_neg hstatus, if_neg hstatus]
          rfl

theorem KernelFile.Header.unique {f : KernelFile} {o o' : ℕ} (h : f.Header o) (h' : f.Header o') :
    o = o' := IsGreatest.unique h h'

/- The kernel is entered when all of this is given. -/
theorem efiMain_enters (hw : w.Documented fuel) (s : Firmware × Memory) {v : KernelVolume} {o : ℕ}
    (h : w.Enters v o) : ∃ mem, v.file.LoadedIn mem ∧ efiMain w fuel s = some (w.entered mem o) := by
  obtain ⟨s', r, hlocate, hlocated⟩ := locateKernel_located hw s
  rw [h.source] at hlocated
  obtain ⟨rfl, hmem⟩ := hlocated
  refine ⟨s'.2, hmem, ?_⟩
  have hrun : efiMain w fuel s = enterKernel w fuel s'.2 v.file.loaded := by
    rw [efiMain, hlocate]
    rfl
  obtain ⟨status, hexit, hstatus⟩ := h.exit
  rcases enterKernel_header (w := w) (hw.source h.source) hw.rounds hmem with
    ⟨o', ho', henter⟩ | ⟨hnone, -⟩
  · rw [hrun, henter, ho'.unique h.header, if_neg (ne_true_of_eq_false h.stack), hexit, Option.map_some,
      if_neg (ne_true_of_eq_false hstatus)]
  · exact absurd h.header (hnone o)

/- It is entered in no other case, and `efi_main` has no other way not to end. -/
theorem efiMain_returns (hw : w.Documented fuel) (s : Firmware × Memory)
    (h : ∀ v o, ¬w.Enters v o) : (∃ status, efiMain w fuel s = some (.returned status)) ∨
      efiMain w fuel s = none ∧ (exitBootServices w.rounds).2 = none := by
  obtain ⟨s', r, hlocate, hlocated⟩ := locateKernel_located hw s
  rw [efiMain, hlocate]
  cases hsource : w.source with
  | none =>
    rw [hsource] at hlocated
    obtain ⟨status, rfl⟩ := hlocated
    exact .inl ⟨status, rfl⟩
  | some v =>
    rw [hsource] at hlocated
    obtain ⟨rfl, hmem⟩ := hlocated
    show (∃ status, enterKernel w fuel s'.2 v.file.loaded = some (.returned status)) ∨
      enterKernel w fuel s'.2 v.file.loaded = none ∧ (exitBootServices w.rounds).2 = none
    rcases enterKernel_header (w := w) (hw.source hsource) hw.rounds hmem with
      ⟨o, ho, henter⟩ | ⟨-, hreturn⟩
    · rw [henter]
      by_cases hstack : efiError w.stack.1 = true
      · exact .inl ⟨w.stack.1, if_pos hstack⟩
      · rw [if_neg hstack]
        cases hexit : (exitBootServices w.rounds).2 with
        | none => exact .inr ⟨rfl, rfl⟩
        | some status =>
          by_cases hstatus : efiError status = true
          · exact .inl ⟨status, congrArg some (if_pos hstatus)⟩
          · exact absurd ⟨hsource, ho, eq_false_of_ne_true hstack, status, hexit,
              eq_false_of_ne_true hstatus⟩ (h v o)
    · exact .inl ⟨efiLoadError, hreturn⟩

/-- Whatever the firmware answers, `efi_main` enters the kernel exactly if a volume
loads one, the file has a header, and the stack and the exit from the boot services
are granted; otherwise it returns, unless it goes on leaving the boot services for
ever (`main.c:177-306`). -/
theorem kernel_entered_iff (hw : w.Documented fuel) (s : Firmware × Memory) :
    ((∃ entry stackTop bootInfo mem,
      efiMain w fuel s = some (.entered entry stackTop bootInfo mem)) ↔ ∃ v o, w.Enters v o) ∧
    ((∀ v o, ¬w.Enters v o) → (∃ status, efiMain w fuel s = some (.returned status)) ∨
      efiMain w fuel s = none ∧ (exitBootServices w.rounds).2 = none) := by
  refine ⟨⟨?_, ?_⟩, efiMain_returns hw s⟩
  · rintro ⟨entry, stackTop, bootInfo, mem, hrun⟩
    by_contra hno
    simp only [not_exists] at hno
    rcases efiMain_returns hw s hno with ⟨status, hreturned⟩ | ⟨hnone, -⟩
    · cases hrun.symm.trans hreturned
    · cases hrun.symm.trans hnone
  · rintro ⟨v, o, h⟩
    obtain ⟨mem, -, hrun⟩ := efiMain_enters hw s h
    exact ⟨_, _, _, _, hrun⟩

/-! ### A volume with a kernel -/

/- A kernel of nothing but its header, with its entry at 0x80018. -/
def headerOnly : KernelFile :=
  ⟨magicBytes ++ [0x18, 0, 8] ++ List.replicate 45 0, efiSuccess, efiBufferTooSmall, efiSuccess,
    efiSuccess, efiSuccess, fun _ => ⟨efiSuccess, 4096⟩⟩

def headerVolume : KernelVolume := ⟨efiSuccess, efiSuccess, headerOnly⟩

/- A screen of 1024 by 768. -/
def screenGop : GopFirmware :=
  ⟨⟨efiSuccess, some 0x3000⟩, efiNotFound, [], fun _ => ⟨0, 0xC0000000, 0x300000⟩,
    fun _ _ => ⟨efiSuccess, ⟨1024, 768, 1024⟩⟩⟩

/- The map at once, and its key accepted. -/
def oneVolume : EfiWorld :=
  ⟨screenGop, 0x1000, efiSuccess, [headerVolume], ⟨efiSuccess, none⟩, headerVolume,
    (efiSuccess, 0x200000), [⟨⟨efiSuccess, 0, 1, 48⟩, ⟨efiSuccess, 0⟩, efiSuccess⟩]⟩

theorem headerVolume_documented : headerVolume.Documented := ⟨by decide, rfl⟩

theorem headerVolume_loads : headerVolume.Loads := by
  refine ⟨by decide, by decide, ⟨by decide, by decide, by decide, by decide⟩, 1, by decide, ?_⟩
  intro k _
  exact ⟨by show efiError efiSuccess = false; decide, by show (4096 : UInt64) ≠ 0; decide⟩

theorem oneVolume_documented : oneVolume.Documented 0x8000 := by
  refine ⟨fun v hv => ?_, le_rfl⟩
  have hsame : v = headerVolume := by simpa [oneVolume] using hv
  subst hsame
  exact ⟨headerVolume_documented, by decide⟩

theorem oneVolume_enters : oneVolume.Enters headerVolume 0 := by
  have hexit : (exitBootServices oneVolume.rounds).2 = some efiSuccess := by decide
  refine ⟨?_, ⟨⟨⟨by decide, by decide⟩, by decide⟩, fun j hj => ?_⟩, by decide, efiSuccess, hexit,
    by decide⟩
  · have hlocate : ¬efiError oneVolume.locateHandleBuffer = true := by decide
    have hvolumes : oneVolume.volumes = [headerVolume] := rfl
    rw [EfiWorld.source, if_neg hlocate, hvolumes]
    exact List.find?_cons_of_pos (by simpa using headerVolume_loads)
  · have hfits : j + 56 ≤ 56 := hj.1.1
    omega

/- The same firmware without room for the stack. -/
def noStack : EfiWorld := {oneVolume with stack := (efiNotFound, 0)}

theorem noStack_not_enters (v : KernelVolume) (o : ℕ) : ¬noStack.Enters v o := by
  intro h
  exact absurd h.stack (by decide)

theorem one_volume_enters : (∃ entry stackTop bootInfo mem,
    efiMain oneVolume 0x8000 (freeFirmware, fun _ => 0) =
      some (.entered entry stackTop bootInfo mem)) ∧
    ∃ status, efiMain noStack 0x8000 (freeFirmware, fun _ => 0) = some (.returned status) := by
  refine ⟨(kernel_entered_iff oneVolume_documented _).1.mpr ⟨headerVolume, 0, oneVolume_enters⟩, ?_⟩
  have hdocumented : noStack.Documented 0x8000 :=
    ⟨oneVolume_documented.volumes, oneVolume_documented.rounds⟩
  rcases (kernel_entered_iff hdocumented (freeFirmware, fun _ => 0)).2 noStack_not_enters with
    hreturned | ⟨-, hexit⟩
  · exact hreturned
  · exact absurd hexit (by decide)

end CasseOS.Boot
