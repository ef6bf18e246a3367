import CasseOS.Lib.Attempts
import Mathlib.Data.UInt
import Mathlib.Tactic.Common

/-! # The UEFI loader (`bootloader/uefi/main.c`)

`efi_main` looks for the kernel on one volume after the other; each attempt
loads it to the same address. The firmware is the set of pages that are taken,
the files and pool buffers in use, and what each volume answers. -/

namespace CasseOS.Boot
open Attempts

/- `EFI_STATUS` and `UINTN`. -/
abbrev Status := UInt64

def efiSuccess : Status := 0
def efiLoadError : Status := 0x8000000000000001
def efiInvalidParameter : Status := 0x8000000000000002
def efiBufferTooSmall : Status := 0x8000000000000005
def efiNotFound : Status := 0x800000000000000E

/- `EFI_ERROR`. -/
def efiError (status : Status) : Bool := status >>> 63 ≠ 0

structure Firmware where
  /-- The pages of 4096 bytes that are allocated or are no free memory. -/
  allocated : ℕ → Bool
  openFiles : ℕ
  /-- The pool buffers in use. -/
  pool : ℕ
  /-- What the firmware answers to a request for no page at all. -/
  emptyRequest : Status

/- One answer of `Read`: its status, and how many bytes it has. -/
structure ReadAnswer where
  status : Status
  bytes : UInt64

/- What a handle answers, call by call. -/
structure Volume where
  handleProtocol : Status
  openVolume : Status
  openFile : Status
  /-- `GetInfo` with no buffer, `AllocatePool`, and `GetInfo` again. -/
  infoSize : Status
  allocatePool : Status
  getInfo : Status
  fileSize : UInt64
  /-- The answers of `Read`; after them the file has no more bytes. -/
  reads : List ReadAnswer

/-! ### Loading -/

def kernelLoadAddress : ℕ := 0x80000
def pageSize : ℕ := 4096

/- The page of the load address. -/
def firstPage : ℕ := kernelLoadAddress / pageSize

/- `pages` pages from the load address on are free. -/
def Firmware.Free (fw : Firmware) (pages : UInt64) : Prop :=
  ∀ i < pages.toNat, fw.allocated (firstPage + i) = false

instance (fw : Firmware) (pages : UInt64) : Decidable (fw.Free pages) :=
  inferInstanceAs (Decidable (∀ i < pages.toNat, fw.allocated (firstPage + i) = false))

def Firmware.take (fw : Firmware) (pages : UInt64) : Firmware :=
  {fw with allocated := fun p =>
    fw.allocated p || decide (firstPage ≤ p ∧ p < firstPage + pages.toNat)}

/- `AllocatePages(AllocateAddress, ...)` at the load address. -/
def Firmware.allocatePages (fw : Firmware) (pages : UInt64) : Firmware × Status :=
  if pages = 0 then (fw, fw.emptyRequest)
  else if fw.Free pages then (fw.take pages, efiSuccess)
  else (fw, efiNotFound)

def Firmware.openFile (fw : Firmware) : Firmware := {fw with openFiles := fw.openFiles + 1}
def Firmware.close (fw : Firmware) : Firmware := {fw with openFiles := fw.openFiles - 1}

/-- `get_file_size` (`main.c:53-72`); the size is 0 where it is not written. -/
def getFileSize (v : Volume) (fw : Firmware) : Firmware × Status × UInt64 :=
  if v.infoSize ≠ efiBufferTooSmall then (fw, v.infoSize, 0)
  else if efiError v.allocatePool then (fw, v.allocatePool, 0)
  else
    let fw := {fw with pool := fw.pool + 1}
    let size := if efiError v.getInfo then 0 else v.fileSize
    ({fw with pool := fw.pool - 1}, v.getInfo, size)

/-- The loop that reads the file (`main.c:102-117`): an error, or what remains to
be read. `Read` gives at most what it is asked for. -/
def readKernel : List ReadAnswer → UInt64 → Except Status UInt64
  | [], remaining => .ok remaining
  | answer :: answers, remaining =>
    if remaining = 0 then .ok 0
    else if efiError answer.status then .error answer.status
    else
      let chunk := min answer.bytes remaining
      if chunk = 0 then .ok remaining else readKernel answers (remaining - chunk)

/- `*kernel_address`, `*kernel_pages` and `*kernel_file_size`. -/
structure LoadedKernel where
  address : ℕ
  pages : UInt64
  fileSize : UInt64

/- `(file_size + PAGE_SIZE - 1) / PAGE_SIZE`. -/
def kernelPages (fileSize : UInt64) : UInt64 := (fileSize + 4096 - 1) / 4096

/-- `load_kernel` (`main.c:74-128`). -/
def loadKernel (v : Volume) (fw : Firmware) : Firmware × Except Status LoadedKernel :=
  if efiError v.openFile then (fw, .error v.openFile)
  else
    let (fw, status, fileSize) := getFileSize v fw.openFile
    if efiError status then (fw.close, .error status)
    else
      let pages := kernelPages fileSize
      let (fw, status) := fw.allocatePages pages
      if efiError status then (fw.close, .error status)
      else match readKernel v.reads fileSize with
        | .error status => (fw.close, .error status)
        | .ok remaining =>
          if remaining ≠ 0 then (fw.close, .error efiLoadError)
          else (fw.close, .ok ⟨kernelLoadAddress, pages, fileSize⟩)

/-- The body of the loop over the handles (`main.c:230-247`). -/
def tryVolume (v : Volume) (fw : Firmware) : Firmware × Except Status LoadedKernel :=
  if efiError v.handleProtocol then (fw, .error v.handleProtocol)
  else if efiError v.openVolume then (fw, .error v.openVolume)
  else loadKernel v fw

/-- The loop (`main.c:229-256`), with the status of `LocateHandleBuffer`; it ends
at the first volume that loads the kernel. -/
def volumeLoop (status : Status) (volumes : List Volume) (fw : Firmware) :
    Firmware × Except Status LoadedKernel :=
  tryEach tryVolume status volumes fw

/-! ### What an attempt leaves behind -/

/- The loop gets to `load_kernel`. -/
def Volume.Mounts (v : Volume) : Prop :=
  efiError v.handleProtocol = false ∧ efiError v.openVolume = false

/- The volume has a kernel file with a size. -/
structure Volume.Opens (v : Volume) (fw : Firmware) : Prop where
  mounts : v.Mounts
  file : efiError v.openFile = false
  size : efiError (getFileSize v fw).2.1 = false

/- The size of the kernel file. -/
def Volume.size (v : Volume) (fw : Firmware) : UInt64 := (getFileSize v fw).2.2

/- The pages for the file are handed out, but it is not read to its end. -/
structure Volume.Leaks (v : Volume) (fw : Firmware) : Prop where
  opens : v.Opens fw
  some_page : kernelPages (v.size fw) ≠ 0
  free : fw.Free (kernelPages (v.size fw))
  unread : readKernel v.reads (v.size fw) ≠ .ok 0

section Attempt
variable (v : Volume) (fw : Firmware)

theorem getFileSize_openFile : getFileSize v fw.openFile = (fw.openFile, (getFileSize v fw).2) := by
  unfold getFileSize
  split
  · rfl
  · split
    · rfl
    · rfl

theorem allocatePages_openFile (pages : UInt64) :
    fw.openFile.allocatePages pages =
      ((fw.allocatePages pages).1.openFile, (fw.allocatePages pages).2) := by
  unfold Firmware.allocatePages
  split
  · rfl
  · show (if fw.Free pages then _ else _) = _
    split
    · rfl
    · rfl

theorem close_openFile : fw.openFile.close = fw := rfl

/- Whether the file was read to its end. -/
def readOutcome (pages fileSize : UInt64) : Except Status UInt64 → Except Status LoadedKernel
  | .error status => .error status
  | .ok remaining =>
    if remaining ≠ 0 then .error efiLoadError else .ok ⟨kernelLoadAddress, pages, fileSize⟩

/- The file is closed on every way out; the pages stay allocated on all of them. -/
theorem loadKernel_eq : loadKernel v fw =
    if efiError v.openFile then (fw, .error v.openFile)
    else if efiError (getFileSize v fw).2.1 then (fw, .error (getFileSize v fw).2.1)
    else
      let (fw₁, status) := fw.allocatePages (kernelPages (v.size fw))
      if efiError status then (fw₁, .error status)
      else (fw₁, readOutcome (kernelPages (v.size fw)) (v.size fw) (readKernel v.reads (v.size fw))) := by
  unfold loadKernel Volume.size
  rw [getFileSize_openFile]
  rcases getFileSize v fw with ⟨_, sized, size⟩
  dsimp only
  rw [allocatePages_openFile]
  rcases fw.allocatePages (kernelPages size) with ⟨fw₁, status⟩
  dsimp only
  cases readKernel v.reads size with
  | error status => rfl
  | ok remaining =>
    simp only [readOutcome, close_openFile]
    by_cases hrest : remaining ≠ 0
    · rw [if_pos hrest, if_pos hrest]
    · rw [if_neg hrest, if_neg hrest]

theorem allocatePages_cases (pages : UInt64) :
    (fw.allocatePages pages).1 = fw ∨
      pages ≠ 0 ∧ fw.Free pages ∧ fw.allocatePages pages = (fw.take pages, efiSuccess) := by
  unfold Firmware.allocatePages
  split
  · exact Or.inl rfl
  · next hpages =>
    split
    · next hfree => exact Or.inr ⟨hpages, hfree, rfl⟩
    · exact Or.inl rfl

theorem allocatePages_openFiles (pages : UInt64) :
    (fw.allocatePages pages).1.openFiles = fw.openFiles := by
  obtain h | ⟨-, -, h⟩ := allocatePages_cases fw pages
  · rw [h]
  · rw [h]
    rfl

/- No file stays open, also where the pages stay allocated. -/
theorem loadKernel_openFiles : (loadKernel v fw).1.openFiles = fw.openFiles := by
  have hpages := allocatePages_openFiles fw (kernelPages (v.size fw))
  rw [loadKernel_eq]
  split
  · rfl
  · split
    · rfl
    · dsimp only
      split
      · exact hpages
      · exact hpages

theorem readOutcome_isOk (pages fileSize : UInt64) (r : Except Status UInt64) :
    (readOutcome pages fileSize r).isOk = true ↔ r = .ok 0 := by
  cases r with
  | error status => simp [readOutcome, Except.isOk, Except.toBool]
  | ok remaining =>
    by_cases hrest : remaining = 0
    · simp [readOutcome, hrest, Except.isOk, Except.toBool]
    · simp [readOutcome, hrest, Except.isOk, Except.toBool]

variable {v fw}

theorem tryVolume_of_mounts (h : v.Mounts) : tryVolume v fw = loadKernel v fw := by
  rw [tryVolume, if_neg (by rw [h.1]; decide), if_neg (by rw [h.2]; decide)]

/- The pages of a leaking attempt are gone. -/
theorem Volume.Leaks.tryVolume (h : v.Leaks fw) :
    succeedsIn Boot.tryVolume fw v = false ∧
      (Boot.tryVolume v fw).1 = fw.take (kernelPages (v.size fw)) := by
  have hgrant : fw.allocatePages (kernelPages (v.size fw)) =
      (fw.take (kernelPages (v.size fw)), efiSuccess) := by
    rw [Firmware.allocatePages, if_neg h.some_page, if_pos h.free]
  rw [succeedsIn, tryVolume_of_mounts h.opens.mounts, loadKernel_eq,
    if_neg (ne_true_of_eq_false h.opens.file), if_neg (ne_true_of_eq_false h.opens.size), hgrant]
  refine ⟨?_, rfl⟩
  exact eq_false_of_ne_true fun hok => h.unread ((readOutcome_isOk ..).mp hok)

/- Every other failing attempt puts the firmware back as it was. -/
theorem tryVolume_restores (hfail : succeedsIn tryVolume fw v = false) (h : ¬ v.Leaks fw) :
    (tryVolume v fw).1 = fw := by
  by_cases hmounts : v.Mounts
  · rw [succeedsIn, tryVolume_of_mounts hmounts, loadKernel_eq] at hfail
    rw [tryVolume_of_mounts hmounts, loadKernel_eq]
    by_cases hopen : efiError v.openFile = true
    · rw [if_pos hopen]
    rw [if_neg hopen] at hfail ⊢
    by_cases hsize : efiError (getFileSize v fw).2.1 = true
    · rw [if_pos hsize]
    rw [if_neg hsize] at hfail ⊢
    obtain hsame | ⟨hpages, hfree, hgrant⟩ := allocatePages_cases fw (kernelPages (v.size fw))
    · dsimp only
      split
      · exact hsame
      · exact hsame
    · rw [hgrant] at hfail
      have hunread : readKernel v.reads (v.size fw) ≠ .ok 0 := by
        intro hread
        exact Bool.false_ne_true (hfail.symm.trans ((readOutcome_isOk ..).mpr hread))
      exact absurd ⟨⟨hmounts, eq_false_of_ne_true hopen, eq_false_of_ne_true hsize⟩, hpages, hfree,
        hunread⟩ h
  · rw [tryVolume]
    by_cases hhandle : efiError v.handleProtocol = true
    · rw [if_pos hhandle]
    · rw [if_neg hhandle]
      by_cases hvolume : efiError v.openVolume = true
      · rw [if_pos hvolume]
      · exact absurd ⟨eq_false_of_ne_true hhandle, eq_false_of_ne_true hvolume⟩ hmounts

theorem take_allocated_ne {pages : UInt64} (hpages : pages ≠ 0) (hfree : fw.Free pages) :
    (fw.take pages).allocated ≠ fw.allocated := by
  have hpos : 0 < pages.toNat := Nat.pos_of_ne_zero fun h => hpages (UInt64.toNat_inj.mp h)
  intro h
  have hfirst := congrFun h (firstPage + 0)
  rw [hfree 0 hpos] at hfirst
  simp [Firmware.take, hpos] at hfirst

end Attempt

/-! ### The loop -/

/- What the loader promises. -/
structure BootsFromAny (status : Status) (volumes : List Volume) (fw : Firmware) : Prop where
  /-- A `load_kernel` that fails, wherever the loop has got to, leaves the pages
  as they were and its file closed. -/
  restores : ∀ pre v post, volumes = pre ++ v :: post → (volumeLoop status pre fw).2.isOk = false →
    v.Mounts → (loadKernel v (volumeLoop status pre fw).1).2.isOk = false →
    (loadKernel v (volumeLoop status pre fw).1).1.allocated = (volumeLoop status pre fw).1.allocated ∧
    (loadKernel v (volumeLoop status pre fw).1).1.openFiles = (volumeLoop status pre fw).1.openFiles
  /-- The kernel is loaded if and only if some volume, tried alone, loads it. -/
  boots : (volumeLoop status volumes fw).2.isOk = true ↔
    ∃ v ∈ volumes, (tryVolume v fw).2.isOk = true

/-- The loader boots whenever some volume can exactly if no volume before the
first that loads the kernel is left with its pages allocated. -/
theorem bootsFromAny_iff (status : Status) (volumes : List Volume) (fw : Firmware) :
    BootsFromAny status volumes fw ↔
      ∀ v ∈ beforeSuccess tryVolume fw volumes, ¬ v.Leaks fw := by
  constructor
  · intro h v hmem hleaks
    obtain ⟨pre, b, post, hsplit, hb, hfail, hpre⟩ :=
      exists_first (fun _ => tryVolume_restores) hmem hleaks
    obtain ⟨hloop, hstate⟩ := hpre status
    obtain ⟨-, htaken⟩ := hb.tryVolume
    rw [succeedsIn, tryVolume_of_mounts hb.opens.mounts] at hfail
    rw [tryVolume_of_mounts hb.opens.mounts] at htaken
    have hsame := (h.restores pre b post hsplit hloop hb.opens.mounts
      (by rw [volumeLoop, hstate]; exact hfail)).1
    rw [volumeLoop, hstate, htaken] at hsame
    exact take_allocated_ne hb.some_page hb.free hsame
  · intro h
    have hrestores : ∀ v ∈ beforeSuccess tryVolume fw volumes, (tryVolume v fw).1 = fw := by
      intro v hv
      exact tryVolume_restores (fails_of_mem_beforeSuccess hv) (h v hv)
    refine ⟨?_, ?_⟩
    · rintro pre v post rfl hloop hmounts hfail
      obtain ⟨hstate, hbefore⟩ := tryEach_restores hrestores hloop
      rw [volumeLoop, hstate] at hfail ⊢
      have hv : succeedsIn tryVolume fw v = false := by
        rw [succeedsIn, tryVolume_of_mounts hmounts]
        exact hfail
      have hleak : ¬ v.Leaks fw := by
        apply h
        rw [hbefore, beforeSuccess_of_fails hv]
        exact List.mem_append_right pre (List.mem_cons_self ..)
      have hsame := tryVolume_restores hv hleak
      rw [tryVolume_of_mounts hmounts] at hsame
      rw [hsame]
      exact ⟨rfl, rfl⟩
    · rw [volumeLoop, tryEach_isOk hrestores, List.any_eq_true]
      rfl

/- A volume with a kernel of `fileSize` bytes that gives `bytes` of them. -/
def volumeWith (fileSize bytes : UInt64) : Volume :=
  ⟨efiSuccess, efiSuccess, efiSuccess, efiBufferTooSmall, efiSuccess, efiSuccess, fileSize,
    [⟨efiSuccess, bytes⟩]⟩

def freeFirmware : Firmware := ⟨fun _ => false, 0, 0, efiNotFound⟩

/- The file on the first volume is cut short: its pages stay allocated, and the
good kernel on the second volume no longer finds room. -/
theorem short_read_blocks_next_volume :
    ¬ BootsFromAny efiSuccess [volumeWith 4096 512, volumeWith 4096 4096] freeFirmware := by
  intro h
  have hloaded := h.boots.mpr ⟨volumeWith 4096 4096, by simp, by decide⟩
  exact absurd hloaded (by decide)

end CasseOS.Boot
