import CasseOS.Boot.Uefi
import Mathlib.Data.List.GetD
import Mathlib.Order.Monotone.Basic

/-! # The bytes of the kernel (`bootloader/uefi/main.c`)

`load_kernel` with the memory it writes to: the firmware puts a part of the file at
the pointer it is given, as much of it as it likes, and may fail at any call. The
loop goes on until nothing remains, nothing more comes, or a call fails. -/

namespace CasseOS.Boot

/- The kernel file, and what the firmware answers while it is loaded. -/
structure KernelFile where
  content : List UInt8
  openFile : Status
  infoSize : Status
  allocatePool : Status
  getInfo : Status
  allocatePages : Status
  /-- The status of each call of `Read`, and the most it delivers. -/
  read : ℕ → ReadAnswer

/- The size that `GetInfo` tells. -/
def KernelFile.size (f : KernelFile) : UInt64 := UInt64.ofNat f.content.length

/- The volume the file is on, with the answers to some calls of `Read`. -/
def KernelFile.volume (f : KernelFile) (reads : List ReadAnswer) : Volume :=
  ⟨efiSuccess, efiSuccess, f.openFile, f.infoSize, f.allocatePool, f.getInfo, f.size, reads⟩

/- `AllocatePages` at the load address. -/
def KernelFile.allocate (f : KernelFile) (fw : Firmware) (pages : UInt64) : Firmware × Status :=
  (if efiError f.allocatePages then fw else fw.take pages, f.allocatePages)

structure Loader where
  fw : Firmware
  mem : ℕ → UInt8
  /-- The addresses that `Read` has written to. -/
  written : List ℕ
  /-- How often `Read` was called, and how far it has got in the file. -/
  calls : ℕ
  position : ℕ

def Loader.close (st : Loader) : Loader := {st with fw := st.fw.close}

/- Bytes are stored one after the other. -/
def store (mem : ℕ → UInt8) (address : ℕ) (bytes : List UInt8) : ℕ → UInt8 :=
  fun a => if address ≤ a then bytes.getD (a - address) (mem a) else mem a

/- The part of the file that a call delivers. -/
def KernelFile.data (f : KernelFile) (st : Loader) (requested : UInt64) : List UInt8 :=
  (f.content.drop st.position).take (min (f.read st.calls).bytes requested).toNat

/- `Read`: it never delivers more than it is asked for. -/
def KernelFile.readInto (f : KernelFile) (st : Loader) (requested writePtr : UInt64) :
    Loader × Status × UInt64 :=
  let data := f.data st requested
  ({st with
      mem := store st.mem writePtr.toNat data
      written := st.written ++ (List.range data.length).map (writePtr.toNat + ·)
      calls := st.calls + 1
      position := st.position + data.length},
    (f.read st.calls).status, UInt64.ofNat data.length)

/-- The loop that reads the file (`main.c:102-117`), with at most `fuel` rounds. -/
def readLoop (f : KernelFile) : ℕ → Loader → UInt64 → UInt64 →
    Option (Loader × Except Status UInt64)
  | 0, _, _, _ => none
  | fuel + 1, st, remaining, writePtr =>
    if remaining = 0 then some (st, .ok 0)
    else
      let (st, status, chunk) := f.readInto st remaining writePtr
      if efiError status then some (st, .error status)
      else if chunk = 0 then some (st, .ok remaining)
      else readLoop f fuel st (remaining - chunk) (writePtr + chunk)

/-- `load_kernel` (`main.c:74-128`) with its output parameters; they are never NULL. -/
def loadKernelInto (f : KernelFile) (fuel : ℕ) (st : Loader) (out : LoadedKernel) :
    Option (Loader × Status × LoadedKernel) :=
  if efiError f.openFile then some (st, f.openFile, out)
  else
    let (fw, status, fileSize) := getFileSize (f.volume []) st.fw.openFile
    let st := {st with fw}
    if efiError status then some (st.close, status, out)
    else
      let pages := kernelPages fileSize
      let (fw, status) := f.allocate st.fw pages
      let st := {st with fw}
      if efiError status then some (st.close, status, out)
      else (readLoop f fuel st fileSize (UInt64.ofNat kernelLoadAddress)).map fun r =>
        match r.2 with
        | .error status => (r.1.close, status, out)
        | .ok remaining =>
          if remaining ≠ 0 then (r.1.close, efiLoadError, out)
          else (r.1.close, efiSuccess, ⟨kernelLoadAddress, pages, fileSize⟩)

/-! ### What the calls deliver -/

/- How much of the file `n` calls deliver, if none of them fails. -/
def KernelFile.delivered (f : KernelFile) : ℕ → ℕ
  | 0 => 0
  | n + 1 => min f.content.length (f.delivered n + (f.read n).bytes.toNat)

/- The call succeeds and delivers something. -/
def KernelFile.Good (f : KernelFile) (k : ℕ) : Prop :=
  efiError (f.read k).status = false ∧ (f.read k).bytes ≠ 0

/- Some calls in a row deliver the whole file. -/
def KernelFile.Delivers (f : KernelFile) : Prop :=
  ∃ n, f.delivered n = f.content.length ∧ ∀ k < n, f.Good k

theorem delivered_mono (f : KernelFile) : Monotone f.delivered := by
  refine monotone_nat_of_le_succ fun n => ?_
  have hle : f.delivered n ≤ f.content.length := by
    cases n with
    | zero => exact Nat.zero_le _
    | succ n => exact Nat.min_le_left _ _
  rw [KernelFile.delivered]
  omega

/- A call that fails or delivers nothing before the end is the last one. -/
theorem not_delivers {f : KernelFile} {n : ℕ} (hn : f.delivered n < f.content.length)
    (hbad : ¬ f.Good n) : ¬ f.Delivers := by
  rintro ⟨m, hm, hgood⟩
  have hlt : n < m := by
    by_contra hge
    have hle := delivered_mono f (Nat.le_of_not_lt hge)
    omega
  exact hbad (hgood n hlt)

/-! ### The loop -/

/- Part way through the file. -/
structure Loading (f : KernelFile) (st : Loader) (remaining writePtr : UInt64) : Prop where
  rest : st.position + remaining.toNat = f.content.length
  pointer : writePtr.toNat = kernelLoadAddress + st.position
  delivered : f.delivered st.calls = st.position
  good : ∀ k < st.calls, f.Good k
  holds : ∀ i < st.position, st.mem (kernelLoadAddress + i) = f.content.getD i 0
  inside : ∀ a ∈ st.written, kernelLoadAddress ≤ a ∧ a < kernelLoadAddress + f.content.length

section Round
variable {f : KernelFile} {st : Loader} {remaining writePtr : UInt64}

theorem length_data (h : Loading f st remaining writePtr) :
    (f.data st remaining).length = min (f.read st.calls).bytes.toNat remaining.toNat := by
  have hmin : (min (f.read st.calls).bytes remaining).toNat =
      min (f.read st.calls).bytes.toNat remaining.toNat := by
    rw [UInt64.min_def]
    split_ifs with hle
    · exact (Nat.min_eq_left (UInt64.le_iff_toNat_le.mp hle)).symm
    · have hlt := UInt64.lt_iff_toNat_lt.mp (UInt64.not_le.mp hle)
      omega
  have hrest := h.rest
  rw [KernelFile.data, List.length_take, List.length_drop, hmin]
  omega

theorem getD_data (h : Loading f st remaining writePtr) {i : ℕ} (d : UInt8)
    (hi : i < (f.data st remaining).length) :
    (f.data st remaining).getD i d = f.content.getD (st.position + i) 0 := by
  have hlen := length_data h
  have hrest := h.rest
  have hin : st.position + i < f.content.length := by omega
  rw [List.getD_eq_getElem _ _ hi, List.getD_eq_getElem _ _ hin]
  simp only [KernelFile.data, List.getElem_take, List.getElem_drop]

theorem toNat_chunk (h : Loading f st remaining writePtr) :
    (f.readInto st remaining writePtr).2.2.toNat =
      min (f.read st.calls).bytes.toNat remaining.toNat := by
  have hlt := remaining.toNat_lt
  have hlen := length_data h
  have hchunk : (f.readInto st remaining writePtr).2.2.toNat = (f.data st remaining).length :=
    UInt64.toNat_ofNat_of_lt' (Nat.lt_of_le_of_lt (hlen.le.trans (Nat.min_le_right _ _)) hlt)
  rw [hchunk, hlen]

/- A call writes to the place of the bytes it delivers, whatever its status. -/
theorem Loading.readInto_inside (h : Loading f st remaining writePtr) :
    ∀ a ∈ (f.readInto st remaining writePtr).1.written,
      kernelLoadAddress ≤ a ∧ a < kernelLoadAddress + f.content.length := by
  intro a ha
  obtain ha | ha := List.mem_append.mp ha
  · exact h.inside a ha
  · obtain ⟨i, hi, rfl⟩ := List.mem_map.mp ha
    have hlt := List.mem_range.mp hi
    have hlen := length_data h
    have hrest := h.rest
    have hpointer := h.pointer
    omega

/- A call that succeeds and delivers something leads on. -/
theorem Loading.step (h : Loading f st remaining writePtr) (hsize : f.content.length < 2 ^ 63)
    (hgood : f.Good st.calls) :
    Loading f (f.readInto st remaining writePtr).1
      (remaining - (f.readInto st remaining writePtr).2.2)
      (writePtr + (f.readInto st remaining writePtr).2.2) := by
  have hlen := length_data h
  have hchunk := toNat_chunk h
  have hrest := h.rest
  have hpointer := h.pointer
  have hload : kernelLoadAddress = 0x80000 := rfl
  have hremaining : (remaining - (f.readInto st remaining writePtr).2.2).toNat =
      remaining.toNat - (f.data st remaining).length := by
    rw [UInt64.toNat_sub_of_le _ _ (UInt64.le_iff_toNat_le.mpr (by omega)), hchunk, hlen]
  have hptr : (writePtr + (f.readInto st remaining writePtr).2.2).toNat =
      writePtr.toNat + (f.data st remaining).length := by
    rw [UInt64.toNat_add, hchunk, hlen, Nat.mod_eq_of_lt (by omega)]
  have hposition : (f.readInto st remaining writePtr).1.position =
      st.position + (f.data st remaining).length := rfl
  refine ⟨by omega, by omega, ?_, ?_, ?_, h.readInto_inside⟩
  · show min f.content.length (f.delivered st.calls + (f.read st.calls).bytes.toNat) = _
    rw [h.delivered, hposition]
    omega
  · intro k hk
    obtain hlt | rfl := Nat.lt_succ_iff_lt_or_eq.mp hk
    · exact h.good k hlt
    · exact hgood
  · intro i hi
    show store st.mem writePtr.toNat (f.data st remaining) (kernelLoadAddress + i) = _
    rw [hposition] at hi
    unfold store
    by_cases hold : i < st.position
    · rw [if_neg (by omega)]
      exact h.holds i hold
    · have hoff : kernelLoadAddress + i - writePtr.toNat = i - st.position := by omega
      have hat : st.position + (i - st.position) = i := by omega
      rw [if_pos (by omega), hoff, getD_data h _ (by omega), hat]

end Round

/- Where the loop ends. -/
inductive Outcome (f : KernelFile) (st : Loader) : Except Status UInt64 → Prop where
  | whole (hdelivers : f.Delivers)
    (hholds : ∀ i < f.content.length, st.mem (kernelLoadAddress + i) = f.content.getD i 0) :
    Outcome f st (.ok 0)
  | failed {status : Status} (hstatus : efiError status = true) (hdelivers : ¬ f.Delivers) :
    Outcome f st (.error status)
  | short {remaining : UInt64} (hremaining : remaining ≠ 0) (hdelivers : ¬ f.Delivers) :
    Outcome f st (.ok remaining)

/- The induction is on the fuel; every round but the last makes the rest shorter. -/
theorem readLoop_spec {f : KernelFile} (hsize : f.content.length < 2 ^ 63) (fuel : ℕ) {st : Loader}
    {remaining writePtr : UInt64} (h : Loading f st remaining writePtr)
    (hfuel : remaining.toNat < fuel) :
    ∃ st' r, readLoop f fuel st remaining writePtr = some (st', r) ∧ st'.fw = st.fw ∧
      (∀ a ∈ st'.written, kernelLoadAddress ≤ a ∧ a < kernelLoadAddress + f.content.length) ∧
      Outcome f st' r := by
  induction fuel generalizing st remaining writePtr with
  | zero => exact absurd hfuel (Nat.not_lt_zero _)
  | succ fuel ih =>
    have hrest := h.rest
    rw [readLoop]
    by_cases hdone : remaining = 0
    · have hzero : remaining.toNat = 0 := by rw [hdone, UInt64.toNat_zero]
      rw [if_pos hdone]
      refine ⟨st, .ok 0, rfl, rfl, h.inside, .whole ⟨st.calls, ?_, h.good⟩ ?_⟩
      · rw [h.delivered]
        omega
      · exact fun i hi => h.holds i (by omega)
    · have hpos : remaining.toNat ≠ 0 := fun hz => hdone (UInt64.toNat.inj hz)
      have hbefore : f.delivered st.calls < f.content.length := by
        rw [h.delivered]
        omega
      have hchunk := toNat_chunk h
      rw [if_neg hdone]
      dsimp only
      by_cases hfail : efiError (f.readInto st remaining writePtr).2.1 = true
      · rw [if_pos hfail]
        refine ⟨_, _, rfl, rfl, h.readInto_inside, .failed hfail (not_delivers hbefore ?_)⟩
        exact fun hgood => Bool.false_ne_true (hgood.1.symm.trans hfail)
      · rw [if_neg hfail]
        by_cases hnone : (f.readInto st remaining writePtr).2.2 = 0
        · rw [if_pos hnone]
          rw [hnone, UInt64.toNat_zero] at hchunk
          refine ⟨_, _, rfl, rfl, h.readInto_inside, .short hdone (not_delivers hbefore ?_)⟩
          intro hgood
          have hbytes : (f.read st.calls).bytes.toNat ≠ 0 := fun hz => hgood.2 (UInt64.toNat.inj hz)
          omega
        · have hne : (f.readInto st remaining writePtr).2.2.toNat ≠ 0 :=
            fun hz => hnone (UInt64.toNat.inj hz)
          have hgood : f.Good st.calls := by
            refine ⟨eq_false_of_ne_true hfail, fun hz => ?_⟩
            rw [hz, UInt64.toNat_zero] at hchunk
            omega
          have hless : (remaining - (f.readInto st remaining writePtr).2.2).toNat < fuel := by
            rw [UInt64.toNat_sub_of_le _ _ (UInt64.le_iff_toNat_le.mpr (by omega))]
            omega
          rw [if_neg hnone]
          exact ih (h.step hsize hgood) hless

/-! ### The function -/

section
variable {f : KernelFile} {fw : Firmware}

/- The file is opened, sized, and has its pages. -/
structure KernelFile.Prepared (f : KernelFile) : Prop where
  openFile : efiError f.openFile = false
  allocatePool : efiError f.allocatePool = false
  getInfo : efiError f.getInfo = false
  allocatePages : efiError f.allocatePages = false

theorem getFileSize_eq (hinfo : f.infoSize = efiBufferTooSmall) (reads : List ReadAnswer) :
    (getFileSize (f.volume reads) fw).2 =
      if efiError f.allocatePool then (f.allocatePool, 0)
      else (f.getInfo, if efiError f.getInfo then 0 else f.size) := by
  have hagain : ¬(f.volume reads).infoSize ≠ efiBufferTooSmall := not_not.mpr hinfo
  have hpool : (f.volume reads).allocatePool = f.allocatePool := rfl
  unfold getFileSize
  rw [if_neg hagain, hpool]
  by_cases hfail : efiError f.allocatePool = true
  · rw [if_pos hfail, if_pos hfail]
  · rw [if_neg hfail, if_neg hfail]
    rfl

theorem getFileSize_status (fw : Firmware) (hinfo : f.infoSize = efiBufferTooSmall) (reads : List ReadAnswer) :
    efiError (getFileSize (f.volume reads) fw).2.1 = false ↔
      efiError f.allocatePool = false ∧ efiError f.getInfo = false := by
  rw [getFileSize_eq hinfo]
  by_cases hpool : efiError f.allocatePool = true
  · rw [if_pos hpool]
    exact ⟨fun h => absurd hpool (ne_true_of_eq_false h), fun h => h.1⟩
  · rw [if_neg hpool]
    exact ⟨fun h => ⟨eq_false_of_ne_true hpool, h⟩, fun h => h.2⟩

/- Where the size is told, it is the true one. -/
theorem getFileSize_size (fw : Firmware) (hinfo : f.infoSize = efiBufferTooSmall) (reads : List ReadAnswer)
    (h : efiError (getFileSize (f.volume reads) fw).2.1 = false) :
    (getFileSize (f.volume reads) fw).2.2 = f.size := by
  obtain ⟨hpool, hget⟩ := (getFileSize_status fw hinfo reads).mp h
  rw [getFileSize_eq hinfo, if_neg (ne_true_of_eq_false hpool), if_neg (ne_true_of_eq_false hget)]

theorem toNat_size (hsize : f.content.length < 2 ^ 63) : f.size.toNat = f.content.length :=
  UInt64.toNat_ofNat_of_lt' (hsize.trans (by decide))

/- Before the first round. -/
theorem loading_start (fw : Firmware) (mem : ℕ → UInt8) (hsize : f.content.length < 2 ^ 63) :
    Loading f ⟨fw, mem, [], 0, 0⟩ f.size (UInt64.ofNat kernelLoadAddress) :=
  ⟨by rw [toNat_size hsize]; exact Nat.zero_add _, rfl, rfl, fun k hk => absurd hk (Nat.not_lt_zero k),
    fun i hi => absurd hi (Nat.not_lt_zero i), fun a ha => absurd ha List.not_mem_nil⟩

/- The pages that are asked for have room for the file. -/
theorem kernelPages_room (hsize : f.content.length < 2 ^ 63) :
    f.content.length ≤ (kernelPages f.size).toNat * pageSize := by
  have hlen := toNat_size hsize
  have hround : (f.size + 4096 - 1).toNat = f.content.length + 4095 := by
    have hadd : (f.size + 4096).toNat = f.content.length + 4096 := by
      rw [UInt64.toNat_add, hlen]
      exact Nat.mod_eq_of_lt (by show _ + 4096 < _; omega)
    rw [UInt64.toNat_sub_of_le _ _ (UInt64.le_iff_toNat_le.mpr (by rw [hadd]; show 1 ≤ _; omega)), hadd]
    rfl
  have hpages : (kernelPages f.size).toNat = (f.content.length + 4095) / 4096 := by
    rw [kernelPages, UInt64.toNat_div, hround]
    rfl
  have hpage : pageSize = 4096 := rfl
  rw [hpages, hpage]
  omega

/- What is promised of a call that ends with that status and leaves that behind. -/
structure LoadsWhole (f : KernelFile) (out : LoadedKernel) (st : Loader) (status : Status)
    (out' : LoadedKernel) : Prop where
  /-- Bytes are written only where pages have been allocated. -/
  inside : ∀ a ∈ st.written, efiError f.allocatePages = false ∧ kernelLoadAddress ≤ a ∧
    a < kernelLoadAddress + (kernelPages f.size).toNat * pageSize
  success_iff : efiError status = false ↔ f.Prepared ∧ f.Delivers
  loaded : efiError status = false → status = efiSuccess ∧ out'.address = kernelLoadAddress ∧
    (∀ i < f.content.length, st.mem (out'.address + i) = f.content.getD i 0) ∧
    out'.fileSize.toNat = f.content.length ∧
    out'.fileSize.toNat ≤ out'.pages.toNat * pageSize ∧ out'.pages = kernelPages f.size
  failed : efiError status = true → out' = out

/- Before the loop nothing is written. -/
theorem loadsWhole_early {out : LoadedKernel} {st : Loader} {status : Status}
    (hwritten : st.written = []) (hstatus : efiError status = true) (hprepared : ¬ f.Prepared) :
    LoadsWhole f out st status out := by
  refine ⟨?_, ?_, fun h => absurd hstatus (ne_true_of_eq_false h), fun _ => rfl⟩
  · rw [hwritten]
    exact fun a ha => absurd ha List.not_mem_nil
  · exact ⟨fun h => absurd hstatus (ne_true_of_eq_false h), fun h => absurd h.1 hprepared⟩

/-- `load_kernel` ends, and has loaded the whole file or failed, however the firmware
splits it. -/
theorem load_kernel_whole (f : KernelFile) (fw : Firmware) (mem : ℕ → UInt8) (out : LoadedKernel)
    (hsize : f.content.length < 2 ^ 63) (hinfo : f.infoSize = efiBufferTooSmall) (fuel : ℕ)
    (hfuel : f.content.length < fuel) :
    ∃ st status out', loadKernelInto f fuel ⟨fw, mem, [], 0, 0⟩ out = some (st, status, out') ∧
      LoadsWhole f out st status out' := by
  unfold loadKernelInto
  by_cases hopen : efiError f.openFile = true
  · rw [if_pos hopen]
    exact ⟨_, _, _, rfl, loadsWhole_early rfl hopen fun h => ne_true_of_eq_false h.openFile hopen⟩
  rw [if_neg hopen]
  have hstatus := getFileSize_status fw.openFile hinfo []
  have hvalue := getFileSize_size fw.openFile hinfo []
  generalize getFileSize (f.volume []) fw.openFile = g at hstatus hvalue ⊢
  obtain ⟨fw₁, sized, size⟩ := g
  dsimp only at hstatus hvalue ⊢
  by_cases hsized : efiError sized = true
  · rw [if_pos hsized]
    refine ⟨_, _, _, rfl, loadsWhole_early rfl hsized fun h => ?_⟩
    exact ne_true_of_eq_false (hstatus.mpr ⟨h.allocatePool, h.getInfo⟩) hsized
  rw [if_neg hsized, hvalue (eq_false_of_ne_true hsized)]
  obtain ⟨hpool, hget⟩ := hstatus.mp (eq_false_of_ne_true hsized)
  by_cases hpages : efiError f.allocatePages = true
  · rw [KernelFile.allocate, if_pos hpages, if_pos hpages]
    exact ⟨_, _, _, rfl, loadsWhole_early rfl hpages fun h =>
      ne_true_of_eq_false h.allocatePages hpages⟩
  rw [KernelFile.allocate, if_neg hpages]
  dsimp only
  rw [if_neg hpages]
  have hprepared : f.Prepared := ⟨eq_false_of_ne_true hopen, hpool, hget, eq_false_of_ne_true hpages⟩
  have hstart := loading_start (fw₁.take (kernelPages f.size)) mem hsize
  obtain ⟨st, r, hloop, -, hwritten, houtcome⟩ :=
    readLoop_spec hsize fuel hstart (by rw [toNat_size hsize]; exact hfuel)
  have hroom := kernelPages_room hsize
  have hinside : ∀ a ∈ st.written, efiError f.allocatePages = false ∧ kernelLoadAddress ≤ a ∧
      a < kernelLoadAddress + (kernelPages f.size).toNat * pageSize := by
    intro a ha
    obtain ⟨hlow, hhigh⟩ := hwritten a ha
    exact ⟨eq_false_of_ne_true hpages, hlow, by omega⟩
  rw [hloop, Option.map_some]
  cases houtcome with
  | whole hdelivers hholds =>
    refine ⟨_, _, _, rfl, hinside, ⟨fun _ => ⟨hprepared, hdelivers⟩, fun _ => by decide⟩,
      fun _ => ⟨rfl, rfl, hholds, toNat_size hsize, ?_, rfl⟩, fun h => absurd h (by decide)⟩
    exact (toNat_size hsize).le.trans hroom
  | failed hfailed hdelivers =>
    refine ⟨_, _, _, rfl, hinside, ⟨fun h => ?_, fun h => absurd h.2 hdelivers⟩, fun h => ?_,
      fun _ => rfl⟩
    · exact absurd hfailed (ne_true_of_eq_false h)
    · exact absurd hfailed (ne_true_of_eq_false h)
  | short hremaining hdelivers =>
    dsimp only
    rw [if_pos hremaining]
    exact ⟨_, _, _, rfl, hinside, ⟨fun h => absurd h (by decide), fun h => absurd h.2 hdelivers⟩,
      fun h => absurd h (by decide), fun _ => rfl⟩

/- A file of two pages that comes in two parts. -/
def twoPageFile : KernelFile :=
  ⟨List.replicate 8192 0xCC, efiSuccess, efiBufferTooSmall, efiSuccess, efiSuccess, efiSuccess,
    fun _ => ⟨efiSuccess, 4096⟩⟩

theorem load_kernel_whole_two : ∃ st status out', loadKernelInto twoPageFile 8193
    ⟨freeFirmware, fun _ => 0, [], 0, 0⟩ ⟨0, 0, 0⟩ = some (st, status, out') ∧
      LoadsWhole twoPageFile ⟨0, 0, 0⟩ st status out' :=
  load_kernel_whole twoPageFile freeFirmware (fun _ => 0) ⟨0, 0, 0⟩
    (by rw [twoPageFile, List.length_replicate]; decide) rfl 8193
    (by rw [twoPageFile, List.length_replicate]; decide)

/-! ### The loader without the bytes -/

theorem chunk_eq {st : Loader} {remaining writePtr : UInt64} (h : Loading f st remaining writePtr) :
    (f.readInto st remaining writePtr).2.2 = min (f.read st.calls).bytes remaining := by
  apply UInt64.toNat.inj
  rw [toNat_chunk h, UInt64.min_def]
  split_ifs with hle
  · exact Nat.min_eq_left (UInt64.le_iff_toNat_le.mp hle)
  · have hlt := UInt64.lt_iff_toNat_lt.mp (UInt64.not_le.mp hle)
    omega

/- The loop is `readKernel` on the answers it gets. -/
theorem readLoop_readKernel (hsize : f.content.length < 2 ^ 63) (fuel : ℕ) {st st' : Loader}
    {remaining writePtr : UInt64} {r : Except Status UInt64} (h : Loading f st remaining writePtr)
    (hloop : readLoop f fuel st remaining writePtr = some (st', r)) :
    readKernel ((List.range' st.calls fuel).map f.read) remaining = r := by
  induction fuel generalizing st remaining writePtr with
  | zero => exact absurd hloop (by simp [readLoop])
  | succ fuel ih =>
    rw [readLoop] at hloop
    rw [List.range'_succ, List.map_cons, readKernel]
    dsimp only at hloop ⊢
    by_cases hdone : remaining = 0
    · rw [if_pos hdone] at hloop ⊢
      exact congrArg Prod.snd (Option.some.inj hloop)
    rw [if_neg hdone] at hloop ⊢
    by_cases hfail : efiError (f.readInto st remaining writePtr).2.1 = true
    · rw [if_pos hfail] at hloop
      rw [if_pos (show efiError (f.read st.calls).status = true from hfail)]
      exact congrArg Prod.snd (Option.some.inj hloop)
    rw [if_neg hfail] at hloop
    rw [if_neg (show ¬efiError (f.read st.calls).status = true from hfail), ← chunk_eq h]
    by_cases hnone : (f.readInto st remaining writePtr).2.2 = 0
    · rw [if_pos hnone] at hloop ⊢
      exact congrArg Prod.snd (Option.some.inj hloop)
    rw [if_neg hnone] at hloop ⊢
    have hgood : f.Good st.calls := by
      refine ⟨eq_false_of_ne_true hfail, fun hz => hnone ?_⟩
      rw [chunk_eq h, hz]
      exact UInt64.toNat.inj (by rw [UInt64.min_def, if_pos (UInt64.zero_le)])
    exact ih (h.step hsize hgood) hloop

/- What the loop over the volumes is told: the error, or the output parameters. -/
def loadResult (status : Status) (out : LoadedKernel) : Except Status LoadedKernel :=
  if efiError status then .error status else .ok out

/- On a firmware that answers the request for pages in the same way, the two models of
`load_kernel` agree. -/
theorem loadKernel_refines (fw : Firmware) (mem : ℕ → UInt8) (out : LoadedKernel)
    (hsize : f.content.length < 2 ^ 63) (hinfo : f.infoSize = efiBufferTooSmall) (fuel : ℕ)
    (hfuel : f.content.length < fuel)
    (hallocate : fw.openFile.allocatePages (kernelPages f.size) =
      f.allocate fw.openFile (kernelPages f.size)) :
    (loadKernelInto f fuel ⟨fw, mem, [], 0, 0⟩ out).map (fun r => (r.1.fw, loadResult r.2.1 r.2.2)) =
      some (loadKernel (f.volume ((List.range fuel).map f.read)) fw) := by
  have hstatus := getFileSize_status fw hinfo []
  have hvalue := getFileSize_size fw hinfo []
  have hopened : getFileSize (f.volume []) fw.openFile =
      (fw.openFile, (getFileSize (f.volume []) fw).2) := getFileSize_openFile _ fw
  have hopened' : getFileSize (f.volume ((List.range fuel).map f.read)) fw.openFile =
      (fw.openFile, (getFileSize (f.volume []) fw).2) := hopened
  unfold loadKernelInto loadKernel
  rw [hopened, hopened']
  generalize (getFileSize (f.volume []) fw).2 = g at hstatus hvalue ⊢
  obtain ⟨sized, size⟩ := g
  dsimp only at hstatus hvalue ⊢
  by_cases hopen : efiError f.openFile = true
  · rw [if_pos hopen, if_pos (show efiError (f.volume _).openFile = true from hopen), Option.map_some,
      loadResult, if_pos hopen]
    rfl
  rw [if_neg hopen, if_neg (show ¬efiError (f.volume _).openFile = true from hopen)]
  by_cases hsized : efiError sized = true
  · rw [if_pos hsized, if_pos hsized, Option.map_some, loadResult, if_pos hsized]
    rfl
  rw [if_neg hsized, if_neg hsized, hvalue (eq_false_of_ne_true hsized), hallocate]
  by_cases hpages : efiError f.allocatePages = true
  · rw [KernelFile.allocate]
    dsimp only
    rw [if_pos hpages, if_pos hpages, if_pos hpages, Option.map_some, loadResult, if_pos hpages]
    rfl
  rw [KernelFile.allocate]
  dsimp only
  rw [if_neg hpages, if_neg hpages, if_neg hpages]
  have hstart := loading_start (fw.openFile.take (kernelPages f.size)) mem hsize
  obtain ⟨st, r, hloop, hfw, -, houtcome⟩ :=
    readLoop_spec hsize fuel hstart (by rw [toNat_size hsize]; exact hfuel)
  have hread := readLoop_readKernel hsize fuel hstart hloop
  rw [← List.range_eq_range'] at hread
  have hreads : (f.volume ((List.range fuel).map f.read)).reads = (List.range fuel).map f.read := rfl
  rw [hloop, hreads, hread, Option.map_some, Option.map_some]
  cases houtcome with
  | whole hdelivers hholds =>
    have hsuccess : ¬efiError efiSuccess = true := by decide
    dsimp only
    rw [if_neg (not_not.mpr rfl), if_neg (not_not.mpr rfl), loadResult, if_neg hsuccess]
    simp only [Loader.close, hfw]
  | failed hfailed hdelivers =>
    rw [loadResult, if_pos hfailed]
    simp only [Loader.close, hfw]
  | short hremaining hdelivers =>
    have herror : efiError efiLoadError = true := by decide
    dsimp only
    rw [if_pos hremaining, if_pos hremaining, loadResult, if_pos herror]
    simp only [Loader.close, hfw]

end

end CasseOS.Boot
