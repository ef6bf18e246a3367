import CasseOS.Pci.Config
import CasseOS.Usb.Controllers
import Mathlib.Data.List.Find

/-! # Base address registers (`drivers/pci.c`)

`pci_read_bars` decodes the six base address registers of a function into its
record. A 64-bit register takes two places; the loop skips the second one, and with
it the entry of the record that belongs to it. -/

namespace CasseOS.Pci

/- An entry of `bar` and of `is_memory_mapped` is written. -/
def PciDevice.setBar (dev : PciDevice) (i : ℕ) (entry : UInt32 × UInt8) : PciDevice :=
  {dev with
    bar := Function.update dev.bar i entry.1
    isMemoryMapped := Function.update dev.isMemoryMapped i entry.2}

/-- The body of the loop (`pci.c:81-105`): the record, and `bar_index` after it. -/
def readBar (barIndex : ℕ) (dev : PciDevice) (p : ConfigPorts) :
    (PciDevice × ℕ) × ConfigPorts :=
  let off := UInt8.ofNat (0x10 + barIndex * 4)
  let (barValue, p) := pciConfigRead dev.bus dev.device dev.function off p
  if barValue = 0 then ((dev.setBar barIndex (0, 0), barIndex), p)
  else if barValue &&& 0x1 ≠ 0 then
    ((dev.setBar barIndex (barValue &&& 0xFFFFFFFC, 0), barIndex), p)
  else
    let dev := dev.setBar barIndex (barValue &&& 0xFFFFFFF0, 1)
    if barValue &&& 0x6 = 0x4 then
      let (_, p) := pciConfigRead dev.bus dev.device dev.function (off + 4) p
      ((dev, barIndex + 1), p)
    else ((dev, barIndex), p)

theorem readBar_index (barIndex : ℕ) (dev : PciDevice) (p : ConfigPorts) :
    barIndex ≤ (readBar barIndex dev p).1.2 := by
  unfold readBar
  dsimp only
  split_ifs
  · exact le_rfl
  · exact le_rfl
  · exact Nat.le_succ barIndex
  · exact le_rfl

/- The loop; `bar_index` stays far below the limit of its type. -/
def readBarsLoop (barIndex : ℕ) (dev : PciDevice) (p : ConfigPorts) : PciDevice × ConfigPorts :=
  if h : barIndex < 6 then
    readBarsLoop ((readBar barIndex dev p).1.2 + 1) (readBar barIndex dev p).1.1
      (readBar barIndex dev p).2
  else (dev, p)
termination_by 6 - barIndex
decreasing_by
  have hle := readBar_index barIndex dev p
  omega

/-- `pci_read_bars` (`pci.c:80-107`). -/
def pciReadBars (dev : PciDevice) (p : ConfigPorts) : PciDevice × ConfigPorts :=
  readBarsLoop 0 dev p

/-! ### What the hardware says -/

/- The base address registers of a function. -/
def barRegister (bus device function : UInt8) (p : ConfigPorts) (i : ℕ) : UInt32 :=
  p.dwords (configAddress bus device function (UInt8.ofNat (0x10 + i * 4)))

def PciDevice.registers (dev : PciDevice) (p : ConfigPorts) : ℕ → UInt32 :=
  barRegister dev.bus dev.device dev.function p

def is64Bit (v : UInt32) : Bool := v &&& 0x1 = 0 ∧ v &&& 0x6 = 0x4

/- The register is the upper half of a 64-bit pair. -/
def isUpper (v : ℕ → UInt32) : ℕ → Bool
  | 0 => false
  | i + 1 => !isUpper v i && is64Bit (v i)

/- The address that a register holds, and whether it is one of memory. -/
def decodeBar (v : UInt32) : UInt32 × UInt8 :=
  if v = 0 then (0, 0)
  else if v &&& 0x1 ≠ 0 then (v &&& 0xFFFFFFFC, 0)
  else (v &&& 0xFFFFFFF0, 1)

/- The record after reading, according to the hardware alone. -/
def barEntry (v : ℕ → UInt32) (i : ℕ) : UInt32 × UInt8 :=
  if isUpper v i then (0, 0) else decodeBar (v i)

/-! ### The loop -/

theorem readBar_eq (barIndex : ℕ) (dev : PciDevice) (p : ConfigPorts) :
    (readBar barIndex dev p).1 = (dev.setBar barIndex (decodeBar (dev.registers p barIndex)),
        if is64Bit (dev.registers p barIndex) then barIndex + 1 else barIndex) ∧
      (readBar barIndex dev p).2.dwords = p.dwords := by
  have hread : (pciConfigRead dev.bus dev.device dev.function
      (UInt8.ofNat (0x10 + barIndex * 4)) p).1 = dev.registers p barIndex := rfl
  unfold readBar decodeBar is64Bit
  dsimp only
  rw [hread]
  by_cases h0 : dev.registers p barIndex = 0
  · rw [if_pos h0, if_pos h0, h0]
    exact ⟨rfl, rfl⟩
  · rw [if_neg h0, if_neg h0]
    by_cases h1 : dev.registers p barIndex &&& 0x1 = 0
    · rw [if_neg (not_not.mpr h1), if_neg (not_not.mpr h1)]
      by_cases h6 : dev.registers p barIndex &&& 0x6 = 0x4
      · rw [if_pos h6, if_pos (decide_eq_true ⟨h1, h6⟩)]
        exact ⟨rfl, rfl⟩
      · rw [if_neg h6, if_neg fun h => h6 (of_decide_eq_true h).2]
        exact ⟨rfl, rfl⟩
    · rw [if_pos h1, if_pos h1, if_neg fun h => h1 (of_decide_eq_true h).1]
      exact ⟨rfl, rfl⟩

/- The record with the entries from `k` on read, but for the ones that are skipped. -/
def PciDevice.barsFrom (dev : PciDevice) (v : ℕ → UInt32) (k : ℕ) : PciDevice :=
  {dev with
    bar := fun i => if k ≤ i ∧ i < 6 ∧ isUpper v i = false then (decodeBar (v i)).1 else dev.bar i
    isMemoryMapped := fun i =>
      if k ≤ i ∧ i < 6 ∧ isUpper v i = false then (decodeBar (v i)).2 else dev.isMemoryMapped i}

theorem barsFrom_end (dev : PciDevice) (v : ℕ → UInt32) {k : ℕ} (hk : 6 ≤ k) :
    dev.barsFrom v k = dev := by
  have hno : ∀ i, ¬(k ≤ i ∧ i < 6 ∧ isUpper v i = false) := fun i hi => by omega
  simp only [PciDevice.barsFrom, if_neg (hno _)]

/- One round, and the rest of the loop from the next register that is not skipped. -/
theorem barsFrom_setBar (dev : PciDevice) (v : ℕ → UInt32) {k k' : ℕ} (hk : k < 6) (hlt : k < k')
    (hv : isUpper v k = false) (hskip : ∀ i, k < i → i < k' → isUpper v i = true) :
    (dev.setBar k (decodeBar (v k))).barsFrom v k' = dev.barsFrom v k := by
  have hiff : ∀ i, i ≠ k → (k' ≤ i ∧ i < 6 ∧ isUpper v i = false ↔
      k ≤ i ∧ i < 6 ∧ isUpper v i = false) := by
    intro i hi
    constructor
    · rintro ⟨h1, h2, h3⟩
      exact ⟨by omega, h2, h3⟩
    · rintro ⟨h1, h2, h3⟩
      refine ⟨?_, h2, h3⟩
      by_contra hge
      rw [hskip i (by omega) (by omega)] at h3
      exact absurd h3 (by decide)
  have hself : ¬(k' ≤ k ∧ k < 6 ∧ isUpper v k = false) := fun h => by omega
  have hin : k ≤ k ∧ k < 6 ∧ isUpper v k = false := ⟨le_rfl, hk, hv⟩
  simp only [PciDevice.barsFrom, PciDevice.setBar, PciDevice.mk.injEq, true_and, and_true]
  refine ⟨funext fun i => ?_, funext fun i => ?_⟩
  · by_cases hi : i = k
    · subst hi
      rw [if_neg hself, if_pos hin, Function.update_self]
    · rw [Function.update_of_ne hi]
      simp only [hiff i hi]
  · by_cases hi : i = k
    · subst hi
      rw [if_neg hself, if_pos hin, Function.update_self]
    · rw [Function.update_of_ne hi]
      simp only [hiff i hi]

/- The loop from a register that is not an upper half; the induction is on the
registers that are left. -/
theorem readBarsLoop_eq (v : ℕ → UInt32) (n k : ℕ) (hn : 6 - k ≤ n) (dev : PciDevice)
    (p : ConfigPorts) (hv : dev.registers p = v) (hk : isUpper v k = false) :
    (readBarsLoop k dev p).1 = dev.barsFrom v k ∧ (readBarsLoop k dev p).2.dwords = p.dwords := by
  induction n generalizing k dev p with
  | zero =>
    rw [readBarsLoop, dif_neg (by omega)]
    exact ⟨(barsFrom_end dev v (by omega)).symm, rfl⟩
  | succ n ih =>
    rw [readBarsLoop]
    by_cases hlt : k < 6
    · obtain ⟨hround, hdwords⟩ := readBar_eq k dev p
      rw [dif_pos hlt, hround]
      dsimp only
      rw [hv] at hround ⊢
      have hregisters : (dev.setBar k (decodeBar (v k))).registers (readBar k dev p).2 = v := by
        rw [← hv]
        exact funext fun i => congrFun hdwords _
      by_cases h64 : is64Bit (v k) = true
      · have hupper : isUpper v (k + 1) = true := by rw [isUpper, hk, h64]; rfl
        have hnext : isUpper v (k + 1 + 1) = false := by
          rw [isUpper, hupper]
          rfl
        obtain ⟨hrec, hports⟩ := ih (k + 1 + 1) (by omega) _ _ hregisters hnext
        rw [if_pos h64]
        refine ⟨hrec.trans (barsFrom_setBar dev v hlt (by omega) hk ?_), hports.trans hdwords⟩
        intro i hi hi'
        have he : i = k + 1 := by omega
        rw [he, hupper]
      · have hnext : isUpper v (k + 1) = false := by rw [isUpper, eq_false_of_ne_true h64, Bool.and_false]
        obtain ⟨hrec, hports⟩ := ih (k + 1) (by omega) _ _ hregisters hnext
        rw [if_neg h64]
        refine ⟨hrec.trans (barsFrom_setBar dev v hlt (by omega) hk ?_), hports.trans hdwords⟩
        intro i hi hi'
        omega
    · rw [dif_neg hlt]
      exact ⟨(barsFrom_end dev v (by omega)).symm, rfl⟩

/- What `pci_read_bars` writes: the upper halves are left as they were. -/
theorem pciReadBars_eq (dev : PciDevice) (p : ConfigPorts) :
    (pciReadBars dev p).1 = dev.barsFrom (dev.registers p) 0 ∧
      (pciReadBars dev p).2.dwords = p.dwords :=
  readBarsLoop_eq (dev.registers p) 6 0 le_rfl dev p rfl rfl

/-! ### What is left of an earlier scan -/

/- The record as the USB driver reads it. -/
def PciDevice.usb (dev : PciDevice) : Usb.PciDevice :=
  ⟨dev.vendorId, dev.classCode, dev.subclass, dev.progIf, dev.bar,
    fun i => dev.isMemoryMapped i ≠ 0, dev.interruptLine⟩

/- The entries of a record. -/
def PciDevice.entry (dev : PciDevice) (i : ℕ) : UInt32 × UInt8 := (dev.bar i, dev.isMemoryMapped i)

/- The record with the entries that the hardware gives. -/
def PciDevice.decoded (dev : PciDevice) (v : ℕ → UInt32) : PciDevice :=
  {dev with bar := fun i => (barEntry v i).1, isMemoryMapped := fun i => (barEntry v i).2}

/- `find_uhci_io_base` looks at the six entries only. -/
theorem findUhciIoBase_congr {dev dev' : PciDevice} (h : ∀ i < 6, dev.entry i = dev'.entry i) :
    Usb.findUhciIoBase dev.usb = Usb.findUhciIoBase dev'.usb := by
  have hbar : ∀ i < 6, dev.bar i = dev'.bar i := fun i hi => congrArg Prod.fst (h i hi)
  have hmm : ∀ i < 6, dev.isMemoryMapped i = dev'.isMemoryMapped i :=
    fun i hi => congrArg Prod.snd (h i hi)
  have hfind : ((List.range 6).find? fun i => dev.usb.bar i ≠ 0 ∧ dev.usb.isMemoryMapped i = false) =
      (List.range 6).find? fun i => dev'.usb.bar i ≠ 0 ∧ dev'.usb.isMemoryMapped i = false := by
    refine List.find?_congr fun i hi => decide_eq_decide.mpr ?_
    have hlt := List.mem_range.mp hi
    show dev.bar i ≠ 0 ∧ decide (dev.isMemoryMapped i ≠ 0) = false ↔ _
    rw [hbar i hlt, hmm i hlt]
    rfl
  unfold Usb.findUhciIoBase
  rw [hfind]
  split
  · next i hi =>
    have hlt := List.mem_range.mp (List.mem_of_find?_eq_some hi)
    simp only [PciDevice.usb, hbar i hlt]
  · rfl

theorem barsFrom_entry (dev : PciDevice) (v : ℕ → UInt32) (k i : ℕ) :
    (dev.barsFrom v k).entry i =
      if k ≤ i ∧ i < 6 ∧ isUpper v i = false then decodeBar (v i) else dev.entry i := by
  unfold PciDevice.entry PciDevice.barsFrom
  dsimp only
  split_ifs
  · rfl
  · rfl

/- The entries that are not written have to be the right ones already. -/
theorem barsFrom_entry_iff (dev : PciDevice) (v : ℕ → UInt32) :
    (∀ i < 6, (dev.barsFrom v 0).entry i = barEntry v i) ↔
      ∀ i < 6, isUpper v i = true → dev.entry i = (0, 0) := by
  refine forall₂_congr fun i hi => ?_
  rw [barsFrom_entry, barEntry]
  by_cases hv : isUpper v i = true
  · have hno : ¬(0 ≤ i ∧ i < 6 ∧ isUpper v i = false) := fun h => by
      rw [hv] at h
      exact absurd h.2.2 (by decide)
    rw [if_neg hno, if_pos hv]
    exact ⟨fun h _ => h, fun h => h hv⟩
  · rw [if_pos ⟨Nat.zero_le i, hi, eq_false_of_ne_true hv⟩, if_neg hv]
    exact ⟨fun _ h => absurd h hv, fun _ => rfl⟩

/- What is promised of two records of one function that are read again. -/
structure FromHardware (dev dev' : PciDevice) (p : ConfigPorts) : Prop where
  same : ∀ i < 6, (pciReadBars dev p).1.entry i = (pciReadBars dev' p).1.entry i
  decoded : ∀ i < 6, (pciReadBars dev p).1.entry i = barEntry (dev.registers p) i
  /-- Nothing of the earlier contents is taken for the base of an UHCI controller. -/
  io_base : Usb.findUhciIoBase (pciReadBars dev p).1.usb =
    Usb.findUhciIoBase (dev.decoded (dev.registers p)).usb

/- The function that a record is for. -/
def PciDevice.location (dev : PciDevice) : UInt8 × UInt8 × UInt8 :=
  (dev.bus, dev.device, dev.function)

theorem registers_congr {dev dev' : PciDevice} (h : dev'.location = dev.location) (p : ConfigPorts) :
    dev'.registers p = dev.registers p := by
  simp only [PciDevice.location, Prod.mk.injEq] at h
  rw [PciDevice.registers, h.1, h.2.1, h.2.2]
  rfl

/-- The record depends on the hardware only, exactly if the entries of all upper
halves were 0 before. -/
theorem bars_from_hardware (dev dev' : PciDevice) (p : ConfigPorts)
    (hlocation : dev'.location = dev.location) :
    FromHardware dev dev' p ↔ ∀ i < 6, isUpper (dev.registers p) i = true →
      dev.entry i = (0, 0) ∧ dev'.entry i = (0, 0) := by
  have hdev := barsFrom_entry_iff dev (dev.registers p)
  have hdev' := barsFrom_entry_iff dev' (dev.registers p)
  have hread : (pciReadBars dev p).1 = dev.barsFrom (dev.registers p) 0 := (pciReadBars_eq dev p).1
  have hread' : (pciReadBars dev' p).1 = dev'.barsFrom (dev.registers p) 0 := by
    rw [(pciReadBars_eq dev' p).1, registers_congr hlocation]
  rw [← hread] at hdev
  rw [← hread'] at hdev'
  constructor
  · intro h i hi hv
    have hdecoded' : ∀ i < 6, (pciReadBars dev' p).1.entry i = barEntry (dev.registers p) i :=
      fun i hi => (h.same i hi).symm.trans (h.decoded i hi)
    exact ⟨hdev.mp h.decoded i hi hv, hdev'.mp hdecoded' i hi hv⟩
  · intro h
    have hdecoded := hdev.mpr fun i hi hv => (h i hi hv).1
    have hdecoded' := hdev'.mpr fun i hi hv => (h i hi hv).2
    exact ⟨fun i hi => (hdecoded i hi).trans (hdecoded' i hi).symm, hdecoded,
      findUhciIoBase_congr hdecoded⟩

/- A function with one 64-bit register. -/
def wideBarPorts : ConfigPorts :=
  ⟨0, fun a => if a = configAddress 0 3 0 0x10 then 0xFEB00004 else 0⟩

/- The record of a function with that location: all else is 0 but for one entry. -/
def recordWith (bar : UInt32) : PciDevice :=
  ⟨0, 0, 0, 0, 0, 0, 3, 0, fun i => if i = 1 then bar else 0, fun _ => 0, 0, 0⟩

/- A record with old addresses wherever the loop writes. -/
def recordUsed : PciDevice :=
  {recordWith 0 with
    bar := fun i => if i = 1 then 0 else 0xC040
    isMemoryMapped := fun i => if i = 1 then 0 else 1}

/- The record as it is before the first scan, and a used one. -/
theorem bars_from_hardware_used : FromHardware (recordWith 0) recordUsed wideBarPorts :=
  (bars_from_hardware (recordWith 0) recordUsed wideBarPorts rfl).mpr (by decide)

/- The record was that of an UHCI controller at 0xC040 before; the address is kept, and
is taken for one of the new device. -/
theorem upper_half_keeps_address :
    Usb.findUhciIoBase (pciReadBars (recordWith 0xC040) wideBarPorts).1.usb = 0xC040 ∧
      ¬ FromHardware (recordWith 0) (recordWith 0xC040) wideBarPorts := by
  refine ⟨?_, fun h => ?_⟩
  · rw [(pciReadBars_eq _ _).1]
    decide
  · have hsame := h.same 1 (by decide)
    rw [(pciReadBars_eq _ _).1, (pciReadBars_eq _ _).1] at hsame
    exact absurd hsame (by decide)

end CasseOS.Pci
