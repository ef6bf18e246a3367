import Mathlib.Data.UInt
import Mathlib.Logic.Function.Basic
import Mathlib.Data.List.Range
import Mathlib.Tactic.Common

/-! # USB controllers on the PCI bus (`drivers/usb/usb.c`)

`pci_scan` fills a table of at most 256 devices. The scan for USB controllers
appends each one it finds to `usb_controllers`, an array of 16 entries, and
counts them in a byte; it starts from the count the last scan left. -/

namespace CasseOS.Usb

/- `pci_device_t`, as far as the USB driver reads it. -/
structure PciDevice where
  vendorId : UInt16
  classCode : UInt8
  subclass : UInt8
  progIf : UInt8
  /-- `bar`, at the indices below 6. -/
  bar : ℕ → UInt32
  isMemoryMapped : ℕ → Bool
  interruptLine : UInt8

def maxPciDevices : ℕ := 256

/- `pci_devices` up to `pci_device_count`. -/
structure PciTable where
  devices : List PciDevice
  length_le : devices.length ≤ maxPciDevices

/- `usb_controller_t`; the PCI device is given by its index in the table. -/
structure UsbController where
  pciDevice : Option ℕ
  baseAddress : UInt32
deriving DecidableEq

def maxUsbControllers : ℕ := 16

/- `usb_controllers` and `usb_controller_count`. -/
structure UsbControllers where
  entries : ℕ → UsbController
  count : UInt8

/- The static initial values. -/
def noControllers : UsbControllers := ⟨fun _ => ⟨none, 0⟩, 0⟩

/- The entries in use. -/
def UsbControllers.listed (st : UsbControllers) : List UsbController :=
  (List.range st.count.toNat).map st.entries

/-- `find_uhci_io_base` (`uhci/controller.c:12-21`). -/
def findUhciIoBase (device : PciDevice) : UInt32 :=
  match (List.range 6).find? fun i => device.bar i ≠ 0 ∧ device.isMemoryMapped i = false with
  | some i => (device.bar i &&& 0xFFFFFFFC).toUInt16.toUInt32
  | none => 0

/- A USB controller is present. -/
def isUsbController (dev : PciDevice) : Bool :=
  dev.vendorId ≠ 0xFFFF ∧ dev.classCode = 0x0C ∧ dev.subclass = 0x03

/- The entry the scan writes for a controller. -/
def controllerOf (index : ℕ) (dev : PciDevice) : UsbController :=
  ⟨some index, if dev.progIf = 0x00 then findUhciIoBase dev else dev.bar 0⟩

/- The next entry is filled and counted. -/
def UsbControllers.append (st : UsbControllers) (c : UsbController) : UsbControllers :=
  ⟨Function.update st.entries st.count.toNat c, st.count + 1⟩

/-- The body of the scan (`usb.c:19-52`); `none` if it writes outside the
array. -/
def scanDevice (index : ℕ) (dev : PciDevice) (st : UsbControllers) : Option UsbControllers :=
  if isUsbController dev then
    if st.count.toNat < maxUsbControllers then some (st.append (controllerOf index dev)) else none
  else some st

/- The loop of the scan, from the device at `index` on. -/
def scanFrom : ℕ → List PciDevice → UsbControllers → Option UsbControllers
  | _, [], st => some st
  | index, dev :: devs, st => (scanDevice index dev st).bind (scanFrom (index + 1) devs)

/-- `pci_scan_for_usb_controllers` (`usb.c:17-55`). -/
def pciScanForUsbControllers (table : PciTable) (st : UsbControllers) : Option UsbControllers :=
  scanFrom 0 table.devices st

/- The state after `n` scans. -/
def scans (table : PciTable) : ℕ → Option UsbControllers
  | 0 => some noControllers
  | n + 1 => (scans table n).bind (pciScanForUsbControllers table)

/-! ### One scan -/

/- The entries of the controllers in a table, from the device at `index` on. -/
def controllersFrom : ℕ → List PciDevice → List UsbController
  | _, [] => []
  | index, dev :: devs =>
    if isUsbController dev then controllerOf index dev :: controllersFrom (index + 1) devs
    else controllersFrom (index + 1) devs

/- The controllers of a table, each once. -/
def PciTable.controllers (table : PciTable) : List UsbController := controllersFrom 0 table.devices

theorem listed_append (st : UsbControllers) (c : UsbController)
    (h : st.count.toNat < maxUsbControllers) :
    (st.append c).count.toNat = st.count.toNat + 1 ∧ (st.append c).listed = st.listed ++ [c] := by
  have hcount : (st.count + 1).toNat = st.count.toNat + 1 := by
    rw [maxUsbControllers] at h
    rw [UInt8.toNat_add, UInt8.toNat_one]
    omega
  refine ⟨hcount, ?_⟩
  unfold UsbControllers.listed UsbControllers.append
  dsimp only
  rw [hcount, List.range_succ, List.map_append, List.map_singleton, Function.update_self]
  congr 1
  apply List.map_congr_left
  intro i hi
  rw [List.mem_range] at hi
  exact Function.update_of_ne (by omega) _ _

theorem scanFrom_fits (index : ℕ) (devs : List PciDevice) (st : UsbControllers)
    (h : st.count.toNat + (controllersFrom index devs).length ≤ maxUsbControllers) :
    ∃ st', scanFrom index devs st = some st' ∧
      st'.count.toNat = st.count.toNat + (controllersFrom index devs).length ∧
      st'.listed = st.listed ++ controllersFrom index devs := by
  induction devs generalizing index st with
  | nil => exact ⟨st, rfl, rfl, (List.append_nil _).symm⟩
  | cons dev devs ih =>
    rw [scanFrom, scanDevice]
    rw [controllersFrom] at h ⊢
    by_cases hdev : isUsbController dev = true
    · simp only [if_pos hdev, List.length_cons] at h ⊢
      have hlt : st.count.toNat < maxUsbControllers := by omega
      obtain ⟨hcount, hlisted⟩ := listed_append st (controllerOf index dev) hlt
      obtain ⟨st', hscan, hcount', hlisted'⟩ := ih (index + 1) (st.append (controllerOf index dev)) (by omega)
      refine ⟨st', by rw [if_pos hlt]; exact hscan, by omega, ?_⟩
      rw [hlisted', hlisted, List.append_assoc, List.singleton_append]
    · simp only [if_neg hdev, Option.bind_some] at h ⊢
      exact ih (index + 1) st h

theorem scanFrom_overflows (index : ℕ) (devs : List PciDevice) (st : UsbControllers)
    (hle : st.count.toNat ≤ maxUsbControllers)
    (h : maxUsbControllers < st.count.toNat + (controllersFrom index devs).length) :
    scanFrom index devs st = none := by
  induction devs generalizing index st with
  | nil =>
    simp only [controllersFrom, List.length_nil] at h
    omega
  | cons dev devs ih =>
    rw [scanFrom, scanDevice]
    rw [controllersFrom] at h
    by_cases hdev : isUsbController dev = true
    · simp only [if_pos hdev, List.length_cons] at h ⊢
      by_cases hlt : st.count.toNat < maxUsbControllers
      · obtain ⟨hcount, -⟩ := listed_append st (controllerOf index dev) hlt
        rw [if_pos hlt]
        exact ih (index + 1) _ (by omega) (by omega)
      · rw [if_neg hlt]
        rfl
    · simp only [if_neg hdev, Option.bind_some] at h ⊢
      exact ih (index + 1) st hle h

/-! ### Any number of scans -/

theorem scans_fit (table : PciTable) (n : ℕ) (h : n * table.controllers.length ≤ maxUsbControllers) :
    ∃ st, scans table n = some st ∧ st.count.toNat = n * table.controllers.length ∧
      st.listed = (List.replicate n table.controllers).flatten := by
  induction n with
  | zero => exact ⟨noControllers, rfl, (Nat.zero_mul _).symm, rfl⟩
  | succ n ih =>
    rw [Nat.add_mul, Nat.one_mul] at h ⊢
    obtain ⟨st, hst, hcount, hlisted⟩ := ih (by omega)
    obtain ⟨st', hscan, hcount', hlisted'⟩ := scanFrom_fits 0 table.devices st
      (by rw [hcount]; exact h)
    refine ⟨st', ?_, hcount'.trans (by rw [hcount]; rfl), ?_⟩
    · rw [scans, hst]
      exact hscan
    · rw [hlisted', hlisted, List.replicate_succ']
      simp [PciTable.controllers]

theorem scans_overflow (table : PciTable) (n : ℕ)
    (h : maxUsbControllers < n * table.controllers.length) : scans table n = none := by
  induction n with
  | zero => simp at h
  | succ n ih =>
    rw [scans]
    by_cases hn : maxUsbControllers < n * table.controllers.length
    · rw [ih hn]
      rfl
    · obtain ⟨st, hst, hcount, -⟩ := scans_fit table n (by omega)
      rw [hst]
      apply scanFrom_overflows
      · omega
      · rw [hcount]
        rw [Nat.add_mul, Nat.one_mul] at h
        exact h

/- What rescanning promises over `n` scans. -/
structure RescanLaw (table : PciTable) (n : ℕ) : Prop where
  /-- Every write is below index 16, and the count stays within the array. -/
  bounded : ∀ k ≤ n, ∃ st, scans table k = some st ∧ st.count.toNat ≤ maxUsbControllers
  /-- The list is that of one scan. -/
  same : (scans table n).map UsbControllers.listed = (scans table 1).map UsbControllers.listed
  /-- One scan lists each controller once. -/
  once : (scans table 1).map UsbControllers.listed = some table.controllers

theorem scans_listed (table : PciTable) (n : ℕ)
    (h : n * table.controllers.length ≤ maxUsbControllers) :
    (scans table n).map UsbControllers.listed =
      some (List.replicate n table.controllers).flatten := by
  obtain ⟨st, hst, -, hlisted⟩ := scans_fit table n h
  rw [hst, Option.map_some, hlisted]

/-- Over one scan or more, the law holds exactly if the table has no USB
controller, or it has at most 16 and is scanned once. -/
theorem rescanLaw_iff (table : PciTable) (n : ℕ) :
    RescanLaw table (n + 1) ↔ table.controllers = [] ∨ n = 0 ∧ table.controllers.length ≤ 16 := by
  constructor
  · intro h
    have hfit : ∀ k ≤ n + 1, k * table.controllers.length ≤ maxUsbControllers := by
      intro k hk
      by_contra hover
      obtain ⟨st, hst, -⟩ := h.bounded k hk
      rw [scans_overflow table k (by omega)] at hst
      exact absurd hst (by simp)
    have hsame := h.same
    rw [scans_listed table (n + 1) (hfit (n + 1) le_rfl),
      scans_listed table 1 (hfit 1 (by omega)), Option.some.injEq] at hsame
    have hlen := congrArg List.length hsame
    simp only [List.length_flatten, List.map_replicate, List.sum_replicate_nat] at hlen
    have hprod : n * table.controllers.length = 0 := by
      rw [Nat.add_mul] at hlen
      omega
    obtain hn | hm := Nat.mul_eq_zero.mp hprod
    · have hone := hfit 1 (by omega)
      rw [Nat.one_mul] at hone
      exact Or.inr ⟨hn, hone⟩
    · exact Or.inl (List.length_eq_zero_iff.mp hm)
  · intro h
    have hfit : ∀ k ≤ n + 1, k * table.controllers.length ≤ maxUsbControllers := by
      intro k hk
      obtain hnil | ⟨rfl, hlen⟩ := h
      · simp [hnil]
      · calc k * table.controllers.length ≤ 1 * table.controllers.length :=
              Nat.mul_le_mul_right _ hk
          _ ≤ maxUsbControllers := by rw [Nat.one_mul]; exact hlen
    have hone := scans_listed table 1 (hfit 1 (by omega))
    refine ⟨?_, ?_, ?_⟩
    · intro k hk
      obtain ⟨st, hst, hcount, -⟩ := scans_fit table k (hfit k hk)
      exact ⟨st, hst, hcount ▸ hfit k hk⟩
    · rw [scans_listed table (n + 1) (hfit (n + 1) le_rfl), hone]
      obtain hnil | ⟨rfl, -⟩ := h
      · simp [hnil]
      · rfl
    · rw [hone]
      simp

/- One UHCI controller, scanned at boot and again from the shell. -/
def oneUhciTable : PciTable :=
  ⟨[⟨0x8086, 0x0C, 0x03, 0x00, fun i => if i = 4 then 0xC040 else 0, fun _ => false, 11⟩], by decide⟩

/- The second scan lists it twice. -/
theorem rescan_lists_twice : ¬ RescanLaw oneUhciTable 2 := by
  intro h
  have hsame := h.same
  exact absurd hsame (by decide)

end CasseOS.Usb
