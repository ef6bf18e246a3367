import CasseOS.Lib.ForLoop
import CasseOS.Pci.Bars
import Mathlib.Data.List.FinRange
import Mathlib.Data.List.Forall2
import Mathlib.Data.Prod.Lex

/-! # The scan of the PCI buses (`drivers/pci.c`)

`pci_scan` goes through all buses, devices and functions and fills one record of a
static table for each function that answers. The counters of its loops have 16 and
8 bits; the scan ends early when the table is full. The message it prints then is
left out. -/

namespace CasseOS.Pci
open ForLoop Run Usb

structure ScanState where
  ports : ConfigPorts
  /-- `pci_devices`. -/
  devices : Fin maxPciDevices → PciDevice
  /-- `pci_device_count`. -/
  count : ℕ

/-- The record of a function that answered with `id` (`pci.c:128-143`). -/
def fillRecord (bus device function : UInt8) (id : UInt32) (dev : PciDevice) (ports : ConfigPorts) :
    PciDevice × ConfigPorts :=
  let dev := {dev with
    vendorId := (id &&& 0xFFFF).toUInt16
    deviceId := ((id >>> 16) &&& 0xFFFF).toUInt16}
  let (classData, ports) := pciConfigRead bus device function 0x08 ports
  let dev := {dev with
    classCode := ((classData >>> 24) &&& 0xFF).toUInt8
    subclass := ((classData >>> 16) &&& 0xFF).toUInt8
    progIf := ((classData >>> 8) &&& 0xFF).toUInt8
    bus, device, function}
  let (dev, ports) := pciReadBars dev ports
  let (interruptLine, ports) := pciConfigReadByte bus device function 0x3C ports
  let (interruptPin, ports) := pciConfigReadByte bus device function 0x3D ports
  ({dev with interruptLine, interruptPin}, ports)

/-- The body of the innermost loop (`pci.c:116-145`); `false` for its `return`. -/
def scanFunction (bus device function : UInt8) (s : ScanState) : ScanState × Bool :=
  let (id, ports) := pciConfigRead bus device function 0x00 s.ports
  if id = 0xFFFFFFFF then ({s with ports}, true)
  else if h : maxPciDevices ≤ s.count then ({s with ports}, false)
  else
    let index : Fin maxPciDevices := ⟨s.count, Nat.lt_of_not_le h⟩
    let (dev, ports) := fillRecord bus device function id (s.devices index) ports
    (⟨ports, Function.update s.devices index dev, CInt.u16 (s.count + 1)⟩, true)

/-- `pci_scan` (`pci.c:109-149`); each loop has at most `fuel` rounds. -/
def pciScan (fuel : ℕ) (s : ScanState) : Option ScanState :=
  let functions (bus device : UInt8) (s : ScanState) : Option (ScanState × Bool) :=
    forLoop (· < (8 : UInt8)) (· + 1)
      (fun function s => some (scanFunction bus device function s)) fuel 0 s
  let devices (bus : UInt8) (s : ScanState) : Option (ScanState × Bool) :=
    forLoop (· < (32 : UInt8)) (· + 1) (fun device s => functions bus device s) fuel 0 s
  let buses (s : ScanState) : Option (ScanState × Bool) :=
    forLoop (· < (256 : UInt16)) (· + 1) (fun busL s => devices busL.toUInt8 s) fuel 0 s
  (buses {s with count := 0}).map Prod.fst

/-! ### What there is to find -/

/- Bus, device and function. -/
abbrev Location := UInt8 × UInt8 × UInt8

/- All functions, in the order of their locations. -/
def locations : List Location :=
  (List.range 256).flatMap fun b => (List.range 32).flatMap fun d =>
    (List.range 8).map fun f => (UInt8.ofNat b, UInt8.ofNat d, UInt8.ofNat f)

section Spec
variable (dwords : UInt32 → UInt32)

def isPresent (a : Location) : Bool := dwords (configAddress a.1 a.2.1 a.2.2 0x00) ≠ 0xFFFFFFFF

def present : List Location := locations.filter (isPresent dwords)

def configByte (a : Location) (off : UInt8) : ℕ :=
  (dwords (configAddress a.1 a.2.1 a.2.2 off)).toNat / 2 ^ (8 * (off.toNat % 4)) % 2 ^ 8

/- A record tells of a function what its configuration bytes say. -/
structure Describes (a : Location) (dev : PciDevice) : Prop where
  location : dev.location = a
  vendor_id : dev.vendorId.toNat = configByte dwords a 0x00 + 2 ^ 8 * configByte dwords a 0x01
  device_id : dev.deviceId.toNat = configByte dwords a 0x02 + 2 ^ 8 * configByte dwords a 0x03
  prog_if : dev.progIf.toNat = configByte dwords a 0x09
  subclass : dev.subclass.toNat = configByte dwords a 0x0A
  class_code : dev.classCode.toNat = configByte dwords a 0x0B
  interrupt_line : dev.interruptLine.toNat = configByte dwords a 0x3C
  interrupt_pin : dev.interruptPin.toNat = configByte dwords a 0x3D

end Spec

/- The first `pci_device_count` records. -/
def ScanState.listed (s : ScanState) : List PciDevice :=
  ((List.finRange maxPciDevices).take s.count).map s.devices

/- They are the table the scan for USB controllers goes through. -/
def ScanState.usbTable (s : ScanState) : PciTable where
  devices := s.listed.map PciDevice.usb
  length_le := by
    rw [List.length_map, ScanState.listed, List.length_map, List.length_take, List.length_finRange]
    exact Nat.min_le_right _ _

/-! ### One function -/

section Round
variable {bus device function : UInt8} {s : ScanState}

/- A byte is a part of the dword it stands in. -/
theorem configByte_eq (dwords : UInt32 → UInt32) (a : Location) (base : UInt8) {off : UInt8} {k : ℕ}
    (hoff : off.toNat = base.toNat / 4 * 4 + k) (hk : k < 4) :
    configByte dwords a off =
      (dwords (configAddress a.1 a.2.1 a.2.2 base)).toNat / 2 ^ (8 * k) % 2 ^ 8 := by
  have hdword : off.toNat / 4 = base.toNat / 4 := by omega
  have hmod : off.toNat % 4 = k := by omega
  rw [configByte, configAddress_congr hdword, hmod]

theorem configByte_read (p : ConfigPorts) (a : Location) (off : UInt8) :
    (pciConfigReadByte a.1 a.2.1 a.2.2 off p).1.toNat = configByte p.dwords a off :=
  toNat_pciConfigReadByte a.1 a.2.1 a.2.2 off p

theorem fillRecord_describes (bus device function : UInt8) (dev : PciDevice) (p : ConfigPorts) :
    Describes p.dwords (bus, device, function)
        (fillRecord bus device function (pciConfigRead bus device function 0x00 p).1 dev p).1 ∧
      (fillRecord bus device function (pciConfigRead bus device function 0x00 p).1 dev p).2.dwords =
        p.dwords := by
  obtain ⟨d0, hd0⟩ : ∃ d, p.dwords (configAddress bus device function 0x00) = d := ⟨_, rfl⟩
  obtain ⟨d8, hd8⟩ : ∃ d, p.dwords (configAddress bus device function 0x08) = d := ⟨_, rfl⟩
  have hbyte0 : ∀ (off : UInt8) (k : ℕ), off.toNat = k → k < 4 →
      configByte p.dwords (bus, device, function) off = d0.toNat / 2 ^ (8 * k) % 2 ^ 8 := by
    intro off k hoff hk
    rw [configByte_eq p.dwords _ 0x00 (hoff.trans (Nat.zero_add k).symm) hk, hd0]
  have hbyte8 : ∀ (off : UInt8) (k : ℕ), off.toNat = 8 + k → k < 4 →
      configByte p.dwords (bus, device, function) off = d8.toNat / 2 ^ (8 * k) % 2 ^ 8 := by
    intro off k hoff hk
    rw [configByte_eq p.dwords _ 0x08 hoff hk, hd8]
  have hbars := fun dev p => pciReadBars_eq dev p
  have hread0 : (pciConfigRead bus device function 0x00 p).1 = d0 := hd0
  have hread8 : (pciConfigRead bus device function 0x08 p).1 = d8 := hd8
  unfold fillRecord
  dsimp only
  rw [hread0, hread8]
  have hports := (hbars ⟨(d0 &&& 0xFFFF).toUInt16, ((d0 >>> 16) &&& 0xFFFF).toUInt16,
    ((d8 >>> 24) &&& 0xFF).toUInt8, ((d8 >>> 16) &&& 0xFF).toUInt8, ((d8 >>> 8) &&& 0xFF).toUInt8,
    bus, device, function, dev.bar, dev.isMemoryMapped, dev.interruptLine, dev.interruptPin⟩
    (pciConfigRead bus device function 0x08 p).2).2
  rw [(hbars _ _).1]
  refine ⟨⟨rfl, ?_, ?_, ?_, ?_, ?_, ?_, ?_⟩, hports⟩
  · show (d0 &&& 0xFFFF).toUInt16.toNat = _
    rw [toNat_maskWord, hbyte0 0x00 0 rfl (by decide), hbyte0 0x01 1 rfl (by decide)]
    omega
  · show ((d0 >>> 16) &&& 0xFFFF).toUInt16.toNat = _
    rw [toNat_dwordWord (n := 16) rfl (by decide), hbyte0 0x02 2 rfl (by decide),
      hbyte0 0x03 3 rfl (by decide)]
    omega
  · show ((d8 >>> 8) &&& 0xFF).toUInt8.toNat = _
    rw [toNat_dwordByte (n := 8) rfl (by decide), hbyte8 0x09 1 rfl (by decide)]
  · show ((d8 >>> 16) &&& 0xFF).toUInt8.toNat = _
    rw [toNat_dwordByte (n := 16) rfl (by decide), hbyte8 0x0A 2 rfl (by decide)]
  · show ((d8 >>> 24) &&& 0xFF).toUInt8.toNat = _
    rw [toNat_dwordByte (n := 24) rfl (by decide), hbyte8 0x0B 3 rfl (by decide)]
  · refine (configByte_read _ (bus, device, function) 0x3C).trans ?_
    rw [hports]
    rfl
  · refine (configByte_read _ (bus, device, function) 0x3D).trans ?_
    rw [pciConfigReadByte_dwords, hports]
    rfl

theorem scanFunction_absent (h : isPresent s.ports.dwords (bus, device, function) = false) :
    (scanFunction bus device function s).2 = true ∧
      (scanFunction bus device function s).1.ports.dwords = s.ports.dwords ∧
      (scanFunction bus device function s).1.devices = s.devices ∧
      (scanFunction bus device function s).1.count = s.count := by
  have hid : (pciConfigRead bus device function 0x00 s.ports).1 = 0xFFFFFFFF :=
    not_not.mp (of_decide_eq_false h)
  unfold scanFunction
  dsimp only
  rw [if_pos hid]
  exact ⟨rfl, rfl, rfl, rfl⟩

theorem scanFunction_full (h : isPresent s.ports.dwords (bus, device, function) = true)
    (hfull : maxPciDevices ≤ s.count) :
    (scanFunction bus device function s).2 = false ∧
      (scanFunction bus device function s).1.ports.dwords = s.ports.dwords ∧
      (scanFunction bus device function s).1.devices = s.devices ∧
      (scanFunction bus device function s).1.count = s.count := by
  have hid : ¬(pciConfigRead bus device function 0x00 s.ports).1 = 0xFFFFFFFF :=
    of_decide_eq_true h
  unfold scanFunction
  dsimp only
  rw [if_neg hid, dif_pos hfull]
  exact ⟨rfl, rfl, rfl, rfl⟩

/- A function that answers gets the next record. -/
theorem scanFunction_found (h : isPresent s.ports.dwords (bus, device, function) = true)
    (hroom : s.count < maxPciDevices) :
    (scanFunction bus device function s).2 = true ∧
      (scanFunction bus device function s).1.ports.dwords = s.ports.dwords ∧
      (scanFunction bus device function s).1.count = s.count + 1 ∧
      ∃ dev, Describes s.ports.dwords (bus, device, function) dev ∧
        (scanFunction bus device function s).1.devices =
          Function.update s.devices ⟨s.count, hroom⟩ dev := by
  have hid : ¬(pciConfigRead bus device function 0x00 s.ports).1 = 0xFFFFFFFF :=
    of_decide_eq_true h
  have hcount : CInt.u16 (s.count + 1) = s.count + 1 := by
    rw [maxPciDevices] at hroom
    exact CInt.u16_of_lt (by omega)
  obtain ⟨hdescribes, hdwords⟩ := fillRecord_describes bus device function (s.devices ⟨s.count, hroom⟩)
    (pciConfigRead bus device function 0x00 s.ports).2
  unfold scanFunction
  dsimp only
  rw [if_neg hid, dif_neg (Nat.not_le.mpr hroom)]
  exact ⟨rfl, hdwords, hcount, _, hdescribes, rfl⟩

end Round

/-! ### A list of functions -/

def scanAt (a : Location) : ScanState → ScanState × Bool := scanFunction a.1 a.2.1 a.2.2

/- What the scan of some functions leaves: the next records tell of those that are
present, as far as there is room. -/
structure Scanned (l : List Location) (s s' : ScanState) : Prop where
  dwords : s'.ports.dwords = s.ports.dwords
  count : s'.count = min maxPciDevices (s.count + (l.filter (isPresent s.ports.dwords)).length)
  earlier : ∀ k : Fin maxPciDevices, k.val < s.count → s'.devices k = s.devices k
  records : ∀ (k : ℕ) (a : Location), (l.filter (isPresent s.ports.dwords))[k]? = some a →
    ∀ h : s.count + k < maxPciDevices, Describes s.ports.dwords a (s'.devices ⟨s.count + k, h⟩)

theorem scanned_nil {s : ScanState} (hs : s.count ≤ maxPciDevices) : Scanned [] s s :=
  ⟨rfl, (Nat.min_eq_right hs).symm, fun _ _ => rfl, fun _ _ ha => absurd ha (by simp)⟩

theorem scanned_absent {a : Location} {l : List Location} {s s₁ s' : ScanState}
    (ha : isPresent s.ports.dwords a = false) (hd : s₁.ports.dwords = s.ports.dwords)
    (hdev : s₁.devices = s.devices) (hc : s₁.count = s.count) (h : Scanned l s₁ s') :
    Scanned (a :: l) s s' := by
  have hfilter : (a :: l).filter (isPresent s.ports.dwords) = l.filter (isPresent s.ports.dwords) :=
    List.filter_cons_of_neg (ne_true_of_eq_false ha)
  obtain ⟨hdwords, hcount, hearlier, hrecords⟩ := h
  rw [hd] at hdwords hcount hrecords
  rw [hc] at hcount hearlier
  refine ⟨hdwords, ?_, ?_, ?_⟩
  · rw [hfilter]
    exact hcount
  · rw [← hdev]
    exact hearlier
  · rw [hfilter]
    simp only [hc] at hrecords
    exact hrecords

theorem scanned_full {a : Location} {l : List Location} {s s' : ScanState}
    (hfull : s.count = maxPciDevices) (hd : s'.ports.dwords = s.ports.dwords)
    (hdev : s'.devices = s.devices) (hc : s'.count = s.count) : Scanned (a :: l) s s' :=
  ⟨hd, by omega, fun _ _ => by rw [hdev], fun k _ _ h => absurd h (by omega)⟩

theorem scanned_found {a : Location} {l : List Location} {s s₁ s' : ScanState} {dev : PciDevice}
    (ha : isPresent s.ports.dwords a = true) (hroom : s.count < maxPciDevices)
    (hd : s₁.ports.dwords = s.ports.dwords) (hdev : Describes s.ports.dwords a dev)
    (hdevices : s₁.devices = Function.update s.devices ⟨s.count, hroom⟩ dev)
    (hc : s₁.count = s.count + 1) (h : Scanned l s₁ s') : Scanned (a :: l) s s' := by
  have hfilter : (a :: l).filter (isPresent s.ports.dwords) =
      a :: l.filter (isPresent s.ports.dwords) := List.filter_cons_of_pos ha
  obtain ⟨hdwords, hcount, hearlier, hrecords⟩ := h
  rw [hd] at hdwords hcount hrecords
  refine ⟨hdwords, ?_, ?_, ?_⟩
  · rw [hcount, hc, hfilter, List.length_cons]
    omega
  · intro k hk
    rw [hearlier k (by omega), hdevices]
    exact Function.update_of_ne (fun he => by rw [he] at hk; exact absurd hk (by simp)) _ _
  · rw [hfilter]
    intro k b hb hk
    cases k with
    | zero =>
      rw [List.getElem?_cons_zero, Option.some.injEq] at hb
      have hself : s'.devices ⟨s.count, hroom⟩ = dev := by
        rw [hearlier ⟨s.count, hroom⟩ (by simp [hc]), hdevices, Function.update_self]
      subst hb
      show Describes s.ports.dwords a (s'.devices ⟨s.count, _⟩)
      rw [hself]
      exact hdev
    | succ k =>
      rw [List.getElem?_cons_succ] at hb
      have hindex : s.count + (k + 1) = s₁.count + k := by omega
      have hrec := hrecords k b hb (by omega)
      simp only [hindex]
      exact hrec

/- The scan of a list; the induction is on the functions that are left. -/
theorem bail_scanned (l : List Location) {s : ScanState} (hs : s.count ≤ maxPciDevices) :
    Scanned l s (bail (l.map scanAt) s).1 := by
  induction l generalizing s with
  | nil => exact scanned_nil hs
  | cons a l ih =>
    have hscan : scanAt a = scanFunction a.1 a.2.1 a.2.2 := rfl
    rw [List.map_cons, bail, hscan]
    cases ha : isPresent s.ports.dwords a with
    | false =>
      obtain ⟨hgo, hd, hdev, hc⟩ := scanFunction_absent (s := s) ha
      rw [if_pos hgo]
      exact scanned_absent ha hd hdev hc (ih (hc.le.trans hs))
    | true =>
      by_cases hroom : s.count < maxPciDevices
      · obtain ⟨hgo, hd, hc, dev, hdescribes, hdev⟩ := scanFunction_found (s := s) ha hroom
        rw [if_pos hgo]
        exact scanned_found ha hroom hd hdescribes hdev hc (ih (hc.le.trans hroom))
      · obtain ⟨hstop, hd, hdev, hc⟩ := scanFunction_full (s := s) ha (Nat.le_of_not_lt hroom)
        rw [if_neg (ne_true_of_eq_false hstop)]
        exact scanned_full (Nat.le_antisymm hs (Nat.le_of_not_lt hroom)) hd hdev hc

/-! ### The loops -/

theorem counts_uint8 {n : ℕ} (hn : n < 2 ^ 8) :
    Counts (· < UInt8.ofNat n) (· + 1) 0 ((List.range n).map UInt8.ofNat) := by
  have htoNat : ∀ k < 2 ^ 8, (UInt8.ofNat k).toNat = k := fun k hk => UInt8.toNat_ofNat_of_lt' hk
  have htest : ∀ k < n, decide (UInt8.ofNat k < UInt8.ofNat n) = true := by
    intro k hk
    rw [decide_eq_true_iff, UInt8.lt_iff_toNat_lt, htoNat k (by omega), htoNat n hn]
    exact hk
  have hend : decide (UInt8.ofNat n < UInt8.ofNat n) = false :=
    decide_eq_false fun h => Nat.lt_irrefl _ (UInt8.lt_iff_toNat_lt.mp h)
  have hnext : ∀ k < n, UInt8.ofNat k + 1 = UInt8.ofNat (k + 1) :=
    fun k _ => (UInt8.ofNat_add k 1).symm
  exact counts_range (· < UInt8.ofNat n) (· + 1) UInt8.ofNat htest hnext hend

theorem counts_uint16 {n : ℕ} (hn : n < 2 ^ 16) :
    Counts (· < UInt16.ofNat n) (· + 1) 0 ((List.range n).map UInt16.ofNat) := by
  have htoNat : ∀ k < 2 ^ 16, (UInt16.ofNat k).toNat = k := fun k hk => UInt16.toNat_ofNat_of_lt' hk
  have htest : ∀ k < n, decide (UInt16.ofNat k < UInt16.ofNat n) = true := by
    intro k hk
    rw [decide_eq_true_iff, UInt16.lt_iff_toNat_lt, htoNat k (by omega), htoNat n hn]
    exact hk
  have hend : decide (UInt16.ofNat n < UInt16.ofNat n) = false :=
    decide_eq_false fun h => Nat.lt_irrefl _ (UInt16.lt_iff_toNat_lt.mp h)
  have hnext : ∀ k < n, UInt16.ofNat k + 1 = UInt16.ofNat (k + 1) :=
    fun k _ => (UInt16.ofNat_add k 1).symm
  exact counts_range (· < UInt16.ofNat n) (· + 1) UInt16.ofNat htest hnext hend

/- The rounds of the three loops, in their order. -/
theorem nest_eq (buses devices functions : List ℕ) :
    ((buses.map UInt16.ofNat).flatMap fun b => (devices.map UInt8.ofNat).flatMap fun d =>
        (functions.map UInt8.ofNat).map fun f => scanFunction b.toUInt8 d f) =
      (buses.flatMap fun b => devices.flatMap fun d => functions.map fun f =>
        (UInt8.ofNat b, UInt8.ofNat d, UInt8.ofNat f)).map scanAt := by
  have hbus : ∀ b, (UInt16.ofNat b).toUInt8 = UInt8.ofNat b := by
    intro b
    apply UInt8.toNat.inj
    simp
  simp only [List.map_flatMap, List.flatMap_map, List.map_map, hbus]
  rfl

/- The three loops are one pass through the list of all functions. -/
theorem pciScan_eq {fuel : ℕ} (hfuel : 256 < fuel) (s : ScanState) :
    pciScan fuel s = some (bail (locations.map scanAt) {s with count := 0}).1 := by
  have hfunctions : ∀ bus device s, forLoop (· < (8 : UInt8)) (· + 1)
      (fun function s => some (scanFunction bus device function s)) fuel 0 s =
        some (bail (((List.range 8).map UInt8.ofNat).map fun f => scanFunction bus device f) s) :=
    fun bus device s => forLoop_eq (fun _ _ _ => rfl) (counts_uint8 (n := 8) (by decide))
      (by rw [List.length_map, List.length_range]; omega) s
  have hdevices : ∀ bus s, forLoop (· < (32 : UInt8)) (· + 1)
      (fun device s => forLoop (· < (8 : UInt8)) (· + 1)
        (fun function s => some (scanFunction bus device function s)) fuel 0 s) fuel 0 s =
      some (bail (((List.range 32).map UInt8.ofNat).map fun d =>
        bail (((List.range 8).map UInt8.ofNat).map fun f => scanFunction bus d f)) s) :=
    fun bus s => forLoop_eq (fun d _ s => hfunctions bus d s) (counts_uint8 (n := 32) (by decide))
      (by rw [List.length_map, List.length_range]; omega) s
  have hbuses : forLoop (· < UInt16.ofNat 256) (· + 1) (fun busL s =>
      forLoop (· < (32 : UInt8)) (· + 1) (fun device s => forLoop (· < (8 : UInt8)) (· + 1)
        (fun function s => some (scanFunction busL.toUInt8 device function s)) fuel 0 s) fuel 0 s)
      fuel 0 {s with count := 0} =
      some (bail (((List.range 256).map UInt16.ofNat).map fun b =>
        bail (((List.range 32).map UInt8.ofNat).map fun d =>
          bail (((List.range 8).map UInt8.ofNat).map fun f => scanFunction b.toUInt8 d f)))
        {s with count := 0}) :=
    forLoop_eq (fun b _ s => hdevices b.toUInt8 s) (counts_uint16 (n := 256) (by decide))
      (by rw [List.length_map, List.length_range]; exact hfuel) {s with count := 0}
  unfold pciScan
  dsimp only
  rw [show (256 : UInt16) = UInt16.ofNat 256 from rfl, hbuses, Option.map_some]
  simp only [bail_flatMap]
  rw [nest_eq]
  rfl

/-! ### All functions -/

/- The order of locations. -/
def Before : Location → Location → Prop := Prod.Lex (· < ·) (Prod.Lex (· < ·) (· < ·))

theorem ofNat_lt_ofNat {j k : ℕ} (h : j < k) (hk : k < 2 ^ 8) : UInt8.ofNat j < UInt8.ofNat k := by
  rw [UInt8.lt_iff_toNat_lt, UInt8.toNat_ofNat_of_lt' (h.trans hk), UInt8.toNat_ofNat_of_lt' hk]
  exact h

theorem pairwise_range_lt (n : ℕ) : (List.range n).Pairwise fun j k => j < k ∧ k < n := by
  refine (List.pairwise_lt_range (n := n)).imp_of_mem ?_
  intro j k _ hk hlt
  exact ⟨hlt, List.mem_range.mp hk⟩

theorem locations_sorted : locations.Pairwise Before := by
  refine List.pairwise_flatMap.mpr ⟨fun b _ => List.pairwise_flatMap.mpr ⟨fun d _ => ?_, ?_⟩, ?_⟩
  · refine List.pairwise_map.mpr ((pairwise_range_lt 8).imp ?_)
    rintro j k ⟨hlt, hk⟩
    exact .right _ (.right _ (ofNat_lt_ofNat hlt (by omega)))
  · refine (pairwise_range_lt 32).imp ?_
    rintro j k ⟨hlt, hk⟩ x hx y hy
    obtain ⟨f, -, rfl⟩ := List.mem_map.mp hx
    obtain ⟨f', -, rfl⟩ := List.mem_map.mp hy
    exact .right _ (.left _ _ (ofNat_lt_ofNat hlt (by omega)))
  · refine (pairwise_range_lt 256).imp ?_
    rintro j k ⟨hlt, hk⟩ x hx y hy
    obtain ⟨d, -, hx⟩ := List.mem_flatMap.mp hx
    obtain ⟨f, -, rfl⟩ := List.mem_map.mp hx
    obtain ⟨d', -, hy⟩ := List.mem_flatMap.mp hy
    obtain ⟨f', -, rfl⟩ := List.mem_map.mp hy
    exact .left _ _ (ofNat_lt_ofNat hlt (by omega))

theorem mem_locations (a : Location) : a ∈ locations ↔ a.2.1 < 32 ∧ a.2.2 < 8 := by
  have h32 : (32 : UInt8).toNat = 32 := rfl
  have h8 : (8 : UInt8).toNat = 8 := rfl
  rw [UInt8.lt_iff_toNat_lt, UInt8.lt_iff_toNat_lt, h32, h8]
  simp only [locations, List.mem_flatMap, List.mem_map, List.mem_range]
  constructor
  · rintro ⟨b, -, d, hd, f, hf, rfl⟩
    rw [UInt8.toNat_ofNat_of_lt' (hd.trans (by decide)), UInt8.toNat_ofNat_of_lt' (hf.trans (by decide))]
    exact ⟨hd, hf⟩
  · rintro ⟨hd, hf⟩
    exact ⟨a.1.toNat, a.1.toNat_lt, a.2.1.toNat, hd, a.2.2.toNat, hf,
      by rw [UInt8.ofNat_toNat, UInt8.ofNat_toNat, UInt8.ofNat_toNat]⟩

/- The functions that are present, in the order of their locations and without
repetition, are what the list of them says. -/
theorem present_spec (dwords : UInt32 → UInt32) :
    (present dwords).Pairwise Before ∧
      ∀ a, a ∈ present dwords ↔ a.2.1 < 32 ∧ a.2.2 < 8 ∧ isPresent dwords a = true := by
  refine ⟨locations_sorted.filter _, fun a => ?_⟩
  rw [present, List.mem_filter, mem_locations, and_assoc]

/- The table after a scan. -/
structure Lists (dwords : UInt32 → UInt32) (s : ScanState) : Prop where
  unchanged : s.ports.dwords = dwords
  count : s.count = min maxPciDevices (present dwords).length
  records : List.Forall₂ (Describes dwords) ((present dwords).take maxPciDevices) s.listed

theorem Scanned.lists {s s' : ScanState} (h : Scanned locations s s') (hs : s.count = 0) :
    Lists s.ports.dwords s' := by
  obtain ⟨hdwords, hcount, -, hrecords⟩ := h
  have hfound : locations.filter (isPresent s.ports.dwords) = present s.ports.dwords := rfl
  rw [hs, Nat.zero_add, hfound] at hcount
  refine ⟨hdwords, hcount, List.forall₂_iff_get.mpr ⟨?_, ?_⟩⟩
  · rw [ScanState.listed, List.length_map, List.length_take, List.length_take, List.length_finRange,
      hcount]
    omega
  · intro k hk hk'
    rw [List.length_take] at hk
    have hlt : k < maxPciDevices := by omega
    have hget : (present s.ports.dwords)[k]? =
        some (((present s.ports.dwords).take maxPciDevices).get ⟨k, by rw [List.length_take]; exact hk⟩) := by
      rw [List.get_eq_getElem, List.getElem_take]
      exact List.getElem?_eq_getElem (by omega)
    have hrec := hrecords k _ hget (by omega)
    simp only [hs, Nat.zero_add] at hrec
    have hlisted : s'.listed.get ⟨k, hk'⟩ = s'.devices ⟨k, hlt⟩ := by
      simp [ScanState.listed]
    rw [hlisted]
    exact hrec

/- A function is taken for a USB controller by three of its configuration words. -/
theorem Describes.isUsbController {dwords : UInt32 → UInt32} {a : Location} {dev : PciDevice}
    (h : Describes dwords a dev) : Usb.isUsbController dev.usb = true ↔
      configByte dwords a 0x00 + 2 ^ 8 * configByte dwords a 0x01 ≠ 0xFFFF ∧
        configByte dwords a 0x0B = 0x0C ∧ configByte dwords a 0x0A = 0x03 := by
  have hvendor : dev.vendorId = 0xFFFF ↔ dev.vendorId.toNat = 0xFFFF :=
    ⟨fun he => by rw [he]; rfl, fun he => UInt16.toNat.inj he⟩
  have hclass : dev.classCode = 0x0C ↔ dev.classCode.toNat = 0x0C :=
    ⟨fun he => by rw [he]; rfl, fun he => UInt8.toNat.inj he⟩
  have hsubclass : dev.subclass = 0x03 ↔ dev.subclass.toNat = 0x03 :=
    ⟨fun he => by rw [he]; rfl, fun he => UInt8.toNat.inj he⟩
  rw [h.vendor_id] at hvendor
  rw [h.class_code] at hclass
  rw [h.subclass] at hsubclass
  rw [Usb.isUsbController, decide_eq_true_iff]
  exact and_congr (not_congr hvendor) (and_congr hclass hsubclass)

/- So the scan for USB controllers goes by the configuration space. -/
theorem Lists.usbTable {dwords : UInt32 → UInt32} {s : ScanState} (h : Lists dwords s) :
    List.Forall₂ (fun a dev => Usb.isUsbController dev = true ↔
        configByte dwords a 0x00 + 2 ^ 8 * configByte dwords a 0x01 ≠ 0xFFFF ∧
          configByte dwords a 0x0B = 0x0C ∧ configByte dwords a 0x0A = 0x03)
      ((present dwords).take maxPciDevices) s.usbTable.devices :=
  List.forall₂_map_right_iff.mpr (h.records.imp fun _ _ hdev => hdev.isUsbController)

/-- `pci_scan` ends, and lists the functions that are present, as far as there is room. -/
theorem pci_scan_lists (s : ScanState) (fuel : ℕ) (hfuel : 256 < fuel) :
    (∃ s', pciScan fuel s = some s' ∧ Lists s.ports.dwords s') ∧
      (present s.ports.dwords).Pairwise Before ∧
      ∀ a, a ∈ present s.ports.dwords ↔
        a.2.1 < 32 ∧ a.2.2 < 8 ∧ isPresent s.ports.dwords a = true := by
  have hscan := bail_scanned locations (s := {s with count := 0}) (Nat.zero_le _)
  exact ⟨⟨_, pciScan_eq hfuel s, hscan.lists rfl⟩, present_spec s.ports.dwords⟩

/- A host bridge, a USB controller and a disk controller on the last bus. -/
def threeFunctions (address : UInt32) : UInt32 :=
  if address = configAddress 0 0 0 0x00 then 0x12378086
  else if address = configAddress 0 0 0 0x08 then 0x06000002
  else if address = configAddress 0 1 2 0x00 then 0x70208086
  else if address = configAddress 0 1 2 0x08 then 0x0C030001
  else if address = configAddress 255 31 7 0x00 then 0x29228086
  else if address = configAddress 255 31 7 0x08 then 0x01060102
  else 0xFFFFFFFF

/- Before the first scan. -/
def threeScan : ScanState :=
  ⟨⟨0, threeFunctions⟩, fun _ => ⟨0, 0, 0, 0, 0, 0, 0, 0, fun _ => 0, fun _ => 0, 0, 0⟩, 0⟩

def threeLocations : List Location := [(0, 0, 0), (0, 1, 2), (255, 31, 7)]

theorem isPresent_three {a : Location} (hd : a.2.1 < 32) (hf : a.2.2 < 8) :
    isPresent threeFunctions a = true ↔ a ∈ threeLocations := by
  obtain ⟨bus, device, function⟩ := a
  constructor
  · intro h
    have hat : ∀ {b d f off : UInt8}, d < 32 → f < 8 →
        configAddress bus device function 0x00 = configAddress b d f off →
        (bus, device, function) = (b, d, f) ∧ off.toNat / 4 = 0 := by
      intro b d f off hd' hf' heq
      obtain ⟨rfl, rfl, rfl, hoff⟩ := configAddress_inj hd hf hd' hf' heq
      exact ⟨rfl, hoff.symm⟩
    rw [isPresent, decide_eq_true_iff] at h
    simp only [threeLocations, List.mem_cons, List.not_mem_nil, or_false]
    by_contra hno
    simp only [not_or] at hno
    apply h
    simp only [threeFunctions]
    rw [if_neg fun heq => hno.1 (hat (by decide) (by decide) heq).1,
      if_neg fun heq => absurd (hat (by decide) (by decide) heq).2 (by decide),
      if_neg fun heq => hno.2.1 (hat (by decide) (by decide) heq).1,
      if_neg fun heq => absurd (hat (by decide) (by decide) heq).2 (by decide),
      if_neg fun heq => hno.2.2 (hat (by decide) (by decide) heq).1,
      if_neg fun heq => absurd (hat (by decide) (by decide) heq).2 (by decide)]
  · intro h
    revert h
    simp only [threeLocations, List.mem_cons, List.not_mem_nil, or_false]
    rintro (h | h | h) <;> rw [h] <;> decide

theorem before_asymm {a b : Location} (h : Before a b) : ¬Before b a := by
  intro h'
  simp only [Before, Prod.lex_def, UInt8.lt_iff_toNat_lt, ← UInt8.toNat_inj] at h h'
  omega

theorem nodup_before {l : List Location} (h : l.Pairwise Before) : l.Nodup := by
  refine h.imp ?_
  rintro a b hab rfl
  exact before_asymm hab hab

/- Lists in the order of locations are the same when they have the same members. -/
theorem eq_of_before {l l' : List Location} (h : l.Pairwise Before) (h' : l'.Pairwise Before)
    (hmem : ∀ a, a ∈ l ↔ a ∈ l') : l = l' :=
  List.Perm.eq_of_pairwise (fun _ _ _ _ hab hba => absurd hba (before_asymm hab)) h h'
    ((List.perm_ext_iff_of_nodup (nodup_before h) (nodup_before h')).mpr hmem)

theorem threeLocations_sorted : threeLocations.Pairwise Before := by
  simp [threeLocations, Before, Prod.lex_def]

theorem present_three : present threeFunctions = threeLocations := by
  obtain ⟨hsorted, hmem⟩ := present_spec threeFunctions
  refine eq_of_before hsorted threeLocations_sorted fun a => (hmem a).trans ?_
  constructor
  · rintro ⟨hd, hf, hp⟩
    exact (isPresent_three hd hf).mp hp
  · intro ha
    have hrange : ∀ a ∈ threeLocations, a.2.1 < 32 ∧ a.2.2 < 8 := by simp [threeLocations]
    obtain ⟨hd, hf⟩ := hrange a ha
    exact ⟨hd, hf, (isPresent_three hd hf).mpr ha⟩

theorem pci_scan_lists_three : ∃ s', pciScan 257 threeScan = some s' ∧ s'.count = 3 ∧
    s'.listed.map (fun dev => (dev.location, dev.deviceId.toNat, dev.classCode.toNat)) =
      [((0, 0, 0), 0x1237, 0x06), ((0, 1, 2), 0x7020, 0x0C), ((255, 31, 7), 0x2922, 0x01)] := by
  obtain ⟨s', hrun, -, hcount, hrecords⟩ := (pci_scan_lists threeScan 257 (by decide)).1
  have hpresent : present threeScan.ports.dwords = threeLocations := present_three
  rw [hpresent] at hcount hrecords
  refine ⟨s', hrun, hcount, ?_⟩
  have htold : List.Forall₂ (· = ·) (threeLocations.map fun a => (a,
      configByte threeFunctions a 0x02 + 2 ^ 8 * configByte threeFunctions a 0x03,
      configByte threeFunctions a 0x0B))
      (s'.listed.map fun dev => (dev.location, dev.deviceId.toNat, dev.classCode.toNat)) := by
    rw [List.forall₂_map_left_iff, List.forall₂_map_right_iff]
    refine hrecords.imp fun a dev h => ?_
    rw [h.location, h.device_id, h.class_code]
    rfl
  rw [List.forall₂_eq_eq_eq] at htold
  rw [← htold]
  decide

end CasseOS.Pci
