import CasseOS.Lib.CInt
import CasseOS.Lib.Lens
import Mathlib.Data.Nat.Bitwise
import Mathlib.Data.UInt
import Mathlib.Tactic.Common

/-! # PCI configuration space (`drivers/pci.c`)

A dword of configuration space is reached through two ports: its address is
written to one, and it is read and written at the other. Words and bytes are parts
of dwords. -/

namespace CasseOS.Pci
open CInt Lens

/- What is behind the ports 0xCF8 and 0xCFC. -/
structure ConfigPorts where
  address : UInt32
  /-- The dword that each address selects. -/
  dwords : UInt32 → UInt32

/- `io_dword_out(PCI_CONFIG_ADDRESS, address)`. -/
def ConfigPorts.select (p : ConfigPorts) (address : UInt32) : ConfigPorts := {p with address}

/- `io_dword_in(PCI_CONFIG_DATA)`. -/
def ConfigPorts.dataIn (p : ConfigPorts) : UInt32 := p.dwords p.address

/- `io_dword_out(PCI_CONFIG_DATA, data)`. -/
def ConfigPorts.dataOut (p : ConfigPorts) (data : UInt32) : ConfigPorts :=
  {p with dwords := Function.update p.dwords p.address data}

/- The address word of the access functions. -/
def configAddress (bus device function offset : UInt8) : UInt32 :=
  ((1 : UInt32) <<< 31) ||| (bus.toUInt32 <<< 16) ||| (device.toUInt32 <<< 11) |||
    (function.toUInt32 <<< 8) ||| (offset &&& 0xFC).toUInt32

/-- `pci_config_read` (`pci.c:9-17`). -/
def pciConfigRead (bus device function offset : UInt8) (p : ConfigPorts) : UInt32 × ConfigPorts :=
  let p := p.select (configAddress bus device function offset)
  (p.dataIn, p)

/-- `pci_config_read_word` (`pci.c:19-28`). -/
def pciConfigReadWord (bus device function offset : UInt8) (p : ConfigPorts) :
    UInt16 × ConfigPorts :=
  let p := p.select (configAddress bus device function offset)
  let data := p.dataIn
  (((data >>> ((offset &&& 2).toUInt32 * 8)) &&& 0xFFFF).toUInt16, p)

/-- `pci_config_read_byte` (`pci.c:30-33`). -/
def pciConfigReadByte (bus device function offset : UInt8) (p : ConfigPorts) :
    UInt8 × ConfigPorts :=
  let (aligned, p) := pciConfigRead bus device function (offset &&& 0xFC) p
  (((aligned >>> ((offset &&& 3).toUInt32 * 8)) &&& 0xFF).toUInt8, p)

/-- `pci_config_write_word` (`pci.c:41-58`). -/
def pciConfigWriteWord (bus device function offset : UInt8) (value : UInt16) (p : ConfigPorts) :
    ConfigPorts :=
  let p := p.select (configAddress bus device function offset)
  let data := p.dataIn
  let data : UInt32 :=
    if offset &&& 2 ≠ 0 then (data &&& (0x0000FFFF : UInt32)) ||| (value.toUInt32 <<< 16)
    else (data &&& 0xFFFF0000) ||| value.toUInt32
  p.dataOut data

/- `pci_device_t`. -/
structure PciDevice where
  vendorId : UInt16
  deviceId : UInt16
  classCode : UInt8
  subclass : UInt8
  progIf : UInt8
  bus : UInt8
  device : UInt8
  function : UInt8
  /-- `bar` and `is_memory_mapped`, at the indices below 6. -/
  bar : ℕ → UInt32
  isMemoryMapped : ℕ → UInt8
  interruptLine : UInt8
  interruptPin : UInt8

/-- `pci_enable_bus_mastering` (`pci.c:35-39`). -/
def pciEnableBusMastering (dev : PciDevice) (p : ConfigPorts) : ConfigPorts :=
  let (command, p) := pciConfigReadWord dev.bus dev.device dev.function 0x04 p
  pciConfigWriteWord dev.bus dev.device dev.function 0x04 (command ||| ((1 : UInt16) <<< 2)) p

/-! ### Addresses -/

section Address
variable {bus device function offset bus' device' function' offset' : UInt8}

theorem toNat_offset (offset : UInt8) :
    (offset &&& 0xFC).toUInt32.toNat = offset.toNat / 4 * 4 :=
  and_mask (w := 8) (k := 2) (by decide) offset.toNat_lt

/- The fields of an address stand beside each other. -/
theorem toNat_configAddress (hd : device < 32) (hf : function < 8) :
    (configAddress bus device function offset).toNat =
      2 ^ 31 + bus.toNat * 2 ^ 16 + device.toNat * 2 ^ 11 + function.toNat * 2 ^ 8 +
        offset.toNat / 4 * 4 := by
  rw [UInt8.lt_iff_toNat_lt] at hd hf
  have hd' : device.toNat < 32 := hd
  have hf' : function.toNat < 8 := hf
  have hb := bus.toNat_lt
  have ho := offset.toNat_lt
  have horder : configAddress bus device function offset =
      (offset &&& 0xFC).toUInt32 ||| function.toUInt32 <<< 8 ||| device.toUInt32 <<< 11 |||
        bus.toUInt32 <<< 16 ||| (1 : UInt32) <<< 31 := by
    rw [configAddress, UInt32.or_comm, UInt32.or_comm (_ ||| _), UInt32.or_comm (_ ||| _),
      UInt32.or_comm ((1 : UInt32) <<< 31), ← UInt32.or_assoc, ← UInt32.or_assoc,
      ← UInt32.or_assoc]
  have h0 := toNat_offset offset
  have hfield : ∀ x : UInt8, x.toUInt32.toNat = x.toNat := fun _ => rfl
  have h8 : ((offset &&& 0xFC).toUInt32 ||| function.toUInt32 <<< 8).toNat =
      offset.toNat / 4 * 4 + function.toNat * 2 ^ 8 := by
    rw [toNat_or_field (n := 8) rfl (by decide) (by omega), h0, hfield,
      Nat.mod_eq_of_lt (by omega)]
  have h11 : ((offset &&& 0xFC).toUInt32 ||| function.toUInt32 <<< 8 |||
      device.toUInt32 <<< 11).toNat =
      offset.toNat / 4 * 4 + function.toNat * 2 ^ 8 + device.toNat * 2 ^ 11 := by
    rw [toNat_or_field (n := 11) rfl (by decide) (by omega), h8, hfield,
      Nat.mod_eq_of_lt (by omega)]
  have h16 : ((offset &&& 0xFC).toUInt32 ||| function.toUInt32 <<< 8 |||
      device.toUInt32 <<< 11 ||| bus.toUInt32 <<< 16).toNat =
      offset.toNat / 4 * 4 + function.toNat * 2 ^ 8 + device.toNat * 2 ^ 11 +
        bus.toNat * 2 ^ 16 := by
    rw [toNat_or_field (n := 16) rfl (by decide) (by omega), h11, hfield,
      Nat.mod_eq_of_lt (by omega)]
  rw [horder, toNat_or_field (n := 31) rfl (by decide) (by omega), h16, UInt32.toNat_one]
  omega

theorem configAddress_inj (hd : device < 32) (hf : function < 8) (hd' : device' < 32)
    (hf' : function' < 8)
    (h : configAddress bus device function offset = configAddress bus' device' function' offset') :
    bus = bus' ∧ device = device' ∧ function = function' ∧ offset.toNat / 4 = offset'.toNat / 4 := by
  have hsum := congrArg UInt32.toNat h
  rw [toNat_configAddress hd hf, toNat_configAddress hd' hf'] at hsum
  rw [UInt8.lt_iff_toNat_lt] at hd hf hd' hf'
  have hd₁ : device.toNat < 32 := hd
  have hf₁ : function.toNat < 8 := hf
  have hd₂ : device'.toNat < 32 := hd'
  have hf₂ : function'.toNat < 8 := hf'
  have ho₁ := offset.toNat_lt
  have ho₂ := offset'.toNat_lt
  exact ⟨UInt8.toNat.inj (by omega), UInt8.toNat.inj (by omega), UInt8.toNat.inj (by omega),
    by omega⟩

/- Only the dword that an offset is in counts. -/
theorem configAddress_congr (h : offset.toNat / 4 = offset'.toNat / 4) :
    configAddress bus device function offset = configAddress bus device function offset' := by
  have ho : (offset &&& 0xFC).toUInt32 = (offset' &&& 0xFC).toUInt32 := by
    apply UInt32.toNat.inj
    rw [toNat_offset, toNat_offset, h]
  rw [configAddress, ho]
  rfl

end Address

/-! ### Words as lenses -/

theorem bit_one_iff (offset : UInt8) : offset &&& 2 ≠ 0 ↔ offset.toNat / 2 % 2 = 1 := by
  have hbit : (offset &&& 2).toNat = (offset.toNat.testBit 1).toNat * 2 ^ 1 :=
    Nat.and_two_pow offset.toNat 1
  have hdiv : offset.toNat.testBit 1 = decide (offset.toNat / 2 % 2 = 1) :=
    Nat.testBit_eq_decide_div_mod_eq
  rw [hdiv] at hbit
  constructor
  · intro h
    by_contra hne
    rw [decide_eq_false hne] at hbit
    exact h (UInt8.toNat.inj hbit)
  · intro h h0
    rw [decide_eq_true h, h0] at hbit
    exact absurd hbit (by decide)

theorem toNat_wordShift (offset : UInt8) :
    ((offset &&& 2).toUInt32 * 8).toNat = 16 * (offset.toNat / 2 % 2) := by
  have hbit := bit_one_iff offset
  by_cases h : offset &&& 2 = 0
  · have h0 : offset.toNat / 2 % 2 = 0 := by
      have hne := mt hbit.mpr (not_not.mpr h)
      omega
    rw [h, h0]
    rfl
  · have h2 : offset &&& 2 = 2 := by
      apply UInt8.toNat.inj
      have hle : (offset &&& 2).toNat = (offset.toNat.testBit 1).toNat * 2 ^ 1 :=
        Nat.and_two_pow offset.toNat 1
      have hne : (offset &&& 2).toNat ≠ 0 := fun h0 => h (UInt8.toNat.inj h0)
      have hb := Bool.toNat_le (offset.toNat.testBit 1)
      have htwo : (2 : UInt8).toNat = 2 := rfl
      omega
    rw [h2, hbit.mp h]
    rfl

theorem toNat_shiftRight {d k : UInt32} {n : ℕ} (hk : k.toNat = n) (hn : n < 32) :
    (d >>> k).toNat = d.toNat / 2 ^ n := by
  rw [UInt32.toNat_shiftRight, hk, Nat.mod_eq_of_lt hn, Nat.shiftRight_eq_div_pow]

/- Masked parts of a dword. -/
theorem toNat_maskWord (d : UInt32) : (d &&& 0xFFFF).toUInt16.toNat = d.toNat % 2 ^ 16 := by
  have hmask : (d &&& 0xFFFF).toNat = d.toNat % 2 ^ 16 := Nat.and_two_pow_sub_one_eq_mod d.toNat 16
  have hcast : (d &&& 0xFFFF).toUInt16.toNat = (d &&& 0xFFFF).toNat % 2 ^ 16 := rfl
  rw [hcast, hmask, Nat.mod_mod]

theorem toNat_maskByte (d : UInt32) : (d &&& 0xFF).toUInt8.toNat = d.toNat % 2 ^ 8 := by
  have hmask : (d &&& 0xFF).toNat = d.toNat % 2 ^ 8 := Nat.and_two_pow_sub_one_eq_mod d.toNat 8
  have hcast : (d &&& 0xFF).toUInt8.toNat = (d &&& 0xFF).toNat % 2 ^ 8 := rfl
  rw [hcast, hmask, Nat.mod_mod]

/- A word and a byte of a dword, `n` bits from its end. -/
theorem toNat_dwordWord {d k : UInt32} {n : ℕ} (hk : k.toNat = n) (hn : n < 32) :
    ((d >>> k) &&& 0xFFFF).toUInt16.toNat = d.toNat / 2 ^ n % 2 ^ 16 := by
  rw [toNat_maskWord, toNat_shiftRight hk hn]

theorem toNat_dwordByte {d k : UInt32} {n : ℕ} (hk : k.toNat = n) (hn : n < 32) :
    ((d >>> k) &&& 0xFF).toUInt8.toNat = d.toNat / 2 ^ n % 2 ^ 8 := by
  rw [toNat_maskByte, toNat_shiftRight hk hn]

theorem toNat_low (d : UInt32) : d.toUInt16.toNat = d.toNat % 2 ^ 16 := rfl

theorem toNat_high (d : UInt32) : (d >>> 16).toUInt16.toNat = d.toNat / 2 ^ 16 := by
  have hd := d.toNat_lt
  rw [toNat_low, toNat_shiftRight (n := 16) rfl (by decide)]
  exact Nat.mod_eq_of_lt (by omega)

theorem toNat_putLow (d : UInt32) (v : UInt16) :
    ((d &&& 0xFFFF0000) ||| v.toUInt32).toNat = d.toNat / 2 ^ 16 * 2 ^ 16 + v.toNat := by
  have hmask : (d &&& 0xFFFF0000).toNat = d.toNat / 2 ^ 16 * 2 ^ 16 :=
    and_mask (w := 32) (k := 16) (by decide) d.toNat_lt
  have hv : v.toUInt32.toNat = v.toNat := rfl
  rw [UInt32.toNat_or, hmask, hv, ← Nat.shiftLeft_eq, ← Nat.shiftLeft_add_eq_or_of_lt v.toNat_lt]

theorem toNat_putHigh (d : UInt32) (v : UInt16) :
    ((d &&& (0x0000FFFF : UInt32)) ||| (v.toUInt32 <<< 16)).toNat = d.toNat % 2 ^ 16 + v.toNat * 2 ^ 16 := by
  have hmask : (d &&& 0x0000FFFF).toNat = d.toNat % 2 ^ 16 :=
    Nat.and_two_pow_sub_one_eq_mod d.toNat 16
  have hv : v.toUInt32.toNat % 2 ^ (32 - 16) = v.toNat := Nat.mod_eq_of_lt v.toNat_lt
  rw [toNat_or_field (n := 16) rfl (by decide) (hmask ▸ Nat.mod_lt _ (by decide)), hmask, hv]

/- The two words of a dword. -/
def lowWord : Lens UInt32 UInt16 where
  get d := d.toUInt16
  put d v := (d &&& 0xFFFF0000) ||| v.toUInt32
  get_put d v := by
    apply UInt16.toNat.inj
    have hv := v.toNat_lt
    rw [toNat_low, toNat_putLow]
    omega
  put_get d := by
    apply UInt32.toNat.inj
    rw [toNat_putLow, toNat_low]
    omega
  put_put d v w := by
    apply UInt32.toNat.inj
    have hv := v.toNat_lt
    rw [toNat_putLow, toNat_putLow, toNat_putLow]
    omega

def highWord : Lens UInt32 UInt16 where
  get d := (d >>> 16).toUInt16
  put d v := (d &&& (0x0000FFFF : UInt32)) ||| (v.toUInt32 <<< 16)
  get_put d v := by
    apply UInt16.toNat.inj
    rw [toNat_high, toNat_putHigh]
    omega
  put_get d := by
    apply UInt32.toNat.inj
    rw [toNat_putHigh, toNat_high]
    omega
  put_put d v w := by
    apply UInt32.toNat.inj
    rw [toNat_putHigh, toNat_putHigh, toNat_putHigh]
    omega

theorem lowWord_apart : Apart lowWord highWord := by
  intro d v
  apply UInt16.toNat.inj
  have hv := v.toNat_lt
  show ((((d &&& 0xFFFF0000) ||| v.toUInt32) >>> 16).toUInt16).toNat = ((d >>> 16).toUInt16).toNat
  rw [toNat_high, toNat_high, toNat_putLow]
  omega

theorem highWord_apart : Apart highWord lowWord := by
  intro d v
  apply UInt16.toNat.inj
  show (((d &&& (0x0000FFFF : UInt32)) ||| (v.toUInt32 <<< 16)).toUInt16).toNat = d.toUInt16.toNat
  rw [toNat_low, toNat_low, toNat_putHigh]
  omega

/- The word of a dword that an offset selects. -/
def half (offset : UInt8) : Lens UInt32 UInt16 := if offset &&& 2 ≠ 0 then highWord else lowWord

theorem half_apart {offset offset' : UInt8} (h : offset.toNat / 2 % 2 ≠ offset'.toNat / 2 % 2) :
    Apart (half offset) (half offset') := by
  have hbit := bit_one_iff offset
  have hbit' := bit_one_iff offset'
  unfold half
  by_cases ho : offset &&& 2 ≠ 0
  · rw [if_pos ho, if_neg fun ho' => h ((hbit.mp ho).trans (hbit'.mp ho').symm)]
    exact highWord_apart
  · have ho' : offset' &&& 2 ≠ 0 := by
      have hne := mt hbit.mpr ho
      exact hbit'.mpr (by omega)
    rw [if_neg ho, if_pos ho']
    exact lowWord_apart

/- A word of configuration space. -/
def word (bus device function offset : UInt8) : Lens (UInt32 → UInt32) UInt16 :=
  (cell (configAddress bus device function offset)).comp (half offset)

theorem word_apart {bus device function offset bus' device' function' offset' : UInt8}
    (hd : device < 32) (hf : function < 8) (ho : offset % 2 = 0) (hd' : device' < 32)
    (hf' : function' < 8) (ho' : offset' % 2 = 0)
    (hne : (bus', device', function', offset') ≠ (bus, device, function, offset)) :
    Apart (word bus device function offset) (word bus' device' function' offset') := by
  by_cases ha : configAddress bus device function offset =
      configAddress bus' device' function' offset'
  · obtain ⟨rfl, rfl, rfl, hq⟩ := configAddress_inj hd hf hd' hf' ha
    have hoff : offset'.toNat ≠ offset.toNat := fun he => hne (by rw [UInt8.toNat.inj he])
    have he : offset.toNat % 2 = 0 := congrArg UInt8.toNat ho
    have he' : offset'.toNat % 2 = 0 := congrArg UInt8.toNat ho'
    rw [word, word, ha]
    exact (half_apart (by omega)).inner _
  · exact (apart_cell ha).comp _ _

/-! ### The access functions -/

section Access
variable (bus device function offset : UInt8) (p : ConfigPorts)

/- Reading moves the address only. -/
theorem pciConfigRead_dwords : (pciConfigRead bus device function offset p).2.dwords = p.dwords :=
  rfl

theorem pciConfigReadWord_dwords :
    (pciConfigReadWord bus device function offset p).2.dwords = p.dwords := rfl

theorem pciConfigReadByte_dwords :
    (pciConfigReadByte bus device function offset p).2.dwords = p.dwords := rfl

theorem pciConfigRead_eq :
    (pciConfigRead bus device function offset p).1 =
      p.dwords (configAddress bus device function offset) := rfl

theorem toNat_pciConfigReadWord :
    (pciConfigReadWord bus device function offset p).1.toNat =
      (pciConfigRead bus device function offset p).1.toNat /
        2 ^ (16 * (offset.toNat / 2 % 2)) % 2 ^ 16 :=
  toNat_dwordWord (toNat_wordShift offset) (by omega)

theorem toNat_byteShift : ((offset &&& 3).toUInt32 * 8).toNat = 8 * (offset.toNat % 4) := by
  have hmask : (offset &&& 3).toUInt32.toNat = offset.toNat % 4 :=
    Nat.and_two_pow_sub_one_eq_mod offset.toNat 2
  have h8 : (8 : UInt32).toNat = 8 := rfl
  rw [UInt32.toNat_mul, hmask, h8]
  omega

theorem toNat_pciConfigReadByte :
    (pciConfigReadByte bus device function offset p).1.toNat =
      (pciConfigRead bus device function offset p).1.toNat /
        2 ^ (8 * (offset.toNat % 4)) % 2 ^ 8 := by
  have hoff : (offset &&& 0xFC).toNat / 4 = offset.toNat / 4 := by
    have h := toNat_offset offset
    have heq : (offset &&& 0xFC).toUInt32.toNat = (offset &&& 0xFC).toNat := rfl
    omega
  have hdword : (pciConfigRead bus device function (offset &&& 0xFC) p).1 =
      (pciConfigRead bus device function offset p).1 := by
    rw [pciConfigRead_eq, pciConfigRead_eq, configAddress_congr hoff]
  have hread : (pciConfigReadByte bus device function offset p).1 =
      (((pciConfigRead bus device function (offset &&& 0xFC) p).1 >>>
        ((offset &&& 3).toUInt32 * 8)) &&& 0xFF).toUInt8 := rfl
  rw [hread, hdword, toNat_dwordByte (toNat_byteShift offset) (by omega)]

theorem half_get (d : UInt32) :
    ((half offset).get d).toNat = d.toNat / 2 ^ (16 * (offset.toNat / 2 % 2)) % 2 ^ 16 := by
  have hbit := bit_one_iff offset
  unfold half
  by_cases ho : offset &&& 2 ≠ 0
  · rw [if_pos ho, hbit.mp ho, Nat.mod_eq_of_lt (by have h := d.toNat_lt; omega)]
    exact toNat_high d
  · have h0 : offset.toNat / 2 % 2 = 0 := by
      have hne := mt hbit.mpr ho
      omega
    rw [if_neg ho, h0, Nat.mul_zero, Nat.pow_zero, Nat.div_one]
    rfl

/- The functions read and write through the lens of the word. -/
theorem pciConfigReadWord_eq :
    (pciConfigReadWord bus device function offset p).1 =
      (word bus device function offset).get p.dwords := by
  apply UInt16.toNat.inj
  rw [toNat_pciConfigReadWord, pciConfigRead_eq]
  exact (half_get offset _).symm

theorem pciConfigWriteWord_eq (value : UInt16) :
    (pciConfigWriteWord bus device function offset value p).dwords =
      (word bus device function offset).put p.dwords value := by
  show Function.update p.dwords _ _ = Function.update p.dwords _ _
  congr 1
  unfold half
  by_cases ho : offset &&& 2 ≠ 0
  · rw [if_pos ho, if_pos ho]
    rfl
  · rw [if_neg ho, if_neg ho]
    rfl

/- The dword of the command register is all that bus mastering touches. -/
theorem pciEnableBusMastering_eq (dev : PciDevice) :
    (pciEnableBusMastering dev p).dwords =
      (word dev.bus dev.device dev.function 0x04).put p.dwords
        ((word dev.bus dev.device dev.function 0x04).get p.dwords ||| 4) := by
  rw [← pciConfigReadWord_eq]
  exact pciConfigWriteWord_eq ..

end Access

/- The words there are: 32 devices of 8 functions on a bus, and even offsets. -/
def InRange (device function offset : UInt8) : Prop :=
  device < 32 ∧ function < 8 ∧ offset % 2 = 0

instance (device function offset : UInt8) : Decidable (InRange device function offset) :=
  inferInstanceAs (Decidable (_ ∧ _ ∧ _))

/- A change of configuration space that leaves every other word alone. -/
def OnlyWord (bus device function offset : UInt8) (p p' : ConfigPorts) : Prop :=
  (∀ a, a ≠ configAddress bus device function offset → p'.dwords a = p.dwords a) ∧
  ∀ bus' device' function' offset', InRange device' function' offset' →
    (bus', device', function', offset') ≠ (bus, device, function, offset) →
    (pciConfigReadWord bus' device' function' offset' p').1 =
      (pciConfigReadWord bus' device' function' offset' p).1

theorem onlyWord_put {bus device function offset : UInt8} (h : InRange device function offset)
    {p p' : ConfigPorts} {v : UInt16}
    (hput : p'.dwords = (word bus device function offset).put p.dwords v) :
    OnlyWord bus device function offset p p' := by
  refine ⟨fun a ha => ?_, fun bus' device' function' offset' h' hne => ?_⟩
  · rw [hput]
    exact Function.update_of_ne ha _ _
  · rw [pciConfigReadWord_eq, pciConfigReadWord_eq, hput]
    exact word_apart h.1 h.2.1 h.2.2 h'.1 h'.2.1 h'.2.2 hne p.dwords v

/- What the access functions promise of one word. -/
structure WordAccess (bus device function offset : UInt8) (p : ConfigPorts) (value : UInt16) :
    Prop where
  get_put : (pciConfigReadWord bus device function offset
    (pciConfigWriteWord bus device function offset value p)).1 = value
  put_get : (pciConfigWriteWord bus device function offset
    (pciConfigReadWord bus device function offset p).1 p).dwords = p.dwords
  put_put : ∀ later, (pciConfigWriteWord bus device function offset later
    (pciConfigWriteWord bus device function offset value p)).dwords =
      (pciConfigWriteWord bus device function offset later p).dwords
  frame : OnlyWord bus device function offset p
    (pciConfigWriteWord bus device function offset value p)

/- The three ways to read show slices of one dword, and leave all dwords as they are. -/
structure Slices (bus device function offset : UInt8) (p : ConfigPorts) : Prop where
  dword : ∀ offset', offset'.toNat / 4 = offset.toNat / 4 →
    (pciConfigRead bus device function offset' p).1 = (pciConfigRead bus device function offset p).1
  word : (pciConfigReadWord bus device function offset p).1.toNat =
    (pciConfigRead bus device function offset p).1.toNat / 2 ^ (16 * (offset.toNat / 2 % 2)) % 2 ^ 16
  byte : (pciConfigReadByte bus device function offset p).1.toNat =
    (pciConfigRead bus device function offset p).1.toNat / 2 ^ (8 * (offset.toNat % 4)) % 2 ^ 8
  dwords : (pciConfigRead bus device function offset p).2.dwords = p.dwords ∧
    (pciConfigReadWord bus device function offset p).2.dwords = p.dwords ∧
    (pciConfigReadByte bus device function offset p).2.dwords = p.dwords

theorem slices (bus device function offset : UInt8) (p : ConfigPorts) :
    Slices bus device function offset p :=
  ⟨fun offset' h => by rw [pciConfigRead_eq, pciConfigRead_eq, configAddress_congr h],
    toNat_pciConfigReadWord .., toNat_pciConfigReadByte ..,
    pciConfigRead_dwords .., pciConfigReadWord_dwords .., pciConfigReadByte_dwords ..⟩

/-- Words of configuration space are read and written as cells of a memory are, and bus
mastering sets one bit of one word. -/
theorem word_access_lawful (bus device function offset : UInt8) (h : InRange device function offset)
    (p : ConfigPorts) (value : UInt16) :
    WordAccess bus device function offset p value ∧
    (∀ bus device function offset, Slices bus device function offset p) ∧
    ∀ dev : PciDevice, dev.bus = bus → dev.device = device → dev.function = function →
      (pciConfigReadWord bus device function 0x04 (pciEnableBusMastering dev p)).1 =
        (pciConfigReadWord bus device function 0x04 p).1 ||| ((1 : UInt16) <<< 2) ∧
      OnlyWord bus device function 0x04 p (pciEnableBusMastering dev p) := by
  have hread := pciConfigReadWord_eq bus device function offset
  have hwrite := pciConfigWriteWord_eq bus device function offset
  refine ⟨⟨?_, ?_, ?_, ?_⟩, fun _ _ _ _ => slices .., ?_⟩
  · rw [hread, hwrite, get_put]
  · rw [hread, hwrite, put_get]
  · intro later
    rw [hwrite, hwrite, hwrite, put_put]
  · exact onlyWord_put h (hwrite p value)
  · rintro dev rfl rfl rfl
    have henable := pciEnableBusMastering_eq p dev
    refine ⟨?_, onlyWord_put ⟨h.1, h.2.1, rfl⟩ henable⟩
    rw [pciConfigReadWord_eq, pciConfigReadWord_eq, henable, get_put]
    rfl

/- The command register of the UHCI controller of a PIIX3, with only I/O enabled. -/
theorem word_access_lawful_command :
    WordAccess 0 1 2 0x04 ⟨0, fun _ => 0x02800001⟩ 0x0005 :=
  (word_access_lawful 0 1 2 0x04 (by decide) ⟨0, fun _ => 0x02800001⟩ 0x0005).1

end CasseOS.Pci
