import CasseOS.Lib.CInt
import CasseOS.Usb.HidKbd
import CasseOS.Usb.Transfer

/-! # The token of a TD

A token has five fields; the driver makes it with shifts and bitwise or
(`uhci_build_in_token` and the helpers of `transfer.c`). Here a token is read back
as the controller reads it. The length field has 11 bits: what is shifted out of
the word at the top is lost. -/

namespace CasseOS.Usb
open CInt

/-! ### The fields of a token -/

structure TokenFields where
  pid : ℕ
  addr : ℕ
  ep : ℕ
  toggle : ℕ
  length : ℕ
deriving DecidableEq

/- Bits 0-7, 8-14, 15-18, 19, and bits 21-31 plus 1 (`hid_kbd.c:47-52`). -/
def decodeToken (token : UInt32) : TokenFields where
  pid := token.toNat % 2 ^ 8
  addr := token.toNat / 2 ^ 8 % 2 ^ 7
  ep := token.toNat / 2 ^ 15 % 2 ^ 4
  toggle := token.toNat / 2 ^ 19 % 2
  length := token.toNat / 2 ^ 21 + 1

/- Fields that fit in their places are read back, where the token is their sum. -/
theorem decodeToken_of_sum {token : UInt32} {pid addr ep toggle m1 : ℕ}
    (h : token.toNat = pid + addr * 2 ^ 8 + ep * 2 ^ 15 + toggle * 2 ^ 19 + m1 * 2 ^ 21)
    (hpid : pid < 2 ^ 8) (haddr : addr < 2 ^ 7) (hep : ep < 2 ^ 4) (htoggle : toggle < 2) :
    decodeToken token = ⟨pid, addr, ep, toggle, m1 + 1⟩ := by
  simp only [decodeToken, TokenFields.mk.injEq, h]
  exact ⟨by omega, by omega, by omega, by omega, by omega⟩

/-! ### Putting the fields together -/

/-- A token as the driver writes it down: five fields at their places. -/
def tokenOf (pid addr ep toggle m1 : UInt32) : UInt32 :=
  pid ||| addr <<< 8 ||| ep <<< 15 ||| toggle <<< 19 ||| m1 <<< 21

theorem decodeToken_tokenOf {pid addr ep toggle : UInt32} (m1 : UInt32)
    (hpid : pid.toNat < 2 ^ 8) (haddr : addr.toNat < 2 ^ 7) (hep : ep.toNat < 2 ^ 4)
    (htoggle : toggle.toNat < 2) :
    decodeToken (tokenOf pid addr ep toggle m1) =
      ⟨pid.toNat, addr.toNat, ep.toNat, toggle.toNat, m1.toNat % 2 ^ 11 + 1⟩ := by
  refine decodeToken_of_sum ?_ hpid haddr hep htoggle
  have h8 : (pid ||| addr <<< 8).toNat = pid.toNat + addr.toNat * 2 ^ 8 := by
    rw [toNat_or_field (n := 8) rfl (by decide) hpid, Nat.mod_eq_of_lt (by omega)]
  have h15 : (pid ||| addr <<< 8 ||| ep <<< 15).toNat =
      pid.toNat + addr.toNat * 2 ^ 8 + ep.toNat * 2 ^ 15 := by
    rw [toNat_or_field (n := 15) rfl (by decide) (by omega), h8, Nat.mod_eq_of_lt (by omega)]
  have h19 : (pid ||| addr <<< 8 ||| ep <<< 15 ||| toggle <<< 19).toNat =
      pid.toNat + addr.toNat * 2 ^ 8 + ep.toNat * 2 ^ 15 + toggle.toNat * 2 ^ 19 := by
    rw [toNat_or_field (n := 19) rfl (by decide) (by omega), h15, Nat.mod_eq_of_lt (by omega)]
  rw [tokenOf, toNat_or_field (n := 21) rfl (by decide) (by omega), h19]

/-! ### The tokens of the driver -/

theorem uhciBuildInToken_eq (addr ep toggle : UInt8) (maxLen : UInt16) :
    uhciBuildInToken addr ep toggle maxLen =
      tokenOf 0x69 addr.toUInt32 (ep &&& 0x0F).toUInt32 (if toggle ≠ 0 then 1 else 0)
        ((if maxLen ≠ 0 then maxLen.toUInt32 - 1 else 0) &&& 0x7FF) := rfl

/- `uhci_build_in_token` asks for what it is called with. -/
theorem decodeToken_build {addr ep toggle : UInt8} {maxLen : UInt16} (haddr : addr ≤ 127)
    (hep : ep ≤ 15) (htoggle : toggle ≤ 1) (hmin : 1 ≤ maxLen) (hmax : maxLen ≤ 2048) :
    decodeToken (uhciBuildInToken addr ep toggle maxLen) =
      ⟨0x69, addr.toNat, ep.toNat, toggle.toNat, maxLen.toNat⟩ := by
  rw [UInt8.le_iff_toNat_le] at haddr hep htoggle
  rw [UInt16.le_iff_toNat_le] at hmin hmax
  have haddr' : addr.toUInt32.toNat ≤ 127 := haddr
  have hep' : (ep &&& 0x0F).toUInt32.toNat = ep.toNat := by
    have hmask : (ep &&& 0x0F).toUInt32.toNat = ep.toNat % 2 ^ 4 :=
      Nat.and_two_pow_sub_one_eq_mod ep.toNat 4
    rw [hmask]
    exact Nat.mod_eq_of_lt (Nat.lt_succ_of_le hep)
  have htoggle' : (if toggle ≠ 0 then (1 : UInt32) else 0).toNat = toggle.toNat := by
    split_ifs with h
    · have hne : toggle.toNat ≠ 0 := fun h0 => h (UInt8.toNat.inj h0)
      exact Nat.le_antisymm (Nat.one_le_iff_ne_zero.mpr hne) htoggle
    · rw [not_not.mp h]
      rfl
  have hm1 : ((if maxLen ≠ 0 then maxLen.toUInt32 - 1 else 0) &&& 0x7FF : UInt32).toNat =
      maxLen.toNat - 1 := by
    have hne : maxLen ≠ 0 := fun h0 => by
      rw [h0] at hmin
      exact absurd hmin (by decide)
    have hsub : (maxLen.toUInt32 - 1).toNat = maxLen.toNat - 1 :=
      UInt32.toNat_sub_of_le _ _ (UInt32.le_iff_toNat_le.mpr hmin)
    have hmask : ((maxLen.toUInt32 - 1) &&& 0x7FF).toNat = (maxLen.toUInt32 - 1).toNat % 2 ^ 11 :=
      Nat.and_two_pow_sub_one_eq_mod _ 11
    rw [if_pos hne, hmask, hsub]
    exact Nat.mod_eq_of_lt (Nat.lt_of_le_of_lt (Nat.sub_le_sub_right hmax 1) (by decide))
  have hlen : (maxLen.toNat - 1) % 2 ^ 11 + 1 = maxLen.toNat := by
    have h1 : 1 ≤ maxLen.toNat := hmin
    have h2 : maxLen.toNat ≤ 2048 := hmax
    omega
  rw [uhciBuildInToken_eq, decodeToken_tokenOf _ (by decide) (Nat.lt_succ_of_le haddr')
    (by rw [hep']; exact Nat.lt_succ_of_le hep) (by rw [htoggle']; exact Nat.lt_succ_of_le htoggle),
    hep', htoggle', hm1, hlen]
  rfl

/- The token of the data stage of a GET_DESCRIPTOR request. -/
def dataToken (addr : UInt8) (length : UInt16) : UInt32 :=
  (0x69 : UInt32) ||| (addr.toUInt32 <<< 8) ||| bit 19 ||| ((length.toUInt32 - 1) <<< 21)

theorem descriptorRequest_data (addr : UInt8) (descType length : UInt16) (buffer : Addr) :
    (descriptorRequest addr descType length buffer).data =
      some (dataToken addr length, buffer) := rfl

theorem dataToken_eq (addr : UInt8) (length : UInt16) :
    dataToken addr length = tokenOf 0x69 addr.toUInt32 0 1 (length.toUInt32 - 1) := by
  have h0 : (0 : UInt32) <<< 15 = 0 := rfl
  rw [dataToken, tokenOf, h0, UInt32.or_zero]
  rfl

/- The data stage is for the length modulo 2048. -/
theorem decodeToken_dataToken {addr : UInt8} {length : UInt16} (haddr : addr ≤ 127)
    (hmin : 1 ≤ length) :
    decodeToken (dataToken addr length) =
      ⟨0x69, addr.toNat, 0, 1, (length.toNat - 1) % 2048 + 1⟩ := by
  rw [UInt8.le_iff_toNat_le] at haddr
  have haddr' : addr.toUInt32.toNat ≤ 127 := haddr
  have hsub : (length.toUInt32 - 1).toNat = length.toNat - 1 :=
    UInt32.toNat_sub_of_le _ _ (UInt32.le_iff_toNat_le.mpr (UInt16.le_iff_toNat_le.mp hmin))
  rw [dataToken_eq, decodeToken_tokenOf _ (by decide) (Nat.lt_succ_of_le haddr') (by decide)
    (by decide), hsub]
  rfl

/-- The token of the pipe is always right; the token of the data stage is, if and only
if the length that the setup packet asks for fits in its field. -/
theorem tokens_ask (addr : UInt8) (totalLen : UInt16) (buf : Addr) (haddr : 1 ≤ addr ∧ addr ≤ 127)
    (hlen : 1 ≤ totalLen) :
    (∀ (a ep toggle : UInt8) (maxLen : UInt16), a ≤ 127 → ep ≤ 15 → toggle ≤ 1 → 1 ≤ maxLen →
      maxLen ≤ 2048 → decodeToken (uhciBuildInToken a ep toggle maxLen) =
        ⟨0x69, a.toNat, ep.toNat, toggle.toNat, maxLen.toNat⟩) ∧
    (((descriptorRequest addr usbDescTypeConfiguration totalLen buf).data.map fun d =>
        decodeToken d.1) = some ⟨0x69, addr.toNat, 0, 1, totalLen.toNat⟩ ↔ totalLen ≤ 2048) := by
  refine ⟨fun a ep toggle maxLen => decodeToken_build, ?_⟩
  rw [descriptorRequest_data, Option.map_some, Option.some_inj,
    decodeToken_dataToken haddr.2 hlen, UInt16.le_iff_toNat_le, TokenFields.mk.injEq]
  have hmin : 1 ≤ totalLen.toNat := hlen
  have hmax : (2048 : UInt16).toNat = 2048 := by decide
  constructor
  · rintro ⟨-, -, -, -, h⟩
    omega
  · intro h
    exact ⟨rfl, rfl, rfl, rfl, by omega⟩

/- A keyboard with address 3 whose configuration is 32 bytes long, and the pipe of its
endpoint 1 with the toggle set. -/
theorem tokens_ask_short :
    decodeToken (uhciBuildInToken 3 1 1 8) = ⟨0x69, 3, 1, 1, 8⟩ ∧
      ((descriptorRequest 3 usbDescTypeConfiguration 32 0x2000).data.map fun d =>
        decodeToken d.1) = some ⟨0x69, 3, 0, 1, 32⟩ :=
  have hasks := tokens_ask 3 32 0x2000 ⟨by decide, by decide⟩ (by decide)
  ⟨hasks.1 3 1 1 8 (by decide) (by decide) (by decide) (by decide) (by decide),
    hasks.2.mpr (by decide)⟩

/- 2049 bytes are asked for, and the data stage is for one. -/
theorem long_configuration_spills :
    ¬ ∀ (addr : UInt8) (totalLen : UInt16) (buf : Addr), 1 ≤ addr → addr ≤ 127 → 1 ≤ totalLen →
      ((descriptorRequest addr usbDescTypeConfiguration totalLen buf).data.map fun d =>
        decodeToken d.1) = some ⟨0x69, addr.toNat, 0, 1, totalLen.toNat⟩ := by
  intro h
  have h1 := h 1 2049 0x2000 (by decide) (by decide) (by decide)
  rw [descriptorRequest_data, Option.map_some, Option.some_inj] at h1
  exact absurd h1 (by decide)

end CasseOS.Usb
