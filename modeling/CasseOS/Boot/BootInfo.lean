import CasseOS.Lib.Reading
import Mathlib.Data.Nat.Digits.Lemmas
import Mathlib.Data.UInt
import Mathlib.Order.Bounds.Basic
import Mathlib.Tactic.Common

/-! # The header in the kernel image (`bootloader/uefi/main.c`, `kernel_bootinfo.h`)

The kernel image ends with a structure that the loader fills in. The loader finds
it by its magic number: it starts at the last place the structure fits in and goes
back byte by byte. The cells that are read are the bytes of memory, counted from
the address of the image on. -/

namespace CasseOS.Boot
open Reading

/- `KERNEL_BOOTINFO_MAGIC`. -/
def kernelBootinfoMagic : UInt64 := 0x4341535345554546

/- `sizeof(kernel_bootinfo_t)`: five words of 64 bits and four of 32. -/
def kernelBootinfoSize : UInt64 := 5 * 8 + 4 * 4

/- The first member of the structure at `offset`, least significant byte first. -/
def candidateMagic (offset : UInt64) : Reading UInt8 UInt64 := do
  let bytes ← copy offset.toNat 8
  pure (UInt64.ofNat (Nat.ofDigits 256 (bytes.map UInt8.toNat)))

/-- A round of the loop (`main.c:32-42`) on `offset` and `max_steps`. -/
def bootinfoRound (s : UInt64 × UInt64) :
    Reading UInt8 ((UInt64 × UInt64) ⊕ Option UInt64) := do
  let magic ← candidateMagic s.1
  if magic = kernelBootinfoMagic then pure (.inr (some s.1))
  else if s.1 = 0 ∨ s.2 = 0 then pure (.inr none)
  else pure (.inl (s.1 - 1, s.2 - 1))

/-- `find_kernel_bootinfo` (`main.c:23-44`), with `fuel` rounds at most; the result
is an offset into the image. -/
def findKernelBootinfo (imageSize : UInt64) (fuel : ℕ) :
    Reading UInt8 (Option (Option UInt64)) :=
  if imageSize < kernelBootinfoSize then pure (some none)
  else
    let searchWindow := if imageSize < 0x8000 then imageSize else 0x8000
    let maxSteps :=
      if kernelBootinfoSize < searchWindow then searchWindow - kernelBootinfoSize else 0
    iterate bootinfoRound fuel (imageSize - kernelBootinfoSize, maxSteps)

/-! ### The magic number -/

/- The bytes of the magic number in memory. -/
def magicBytes : List UInt8 := [0x46, 0x45, 0x55, 0x45, 0x53, 0x53, 0x41, 0x43]

def HoldsMagic (mem : ℕ → UInt8) (o : ℕ) : Prop :=
  (List.range 8).map (fun i => mem (o + i)) = magicBytes

instance (mem : ℕ → UInt8) (o : ℕ) : Decidable (HoldsMagic mem o) :=
  inferInstanceAs (Decidable (_ = _))

theorem ofDigits_lt {l : List UInt8} (hl : l.length = 8) :
    Nat.ofDigits 256 (l.map UInt8.toNat) < 2 ^ 64 := by
  have h : Nat.ofDigits 256 (l.map UInt8.toNat) < 256 ^ (l.map UInt8.toNat).length := by
    refine Nat.ofDigits_lt_base_pow_length (by norm_num) fun d hd => ?_
    obtain ⟨b, -, rfl⟩ := List.mem_map.mp hd
    exact b.toNat_lt
  rwa [List.length_map, hl] at h

theorem magic_of_bytes {l : List UInt8} (hl : l.length = 8) :
    UInt64.ofNat (Nat.ofDigits 256 (l.map UInt8.toNat)) = kernelBootinfoMagic ↔
      l = magicBytes := by
  constructor
  · intro h
    have hval := congrArg UInt64.toNat h
    rw [UInt64.toNat_ofNat_of_lt' (ofDigits_lt hl)] at hval
    have hmagic : kernelBootinfoMagic.toNat =
        Nat.ofDigits 256 (magicBytes.map UInt8.toNat) := by decide
    rw [hmagic] at hval
    have hdigit : ∀ l : List UInt8, ∀ d ∈ l.map UInt8.toNat, d < 256 := by
      intro l d hd
      obtain ⟨b, -, rfl⟩ := List.mem_map.mp hd
      exact b.toNat_lt
    have hmap := Nat.ofDigits_inj_of_len_eq (by norm_num) (by simp [hl, magicBytes])
      (hdigit l) (hdigit magicBytes) hval
    exact List.map_injective_iff.mpr (fun a b => UInt8.toNat.inj) hmap
  · rintro rfl
    decide

section Scan
variable (mem : ℕ → UInt8)

theorem run_candidateMagic (offset : UInt64) :
    (candidateMagic offset).run mem = kernelBootinfoMagic ↔ HoldsMagic mem offset.toNat := by
  simp only [candidateMagic, run_bind, run_copy, run_pure]
  exact magic_of_bytes (by simp)

theorem reads_candidateMagic (offset : UInt64) :
    (candidateMagic offset).reads mem = (List.range 8).map fun i => offset.toNat + i := by
  simp only [candidateMagic, reads_bind, reads_copy, reads_pure, List.append_nil]

/-! ### The scan -/

/- What one round does: it finds the header, gives up, or goes one byte back. -/
theorem run_bootinfoRound (s : UInt64 × UInt64) :
    (HoldsMagic mem s.1.toNat ∧ (bootinfoRound s).run mem = .inr (some s.1)) ∨
    (¬ HoldsMagic mem s.1.toNat ∧ (s.1 = 0 ∨ s.2 = 0) ∧ (bootinfoRound s).run mem = .inr none) ∨
    (¬ HoldsMagic mem s.1.toNat ∧ ¬(s.1 = 0 ∨ s.2 = 0) ∧
      (bootinfoRound s).run mem = .inl (s.1 - 1, s.2 - 1)) := by
  have hrun := run_candidateMagic mem s.1
  rw [bootinfoRound, run_bind]
  by_cases hm : HoldsMagic mem s.1.toNat
  · rw [if_pos (hrun.mpr hm)]
    exact Or.inl ⟨hm, rfl⟩
  · rw [if_neg fun h => hm (hrun.mp h)]
    by_cases hz : s.1 = 0 ∨ s.2 = 0
    · rw [if_pos hz]
      exact Or.inr (Or.inl ⟨hm, hz, rfl⟩)
    · rw [if_neg hz]
      exact Or.inr (Or.inr ⟨hm, hz, rfl⟩)

theorem reads_bootinfoRound (s : UInt64 × UInt64) :
    (bootinfoRound s).reads mem = (List.range 8).map fun i => s.1.toNat + i := by
  rw [bootinfoRound, reads_bind, reads_candidateMagic]
  split_ifs <;> rw [reads_pure, List.append_nil]

/- What is looked for: the last place from `lo` to `hi` with the magic number. -/
def LastIn (lo hi : ℕ) : Option UInt64 → Prop
  | some o => IsGreatest {j | lo ≤ j ∧ j ≤ hi ∧ HoldsMagic mem j} o.toNat
  | none => ∀ j, lo ≤ j → j ≤ hi → ¬ HoldsMagic mem j

theorem LastIn.back {mem : ℕ → UInt8} {lo hi : ℕ} {r : Option UInt64}
    (h : LastIn mem lo hi r) (hm : ¬ HoldsMagic mem (hi + 1)) : LastIn mem lo (hi + 1) r := by
  cases r with
  | none =>
    intro j hlo hhi hj
    obtain rfl | hlt := Nat.eq_or_lt_of_le hhi
    · exact hm hj
    · exact h j hlo (Nat.lt_succ_iff.mp hlt) hj
  | some o =>
    obtain ⟨⟨hlo, hhi, ho⟩, hmax⟩ := h
    refine ⟨⟨hlo, Nat.le_succ_of_le hhi, ho⟩, ?_⟩
    rintro j ⟨hj, hjhi, hjm⟩
    obtain rfl | hlt := Nat.eq_or_lt_of_le hjhi
    · exact absurd hjm hm
    · exact hmax ⟨hj, Nat.lt_succ_iff.mp hlt, hjm⟩

/- The loop reads no byte after the structure it starts at; with rounds enough it
ends with the last header. It never goes back before the image, as `max_steps` is
at most `offset` in every round. -/
theorem iterate_bootinfoRound (fuel : ℕ) (s : UInt64 × UInt64) (hs : s.2.toNat ≤ s.1.toNat) :
    (∀ i ∈ (iterate bootinfoRound fuel s).reads mem, i < s.1.toNat + 8) ∧
      (s.2.toNat < fuel → ∃ r, (iterate bootinfoRound fuel s).run mem = some r ∧
        LastIn mem (s.1.toNat - s.2.toNat) s.1.toNat r) := by
  induction fuel generalizing s with
  | zero => exact ⟨fun i hi => absurd hi List.not_mem_nil, fun h => absurd h (Nat.not_lt_zero _)⟩
  | succ fuel ih =>
    have hround : ∀ i ∈ (bootinfoRound s).reads mem, i < s.1.toNat + 8 := by
      intro i hi
      rw [reads_bootinfoRound, List.mem_map] at hi
      obtain ⟨j, hj, rfl⟩ := hi
      have hlt := List.mem_range.mp hj
      omega
    rw [iterate, run_bind, reads_bind]
    obtain ⟨hm, hrun⟩ | ⟨hm, hz, hrun⟩ | ⟨hm, hz, hrun⟩ := run_bootinfoRound mem s
    · rw [hrun, reads_pure, List.append_nil]
      refine ⟨hround, fun _ => ⟨some s.1, rfl, ⟨Nat.sub_le _ _, le_rfl, hm⟩, ?_⟩⟩
      exact fun j hj => hj.2.1
    · rw [hrun, reads_pure, List.append_nil]
      refine ⟨hround, fun _ => ⟨none, rfl, fun j hlo hhi hj => ?_⟩⟩
      have hstop : s.2.toNat = 0 := by
        obtain hz | hz := hz
        · rw [hz, UInt64.toNat_zero] at hs
          exact Nat.le_zero.mp hs
        · rw [hz, UInt64.toNat_zero]
      have he : j = s.1.toNat := by omega
      exact hm (he ▸ hj)
    · have hoff : s.1.toNat ≠ 0 := fun h => hz (Or.inl (UInt64.toNat.inj h))
      have hsteps : s.2.toNat ≠ 0 := fun h => hz (Or.inr (UInt64.toNat.inj h))
      have hoff' : (s.1 - 1).toNat = s.1.toNat - 1 :=
        UInt64.toNat_sub_of_le s.1 1 (UInt64.le_iff_toNat_le.mpr (Nat.one_le_iff_ne_zero.mpr hoff))
      have hsteps' : (s.2 - 1).toNat = s.2.toNat - 1 :=
        UInt64.toNat_sub_of_le s.2 1
          (UInt64.le_iff_toNat_le.mpr (Nat.one_le_iff_ne_zero.mpr hsteps))
      obtain ⟨hreads, hfound⟩ := ih (s.1 - 1, s.2 - 1) (by
        simp only [hoff', hsteps']
        omega)
      simp only [hoff', hsteps'] at hreads hfound
      rw [hrun]
      refine ⟨fun i hi => ?_, fun hf => ?_⟩
      · obtain hi | hi := List.mem_append.mp hi
        · exact hround i hi
        · have hlt := hreads i hi
          omega
      · obtain ⟨r, hr, hlast⟩ := hfound (by omega)
        refine ⟨r, hr, ?_⟩
        obtain ⟨off, hsucc⟩ := Nat.exists_eq_succ_of_ne_zero hoff
        have hlo : s.1.toNat - 1 - (s.2.toNat - 1) = s.1.toNat - s.2.toNat := by omega
        rw [hlo, hsucc] at hlast
        rw [hsucc] at hm ⊢
        exact hlast.back hm

end Scan

/-! ### The function -/

section
variable (mem : ℕ → UInt8) (imageSize : UInt64)

/- The places the structure is looked for in an image of that size: it fits in, and
it starts in the last 32 KiB. -/
def InWindow (o : ℕ) : Prop :=
  o + kernelBootinfoSize.toNat ≤ imageSize.toNat ∧
    imageSize.toNat - min imageSize.toNat 0x8000 ≤ o

/- In an image that can hold the structure the loop starts at its last place, and
`max_steps` is what the window leaves before it. -/
theorem findKernelBootinfo_of_le (h : kernelBootinfoSize.toNat ≤ imageSize.toNat) :
    ∃ s : UInt64 × UInt64, s.1.toNat + kernelBootinfoSize.toNat = imageSize.toNat ∧
      s.1.toNat - s.2.toNat = imageSize.toNat - min imageSize.toNat 0x8000 ∧
      s.2.toNat ≤ s.1.toNat ∧ s.2.toNat < 0x8000 ∧
      ∀ fuel, findKernelBootinfo imageSize fuel = iterate bootinfoRound fuel s := by
  have hsize : kernelBootinfoSize.toNat = 56 := by decide
  have hlimit : (0x8000 : UInt64).toNat = 0x8000 := by decide
  have hlast : (imageSize - kernelBootinfoSize).toNat = imageSize.toNat - 56 := by
    rw [UInt64.toNat_sub_of_le _ _ (UInt64.le_iff_toNat_le.mpr h), hsize]
  obtain ⟨window, hw⟩ : ∃ w, w = if imageSize < 0x8000 then imageSize else 0x8000 := ⟨_, rfl⟩
  have hwindow : window.toNat = min imageSize.toNat 0x8000 := by
    rw [hw]
    split_ifs with hlt
    · rw [UInt64.lt_iff_toNat_lt, hlimit] at hlt
      omega
    · rw [UInt64.lt_iff_toNat_lt, hlimit] at hlt
      omega
  have hsteps : (if kernelBootinfoSize < window then window - kernelBootinfoSize else 0).toNat =
      window.toNat - 56 := by
    split_ifs with hlt
    · rw [UInt64.toNat_sub_of_le _ _ (UInt64.le_of_lt hlt), hsize]
    · rw [UInt64.lt_iff_toNat_lt, hsize] at hlt
      rw [UInt64.toNat_zero]
      omega
  refine ⟨(imageSize - kernelBootinfoSize,
    if kernelBootinfoSize < window then window - kernelBootinfoSize else 0), ?_⟩
  simp only [hlast, hsteps, hwindow, hsize] at h ⊢
  refine ⟨by omega, by omega, by omega, by omega, fun fuel => ?_⟩
  have hge : ¬ imageSize < kernelBootinfoSize := by
    rw [UInt64.lt_iff_toNat_lt, hsize]
    omega
  rw [findKernelBootinfo, if_neg hge, hw]

/- A smaller image is not read at all. -/
theorem findKernelBootinfo_of_lt (h : imageSize.toNat < kernelBootinfoSize.toNat) (fuel : ℕ) :
    findKernelBootinfo imageSize fuel = pure (some none) := by
  rw [findKernelBootinfo, if_pos (UInt64.lt_iff_toNat_lt.mpr h)]

/-- The search reads inside the image only, ends within 0x8000 rounds, and finds the last
place in the window with the magic number, if there is one (`main.c:23-44`). -/
theorem bootinfo_last_header :
    (∀ fuel, ∀ i ∈ (findKernelBootinfo imageSize fuel).reads mem, i < imageSize.toNat) ∧
      ∀ fuel, 0x8000 ≤ fuel → ∃ r, (findKernelBootinfo imageSize fuel).run mem = some r ∧
        (∀ o, r = some o ↔ IsGreatest {j | InWindow imageSize j ∧ HoldsMagic mem j} o.toNat) ∧
        (r = none ↔ ∀ j, InWindow imageSize j → ¬ HoldsMagic mem j) ∧
        (imageSize.toNat < kernelBootinfoSize.toNat → r = none) := by
  obtain h | h := Nat.lt_or_ge imageSize.toNat kernelBootinfoSize.toNat
  · have hwindow : ∀ j, ¬ InWindow imageSize j := fun j hj => by
      have hle := hj.1
      omega
    refine ⟨fun fuel i hi => ?_, fun fuel _ => ⟨none, ?_, fun o => ?_, ?_, fun _ => rfl⟩⟩
    · rw [findKernelBootinfo_of_lt _ h, reads_pure] at hi
      exact absurd hi List.not_mem_nil
    · rw [findKernelBootinfo_of_lt _ h, run_pure]
    · exact ⟨fun ho => absurd ho.symm (Option.some_ne_none o), fun ho => absurd ho.1.1 (hwindow _)⟩
    · exact ⟨fun _ j hj => absurd hj (hwindow j), fun _ => rfl⟩
  · obtain ⟨s, hlast, hfirst, hle, hlt, heq⟩ := findKernelBootinfo_of_le imageSize h
    have hwindow : ∀ j, InWindow imageSize j ↔ s.1.toNat - s.2.toNat ≤ j ∧ j ≤ s.1.toNat := by
      intro j
      rw [InWindow, hfirst, ← hlast, Nat.add_le_add_iff_right, And.comm]
    have hscan := fun fuel => iterate_bootinfoRound mem fuel s hle
    have hsize : 8 ≤ kernelBootinfoSize.toNat := by decide
    refine ⟨fun fuel i hi => ?_, fun fuel hfuel => ?_⟩
    · rw [heq] at hi
      have hi' := (hscan fuel).1 i hi
      omega
    · obtain ⟨r, hrun, hr⟩ := (hscan fuel).2 (Nat.lt_of_lt_of_le hlt hfuel)
      simp only [hwindow, and_assoc]
      refine ⟨r, by rw [heq, hrun], ?_⟩
      cases r with
      | none =>
        refine ⟨fun o => ⟨fun ho => absurd ho.symm (Option.some_ne_none o), fun ho => ?_⟩, ?_,
          fun _ => rfl⟩
        · exact absurd ho.1.2.2 (hr _ ho.1.1 ho.1.2.1)
        · exact ⟨fun _ j hj => hr j hj.1 hj.2, fun _ => rfl⟩
      | some o =>
        refine ⟨fun o' => ⟨?_, fun ho' => ?_⟩,
          ⟨fun ho => absurd ho (Option.some_ne_none o), fun hno => ?_⟩,
          fun hsmall => absurd h (Nat.not_le.mpr hsmall)⟩
        · rintro ⟨⟩
          exact hr
        · rw [UInt64.toNat.inj (hr.unique ho')]
        · exact absurd hr.1.2.2 (hno _ ⟨hr.1.1, hr.1.2.1⟩)

end

end CasseOS.Boot
