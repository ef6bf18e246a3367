import CasseOS.Boot.Detect
import CasseOS.Boot.PageTables

/-! # Into long mode

From the check for long mode to the first instruction of 64 bits: the loop over the
last table, the switch of the control registers, and the two reads through the new
tables that the switch makes. -/

namespace CasseOS.Boot
open Bits Bytes PageWalk SmallStep

section LongMode
variable (cpu : Features) (im : Image)

/- What setting up the tables keeps. -/
structure Kept (m m' : Machine) : Prop where
  esp : m'.reg .esp = m.reg .esp
  cr : ∀ c, c ≠ .cr3 → m'.cr c = m.cr c
  msr : m'.msr = m.msr

theorem Kept.trans {m m' m'' : Machine} (h : Kept m m') (h' : Kept m' m'') : Kept m m'' :=
  ⟨h'.esp.trans h.esp, fun c hc => (h'.cr c hc).trans (h.cr c hc), h'.msr.trans h.msr⟩

/-! ### The fill -/

/- `rep stosd` of zeros. -/
def zeroFill (mem : Memory) (a n : ℕ) : Memory := fill mem a (4 * n) 0

theorem stosd_spec (n : ℕ) (m : Machine) (hdf : m.df = false) (heax : m.reg .eax = 0)
    (hroom : (m.reg .edi).toNat + 4 * n < 2 ^ 32) :
    ∃ m', stosd^[n] m = m' ∧ (∀ r, r ≠ .edi → m'.reg r = m.reg r) ∧ m'.cr = m.cr ∧ m'.msr = m.msr ∧
      m'.mem = zeroFill m.mem (m.reg .edi).toNat n := by
  induction n generalizing m with
  | zero =>
    refine ⟨m, rfl, fun _ _ => rfl, rfl, rfl, ?_⟩
    funext b
    rw [zeroFill, fill_other (by omega)]
  | succ n ih =>
    have hedi : (stosd m).reg .edi = m.reg .edi + 4 := by simp [stosd, hdf]
    have hother : ∀ r, r ≠ .edi → (stosd m).reg r = m.reg r := fun r hr => set_of_ne _ _ hr
    have hadd : (m.reg .edi + 4).toNat = (m.reg .edi).toNat + 4 := toNat_add_four (by omega)
    have hmem : (stosd m).mem = Bytes.store 4 m.mem (m.reg .edi).toNat 0 := by
      show Bytes.store 4 m.mem (m.reg .edi).toNat (m.reg .eax).toNat = _
      rw [heax]
      rfl
    obtain ⟨m', hm', hreg, hcr, hmsr, hmem'⟩ := ih (stosd m) hdf (by rw [hother _ (by decide), heax])
      (by rw [hedi, hadd]; omega)
    refine ⟨m', hm', fun r hr => (hreg r hr).trans (hother r hr), hcr, hmsr, ?_⟩
    rw [hmem', hedi, hadd, hmem]
    funext b
    simp only [zeroFill, fill, store_zero]
    by_cases hfirst : (m.reg .edi).toNat ≤ b ∧ b < (m.reg .edi).toNat + 4
    · rw [if_pos hfirst, ite_self, if_pos (by omega)]
    · have hrange : ((m.reg .edi).toNat + 4 ≤ b ∧ b < (m.reg .edi).toNat + 4 + 4 * n) ↔
          ((m.reg .edi).toNat ≤ b ∧ b < (m.reg .edi).toNat + 4 * (n + 1)) := by omega
      simp only [if_neg hfirst, hrange]

/-! ### The tables -/

theorem Kept.refl (m : Machine) : Kept m m := ⟨rfl, fun _ _ => rfl, rfl⟩

def enablePae : List Instr :=
  [.op (.fromCr .eax .cr4), .op (.or .eax (bit32 5)), .op (.toCr .cr4 .eax)]

/- One round of the loop over the last table. -/
def entryRound (m : Machine) : Machine :=
  let m' := [.storeReg .edi .ebx, .add .ebx 0x1000, .add .edi 8].foldl (exec cpu) m
  m'.set .ecx (m'.reg .ecx - 1)

theorem entryRound_spec (m : Machine) : (entryRound cpu m).reg .ecx = m.reg .ecx - 1 ∧
    (entryRound cpu m).reg .ebx = m.reg .ebx + 0x1000 ∧ (entryRound cpu m).reg .edi = m.reg .edi + 8 ∧
    (entryRound cpu m).mem = Bytes.store 4 m.mem (m.reg .edi).toNat (m.reg .ebx).toNat ∧
    Kept m (entryRound cpu m) ∧ (entryRound cpu m).cr = m.cr := by
  have hmem : (entryRound cpu m).mem = Bytes.store 4 m.mem (m.reg .edi).toNat (m.reg .ebx).toNat := rfl
  refine ⟨?_, ?_, ?_, hmem, ⟨?_, fun _ _ => rfl, rfl⟩, rfl⟩
  all_goals simp [entryRound, exec, flagsOp, Machine.arith, Machine.storeDword, Machine.set]

theorem reaches_round (m : Machine) : Reaches (step cpu im) ⟨m, program im .addPageEntryProtected⟩
    ⟨entryRound cpu m, if (entryRound cpu m).reg .ecx ≠ 0 then program im .addPageEntryProtected
      else enablePae ++ elevateToLm im⟩ :=
  (reaches_ops cpu im [.storeReg .edi .ebx, .add .ebx 0x1000, .add .edi 8] m
    (.loop .addPageEntryProtected :: (enablePae ++ elevateToLm im))).trans (.head rfl (.refl _))

/- From the entry `j` on. -/
theorem entries_spec (k : ℕ) (mem : Memory) (m : Machine) (j : ℕ) (hj : j + (k + 1) = 512)
    (hecx : (m.reg .ecx).toNat = k + 1) (hebx : (m.reg .ebx).toNat = 0x1000 * j + 3)
    (hedi : (m.reg .edi).toNat = 0x4000 + 8 * j)
    (hmem : m.mem = storeEach 4 0x4000 8 (fun i => 0x1000 * i + 3) j mem) :
    ∃ m', Kept m m' ∧ m'.cr = m.cr ∧
      m'.mem = storeEach 4 0x4000 8 (fun i => 0x1000 * i + 3) 512 mem ∧
      Reaches (step cpu im) ⟨m, program im .addPageEntryProtected⟩
        ⟨m', enablePae ++ elevateToLm im⟩ := by
  induction k generalizing m j with
  | zero =>
    obtain ⟨hecx', -, -, hmem', hkept, hcr⟩ := entryRound_spec cpu m
    have hlast : (entryRound cpu m).reg .ecx = 0 := by
      rw [hecx', ← UInt32.toNat_inj, UInt32.toNat_sub_of_le _ _ (by rw [UInt32.le_iff_toNat_le, hecx]; rfl),
        hecx]
      rfl
    have hrun := reaches_round cpu im m
    rw [hlast, if_neg (by simp)] at hrun
    refine ⟨_, hkept, hcr, ?_, hrun⟩
    have h512 : 512 = j + 1 := by omega
    rw [hmem', hedi, hebx, hmem, h512]
    rfl
  | succ k ih =>
    obtain ⟨hecx', hebx', hedi', hmem', hkept, hcr⟩ := entryRound_spec cpu m
    have hleft : ((entryRound cpu m).reg .ecx).toNat = k + 1 := by
      rw [hecx', UInt32.toNat_sub_of_le _ _ (by rw [UInt32.le_iff_toNat_le, hecx]; show 1 ≤ _; omega),
        hecx]
      rfl
    obtain ⟨m', hkept', hcr', hmem'', hrun'⟩ := ih (entryRound cpu m) (j + 1) (by omega) hleft
      (by rw [hebx', UInt32.toNat_add, hebx]; show (_ + 4096) % _ = _; omega)
      (by rw [hedi', UInt32.toNat_add, hedi]; show (_ + 8) % _ = _; omega)
      (by rw [hmem', hedi, hebx, hmem]; rfl)
    have hrun := reaches_round cpu im m
    have hne : (entryRound cpu m).reg .ecx ≠ 0 := by
      intro hzero
      rw [hzero] at hleft
      cases hleft
    rw [if_pos hne] at hrun
    exact ⟨m', hkept.trans hkept', hcr'.trans hcr, hmem'', hrun.trans hrun'⟩

theorem pagingSetUp_spec (m : Machine) (hdf : m.df = false)
    (hroom : 0x1000 + 4 * (m.reg .ecx).toNat < 2 ^ 32) :
    ∃ m', m'.reg .esp = m.reg .esp ∧ m'.msr = m.msr ∧ m'.cr .cr0 = m.cr .cr0 ∧ m'.cr .cr3 = 0x1000 ∧
      m'.cr .cr4 = m.cr .cr4 ||| bit32 5 ∧
      m'.mem = pageTables (zeroFill m.mem 0x1000 (m.reg .ecx).toNat) ∧
      Reaches (step cpu im) ⟨m, program im .pagingSetUp⟩ ⟨m', program im .elevateToLm⟩ := by
  -- up to the fill
  obtain ⟨m₁, hm₁⟩ : ∃ m₁, [.mov .edi pml4tAddr, .toCr .cr3 .edi, .xorReg .eax .eax].foldl (exec cpu) m =
    m₁ := ⟨_, rfl⟩
  have hedi₁ : m₁.reg .edi = 0x1000 := by
    rw [← hm₁]
    simp [exec, flagsOp, Machine.arith, Machine.set, pml4tAddr]
  have heax₁ : m₁.reg .eax = 0 := by
    rw [← hm₁]
    simp [exec, flagsOp, Machine.arith, Machine.set]
  have hreg₁ : m₁.reg .ecx = m.reg .ecx ∧ m₁.reg .esp = m.reg .esp := by
    rw [← hm₁]
    simp [exec, flagsOp, Machine.arith, Machine.set]
  have hdf₁ : m₁.df = false := by
    rw [← hdf, ← hm₁]
    exact arith_df ..
  have hcr₁ : m₁.cr = Function.update m.cr .cr3 0x1000 := by
    rw [← hm₁]
    simp [exec, flagsOp, Machine.arith, Machine.set, pml4tAddr]
  have hsame₁ : m₁.msr = m.msr ∧ m₁.mem = m.mem := by
    rw [← hm₁]
    exact ⟨rfl, rfl⟩
  -- the fill
  have hto : (0x1000 : UInt32).toNat = 0x1000 := rfl
  obtain ⟨m₂, hm₂, hreg₂, hcr₂, hmsr₂, hmem₂⟩ := stosd_spec (m₁.reg .ecx).toNat m₁ hdf₁ heax₁
    (by rw [hedi₁, hreg₁.1, hto]; exact hroom)
  rw [hedi₁, hreg₁.1, hto, hsame₁.2] at hmem₂
  -- the first entries of the upper tables
  obtain ⟨m₃, hm₃⟩ : ∃ m₃, [.fromCr .edi .cr3, .store .edi 0x2003, .add .edi 0x1000,
    .store .edi 0x3003, .add .edi 0x1000, .store .edi 0x4003, .mov .edi 0x4000, .mov .ebx 3,
    .mov .ecx 512].foldl (exec cpu) (m₂.set .ecx 0) = m₃ := ⟨_, rfl⟩
  have hcr3 : m₂.cr .cr3 = 0x1000 := by
    rw [hcr₂, hcr₁, Function.update_self]
  have hreg₃ : m₃.reg .edi = 0x4000 ∧ m₃.reg .ebx = 3 ∧ m₃.reg .ecx = 512 ∧
      m₃.reg .esp = m₂.reg .esp := by
    rw [← hm₃]
    simp [exec, flagsOp, Machine.arith, Machine.set, Machine.storeDword]
  have hsame₃ : m₃.cr = m₂.cr ∧ m₃.msr = m₂.msr := by
    rw [← hm₃]
    exact ⟨rfl, rfl⟩
  have hmem₃ : m₃.mem =
      Bytes.store 4 (Bytes.store 4 (Bytes.store 4 m₂.mem 0x1000 0x2003) 0x2000 0x3003) 0x3000 0x4003 := by
    rw [← hm₃]
    simp [exec, flagsOp, Machine.arith, Machine.set, Machine.storeDword, hcr3]
  -- the loop, and PAE
  obtain ⟨m₄, hkept, hcr₄, hmem₄, hloop⟩ := entries_spec cpu im 511 m₃.mem m₃ 0 rfl
    (by rw [hreg₃.2.2.1]; rfl) (by rw [hreg₃.2.1]; rfl) (by rw [hreg₃.1]; rfl) rfl
  have hcr : m₄.cr = Function.update m.cr .cr3 0x1000 := by
    rw [hcr₄, hsame₃.1, hcr₂, hcr₁]
  obtain ⟨m₅, hm₅⟩ : ∃ m₅, [.fromCr .eax .cr4, .or .eax (bit32 5), .toCr .cr4 .eax].foldl (exec cpu) m₄ =
    m₅ := ⟨_, rfl⟩
  have hcr₅ : m₅.cr = Function.update m₄.cr .cr4 (m₄.cr .cr4 ||| bit32 5) := by
    rw [← hm₅]
    simp [exec, flagsOp, Machine.arith, Machine.set]
  have hreg₅ : m₅.reg .esp = m₄.reg .esp := by
    rw [← hm₅]
    simp [exec, flagsOp, Machine.arith, Machine.set]
  have hsame₅ : m₅.msr = m₄.msr ∧ m₅.mem = m₄.mem := by
    rw [← hm₅]
    exact ⟨rfl, rfl⟩
  refine ⟨m₅, ?_, ?_, ?_, ?_, ?_, ?_, ?_⟩
  · rw [hreg₅, hkept.esp, hreg₃.2.2.2, hreg₂ _ (by decide), hreg₁.2]
  · rw [hsame₅.1, hkept.msr, hsame₃.2, hmsr₂, hsame₁.1]
  · rw [hcr₅, hcr]
    rfl
  · rw [hcr₅, hcr]
    rfl
  · rw [hcr₅, hcr]
    rfl
  · rw [hsame₅.2, hmem₄, hmem₃, hmem₂]
    rfl
  · have hfill : exec cpu m₁ .repStosd = m₂.set .ecx 0 := by
      rw [← hm₂]
      rfl
    have hstart := reaches_ops cpu im ([.mov .edi pml4tAddr, .toCr .cr3 .edi, .xorReg .eax .eax] ++
      .repStosd :: [.fromCr .edi .cr3, .store .edi 0x2003, .add .edi 0x1000, .store .edi 0x3003,
        .add .edi 0x1000, .store .edi 0x4003, .mov .edi 0x4000, .mov .ebx 3, .mov .ecx 512]) m
      (addPageEntryProtected im)
    rw [List.foldl_append, hm₁, List.foldl_cons, hfill, hm₃] at hstart
    have hend := reaches_ops cpu im [.fromCr .eax .cr4, .or .eax (bit32 5), .toCr .cr4 .eax] m₄
      (elevateToLm im)
    rw [hm₅] at hend
    exact hstart.trans (hloop.trans hend)

/-! ### The switch -/

/- Reads below 2 MiB see the memory as it is. -/
theorem linearLoad_identity {m : Machine} (hlong : m.longMode = true)
    (hmap : IdentityMap m.mem (m.cr .cr3).toNat) {n a : ℕ} (ha : a + n ≤ 2 ^ 21) :
    m.linearLoad n a = some (load n m.mem a) := by
  have hpaging : m.paging = true := by
    unfold Machine.longMode at hlong
    exact (of_decide_eq_true hlong).1
  induction n generalizing a with
  | zero => rfl
  | succ n ih =>
    have hbyte : m.linearByte a = some (m.mem a) := by
      rw [Machine.linearByte, if_pos hpaging, if_pos hlong, hmap a (by omega), if_pos (by omega)]
      rfl
    rw [Machine.linearLoad, hbyte, ih (by omega)]
    rfl

/- The table of segments with its descriptor, where they are read in long mode. -/
structure GdtLoaded (mem : Memory) : Prop where
  table : Words 8 mem im.gdt64Start gdt64
  limit : load 2 mem im.gdt64Descriptor = 8 * gdt64.length - 1
  base : load 8 mem (im.gdt64Descriptor + 2) = im.gdt64Start
  low : im.gdt64Descriptor + 10 ≤ 2 ^ 21

/- What the switch leaves, besides the memory, which it does not change. -/
structure Switched (m m' : Machine) : Prop where
  cr0 : m'.cr .cr0 = m.cr .cr0 ||| bit32 31
  cr : ∀ c, c ≠ .cr0 → m'.cr c = m.cr c
  efer : m'.msr Machine.efer = m.msr Machine.efer ||| 0x100
  msr : ∀ r, r ≠ Machine.efer → m'.msr r = m.msr r
  gdtLimit : m'.gdtLimit = 8 * gdt64.length - 1
  gdtBase : m'.gdtBase = im.gdt64Start
  esp : m'.reg .esp = m.reg .esp
  long : m'.long = true

theorem elevateToLm_spec (m : Machine) (hmap : IdentityMap m.mem (m.cr .cr3).toNat)
    (hpae : m.cr .cr4 &&& bit32 5 ≠ 0) (hgdt : GdtLoaded im m.mem) :
    ∃ m', m'.mem = m.mem ∧ m'.longMode = true ∧ Switched im m m' ∧
      Reaches (step cpu im) ⟨m, program im .elevateToLm⟩ ⟨m', program im .startKernel⟩ := by
  obtain ⟨m₁, hm₁⟩ : ∃ m₁, [.mov .ecx Machine.efer, .rdmsr, .or .eax (bit32 8), .wrmsr,
    .fromCr .eax .cr0, .or .eax (bit32 31), .toCr .cr0 .eax].foldl (exec cpu) m = m₁ := ⟨_, rfl⟩
  have hcr₁ : m₁.cr = Function.update m.cr .cr0 (m.cr .cr0 ||| bit32 31) := by
    rw [← hm₁]
    simp [exec, flagsOp, Machine.arith, Machine.set]
  have hmsr₁ : m₁.msr = Function.update m.msr Machine.efer (m.msr Machine.efer ||| 0x100) := by
    have hbit : (bit32 8).toUInt64 = 0x100 := rfl
    rw [← hm₁, ← hbit, ← halves_or]
    simp [exec, flagsOp, Machine.arith, Machine.set]
  have hreg₁ : m₁.reg .esp = m.reg .esp := by
    rw [← hm₁]
    simp [exec, flagsOp, Machine.arith, Machine.set]
  have hmem₁ : m₁.mem = m.mem := by
    rw [← hm₁]
    rfl
  have hlong₁ : m₁.longMode = true := by
    refine decide_eq_true ⟨?_, ?_, ?_⟩
    · rw [Machine.paging, decide_eq_true_iff, hcr₁, Function.update_self, or_and_bit]
      decide
    · rw [hcr₁]
      exact hpae
    · rw [hmsr₁, Function.update_self, or_and_bit64]
      decide
  have hmap₁ : IdentityMap m₁.mem (m₁.cr .cr3).toNat := by
    rw [hmem₁, hcr₁]
    exact hmap
  rw [← hmem₁] at hgdt
  obtain ⟨htable, hlimit, hbase, hlow⟩ := hgdt
  have hstart : im.gdt64Start + 34 ≤ 2 ^ 21 := hlow
  -- the descriptor of the table
  have hload2 := linearLoad_identity hlong₁ hmap₁ (n := 2) (a := im.gdt64Descriptor) (by omega)
  have hload4 := linearLoad_identity hlong₁ hmap₁ (n := 4) (a := im.gdt64Descriptor + 2) (by omega)
  have hbase4 : load 4 m₁.mem (im.gdt64Descriptor + 2) = im.gdt64Start := by
    have hhalves : load 8 m₁.mem (im.gdt64Descriptor + 2) =
        load 4 m₁.mem (im.gdt64Descriptor + 2) +
          256 ^ 4 * load 4 m₁.mem (im.gdt64Descriptor + 2 + 4) := load_add 4 4 _ _
    omega
  obtain ⟨m₂, hm₂⟩ : ∃ m₂ : Machine, {m₁ with gdtLimit := 23, gdtBase := im.gdt64Start} = m₂ := ⟨_, rfl⟩
  have hlgdt : step cpu im ⟨m₁, [.lgdt im.gdt64Descriptor, .jmpFar 8 .startKernel]⟩ =
      some ⟨m₂, [.jmpFar 8 .startKernel]⟩ := by
    have hcount : 8 * gdt64.length - 1 = 23 := rfl
    simp [step, hload2, hload4, hlimit, hbase4, hcount, ← hm₂]
  -- the descriptor of the code segment
  have hlong₂ : m₂.longMode = true := by
    rw [← hm₂]
    exact hlong₁
  have hmap₂ : IdentityMap m₂.mem (m₂.cr .cr3).toNat := by
    rw [← hm₂]
    exact hmap₁
  have hdescriptor : m₂.descriptor 8 = some gdt64[1] := by
    have hload8 := linearLoad_identity hlong₂ hmap₂ (n := 8) (a := im.gdt64Start + 8) (by omega)
    have hentry := htable.get (i := 1) (by decide)
    have hfields : m₂.gdtLimit = 23 ∧ m₂.gdtBase = im.gdt64Start ∧ m₂.mem = m₁.mem := by
      rw [← hm₂]
      exact ⟨rfl, rfl, rfl⟩
    rw [Machine.descriptor, hfields.1, hfields.2.1, if_pos (by decide), hload8, hfields.2.2]
    exact congrArg some hentry
  have hcode : isCode64 gdt64[1] = true := by decide
  have hjump : step cpu im ⟨m₂, [.jmpFar 8 .startKernel]⟩ =
      some ⟨{m₂ with long := true}, program im .startKernel⟩ := by
    simp [step, hdescriptor, hlong₂, hcode]
  refine ⟨{m₂ with long := true}, ?_, hlong₂, ⟨?_, fun c hc => ?_, ?_, fun r hr => ?_, ?_, ?_, ?_, rfl⟩,
    ?_⟩
  · rw [← hmem₁, ← hm₂]
  · show m₂.cr .cr0 = _
    rw [← hm₂]
    exact (congrFun hcr₁ _).trans (Function.update_self ..)
  · show m₂.cr c = _
    rw [← hm₂]
    exact (congrFun hcr₁ _).trans (Function.update_of_ne hc ..)
  · show m₂.msr _ = _
    rw [← hm₂]
    exact (congrFun hmsr₁ _).trans (Function.update_self ..)
  · show m₂.msr r = _
    rw [← hm₂]
    exact (congrFun hmsr₁ _).trans (Function.update_of_ne hr ..)
  · rw [← hm₂]
    rfl
  · rw [← hm₂]
  · rw [← hreg₁, ← hm₂]
  · have hops := reaches_ops cpu im [.mov .ecx Machine.efer, .rdmsr, .or .eax (bit32 8), .wrmsr,
      .fromCr .eax .cr0, .or .eax (bit32 31), .toCr .cr0 .eax] m
      [.lgdt im.gdt64Descriptor, .jmpFar 8 .startKernel]
    rw [hm₁] at hops
    exact hops.trans (.head hlgdt (.head hjump (.refl _)))

/- From here on the memory and CR3 stay as they are. -/
def quiet : Instr → Bool
  | .op (.mov ..) | .op .rdmsr | .op (.or ..) | .op .wrmsr | .op (.fromCr ..) | .lgdt _ => true
  | .op (.toCr c _) => c ≠ .cr3
  | .jmpFar _ l => l = .startKernel
  | .callOut _ => true
  | _ => false

theorem quiet_op (m : Machine) {o : Op} (h : quiet (.op o) = true) :
    (exec cpu m o).mem = m.mem ∧ (exec cpu m o).cr .cr3 = m.cr .cr3 := by
  cases o with
  | toCr c r =>
    have hc : Cr.cr3 ≠ c := Ne.symm (of_decide_eq_true h)
    exact ⟨rfl, Function.update_of_ne hc ..⟩
  | mov _ _ | rdmsr | or _ _ | wrmsr | fromCr _ _ => exact ⟨rfl, rfl⟩
  | _ => cases h

theorem quiet_step {s s' : Config} (h : step cpu im s = some s')
    (hq : s.code.all quiet = true) : s'.code.all quiet = true ∧ s'.machine.mem = s.machine.mem ∧
      s'.machine.cr .cr3 = s.machine.cr .cr3 := by
  obtain ⟨m, code⟩ := s
  cases code with
  | nil => cases h
  | cons i code =>
    rw [List.all_cons, Bool.and_eq_true] at hq
    cases i with
    | op o =>
      cases h
      exact ⟨hq.2, quiet_op cpu m hq.1⟩
    | lgdt a =>
      simp only [step, Option.bind_eq_bind, Option.bind_eq_some_iff] at h
      obtain ⟨limit, -, base, -, hs⟩ := h
      cases hs
      exact ⟨hq.2, rfl, rfl⟩
    | jmpFar sel l =>
      have hl : l = .startKernel := of_decide_eq_true hq.1
      simp only [step, Option.bind_eq_bind, Option.bind_eq_some_iff] at h
      obtain ⟨descriptor, -, hs⟩ := h
      split at hs
      · cases hs
        rw [hl]
        exact ⟨rfl, rfl, rfl⟩
      · cases hs
    | callOut f => cases h
    | je l => cases hq.1
    | jb l => cases hq.1
    | loop l => cases hq.1
    | call l back => cases hq.1
    | ret => cases hq.1

theorem quiet_reaches {s s' : Config} (h : Reaches (step cpu im) s s') (hq : s.code.all quiet = true) :
    s'.machine.mem = s.machine.mem ∧ s'.machine.cr .cr3 = s.machine.cr .cr3 := by
  induction h using Relation.ReflTransGen.head_induction_on with
  | refl => exact ⟨rfl, rfl⟩
  | head hstep _ ih =>
    obtain ⟨hq', hmem, hcr⟩ := quiet_step cpu im hstep hq
    obtain ⟨hmem', hcr'⟩ := ih hq'
    exact ⟨hmem'.trans hmem, hcr'.trans hcr⟩

/-! ### The whole run -/

/- The kernel as the boot sector starts it: in protected mode, loaded from 0x80000
on (`Makefile:24`), with its stack below. What `ecx` holds is not set by the code;
the fill must not get into the kernel. -/
structure Loaded (m : Machine) : Prop where
  labels : Function.Injective im.label
  gdt : GdtLoaded im m.mem
  above : 0x80000 ≤ im.gdt64Start
  flat : m.paging = false
  df : m.df = false
  stack : 0x5028 ≤ (m.reg .esp).toNat ∧ (m.reg .esp).toNat ≤ 0x80000
  fill : (m.reg .ecx).toNat ≤ 0x1FC00

theorem GdtLoaded.congr {mem mem' : Memory} (h : GdtLoaded im mem) (habove : 0x80000 ≤ im.gdt64Start)
    (hmem : ∀ a, 0x80000 ≤ a → mem' a = mem a) : GdtLoaded im mem' := by
  have hstart : im.gdt64Descriptor = im.gdt64Start + 24 := rfl
  refine ⟨h.table.congr fun b hb _ => hmem b (by omega), ?_, ?_, h.low⟩
  · rw [← h.limit]
    exact load_congr fun i hi => hmem _ (by omega)
  · rw [← h.base]
    exact load_congr fun i hi => hmem _ (by omega)

/- The tables are set up, and nothing is switched yet. -/
structure TablesSet (m m' : Machine) : Prop where
  esp : m'.reg .esp = m.reg .esp
  msr : m'.msr = m.msr
  cr0 : m'.cr .cr0 = m.cr .cr0
  cr3 : m'.cr .cr3 = 0x1000
  cr4 : m'.cr .cr4 = m.cr .cr4 ||| bit32 5
  mem : ∃ mem, (∀ a, a < (m.reg .esp).toNat - 40 ∨ (m.reg .esp).toNat ≤ a → mem a = m.mem a) ∧
    m'.mem = pageTables (zeroFill mem 0x1000 (m.reg .ecx).toNat)

theorem tablesSet_identity {m m' : Machine} (ht : TablesSet m m') (hcount : 0x1000 ≤ (m.reg .ecx).toNat) :
    IdentityMap m'.mem (m'.cr .cr3).toNat := by
  obtain ⟨mem, -, hmem⟩ := ht.mem
  have hzero : ∀ a, 0x1000 ≤ a → a < 0x5000 → zeroFill mem 0x1000 (m.reg .ecx).toNat a = 0 :=
    fun a ha hlt => if_pos (by omega)
  rw [hmem, ht.cr3]
  exact identityMap_pageTables (fun a ha hlt => hzero a ha (by omega))
    (load_zero fun i hi => hzero _ (by omega) (by omega))

variable {im} {m : Machine} (h : Loaded im m)
include h

theorem tablesSet_reached (hverdict : cpu.verdict = .pagingSetUp) : ∃ m', TablesSet m m' ∧
    Reaches (step cpu im) ⟨m, program im .start⟩ ⟨m', program im .elevateToLm⟩ := by
  obtain ⟨m₁, hchecked, hreg, hrun₁⟩ := detect_spec cpu im h.labels m (by have := h.stack; omega)
  rw [hverdict] at hrun₁
  have hreg := hreg hverdict
  obtain ⟨m₂, hesp, hmsr, hcr0, hcr3, hcr4, hmem, hrun₂⟩ := pagingSetUp_spec cpu im m₁
    (hchecked.df.trans h.df) (by rw [hreg]; have := h.fill; omega)
  refine ⟨m₂, ⟨?_, ?_, ?_, hcr3, ?_, m₁.mem, hchecked.mem, ?_⟩, hrun₁.trans hrun₂⟩
  · rw [hesp, hreg]
  · rw [hmsr, hchecked.control.msr]
  · rw [hcr0, hchecked.control.cr]
  · rw [hcr4, hchecked.control.cr]
  · rw [hmem, hreg]

/- The memory from the kernel on. -/
theorem tablesSet_above {m' : Machine} (ht : TablesSet m m') {a : ℕ} (ha : 0x80000 ≤ a) :
    m'.mem a = m.mem a := by
  obtain ⟨mem, houtside, hmem⟩ := ht.mem
  have hstack := h.stack
  have hfill := h.fill
  rw [hmem, pageTables_other (by omega), zeroFill, fill_other (by omega), houtside a (by omega)]

/- Long mode as `start_kernel` finds it. -/
structure EnteredLong (im : Image) (m m' : Machine) : Prop where
  long : m'.long = true
  longMode : m'.longMode = true
  identity : IdentityMap m'.mem (m'.cr .cr3).toNat
  cr0 : m'.cr .cr0 = m.cr .cr0 ||| bit32 31
  cr3 : m'.cr .cr3 = 0x1000
  cr4 : m'.cr .cr4 = m.cr .cr4 ||| bit32 5
  efer : m'.msr Machine.efer = m.msr Machine.efer ||| 0x100
  msr : ∀ r, r ≠ Machine.efer → m'.msr r = m.msr r
  gdtLimit : m'.gdtLimit = 8 * gdt64.length - 1
  gdtBase : m'.gdtBase = im.gdt64Start
  esp : m'.reg .esp = m.reg .esp
  /-- Only the fill and the stack have changed the memory. -/
  mem : ∀ a, a < 0x1000 ∨ 0x1000 + 4 * (m.reg .ecx).toNat ≤ a →
    a < (m.reg .esp).toNat - 40 ∨ (m.reg .esp).toNat ≤ a → m'.mem a = m.mem a

theorem enteredLong_reached (hverdict : cpu.verdict = .pagingSetUp)
    (hcount : 0x1000 ≤ (m.reg .ecx).toNat) : ∃ m', EnteredLong im m m' ∧
      Reaches (step cpu im) ⟨m, program im .start⟩ ⟨m', program im .startKernel⟩ := by
  obtain ⟨m₁, ht, hrun₁⟩ := tablesSet_reached cpu h hverdict
  have hmap := tablesSet_identity ht hcount
  have hpae : m₁.cr .cr4 &&& bit32 5 ≠ 0 := by
    rw [ht.cr4, or_and_bit]
    decide
  obtain ⟨m₂, hmem, hlong, hs, hrun₂⟩ := elevateToLm_spec cpu im m₁ hmap hpae
    (h.gdt.congr im h.above fun a ha => tablesSet_above h ht ha)
  refine ⟨m₂, ⟨hs.long, hlong, ?_, ?_, ?_, ?_, ?_, fun r hr => ?_, hs.gdtLimit, hs.gdtBase, ?_,
    fun a hfill hstack => ?_⟩, hrun₁.trans hrun₂⟩
  · rw [hmem, hs.cr _ (by decide)]
    exact hmap
  · rw [hs.cr0, ht.cr0]
  · rw [hs.cr _ (by decide), ht.cr3]
  · rw [hs.cr _ (by decide), ht.cr4]
  · rw [hs.efer, ht.msr]
  · rw [hs.msr r hr, ht.msr]
  · rw [hs.esp, ht.esp]
  · obtain ⟨mem, houtside, hmem₁⟩ := ht.mem
    rw [hmem, hmem₁, pageTables_other (by omega), zeroFill, fill_other (by omega), houtside a hstack]

/- The error that is printed. -/
def Image.message (im : Image) (l : Label) : UInt32 :=
  if l = .cpuidNotFoundProtected then im.cpuidNotFoundStr else im.lmNotFoundStr

/- A memory that has something left in the last entry, below the kernel. -/
def leftover (mem : Memory) : Memory := fun a =>
  if 0x80000 ≤ a then mem a else if a = 0x4FFC then 1 else 0

/-- `rep stosd` clears as many words as `ecx` happens to hold: the tables map the
first 2 MiB to themselves whatever the memory was before exactly when it holds the
four pages or more (`kernel-long-mode-transition.asm:9-12`). -/
theorem identity_map_iff (hverdict : cpu.verdict = .pagingSetUp) :
    (∀ mem, (∀ a, 0x80000 ≤ a → mem a = m.mem a) → ∃ m',
      Reaches (step cpu im) ⟨{m with mem}, program im .start⟩ ⟨m', [.callOut .kernelMain]⟩ ∧
        IdentityMap m'.mem (m'.cr .cr3).toNat) ↔ 0x1000 ≤ (m.reg .ecx).toNat := by
  have hloaded : ∀ mem, (∀ a, 0x80000 ≤ a → mem a = m.mem a) → Loaded im {m with mem} :=
    fun mem hmem => ⟨h.labels, h.gdt.congr im h.above hmem, h.above, h.flat, h.df, h.stack, h.fill⟩
  constructor
  · intro hall
    by_contra hcount
    have habove : ∀ a, 0x80000 ≤ a → leftover m.mem a = m.mem a := fun a ha => if_pos ha
    obtain ⟨m', hrun, hmap⟩ := hall _ habove
    obtain ⟨m₁, ht, hrun₁⟩ := tablesSet_reached cpu (hloaded _ habove) hverdict
    -- the switch changes neither the tables nor where they are
    obtain ⟨hsame, hcr3⟩ := quiet_reaches cpu im (hrun₁.onward hrun rfl) rfl
    obtain ⟨mem, houtside, hmem⟩ := ht.mem
    have hstack := h.stack
    have hbelow : ∀ a < 0x5000, mem a = leftover m.mem a := fun a ha =>
      houtside a (Or.inl (show a < (m.reg .esp).toNat - 40 by omega))
    have hzero : ∀ a, 0x1000 ≤ a → a < 0x4FFC → zeroFill mem 0x1000 (m.reg .ecx).toNat a = 0 := by
      intro a ha hlt
      have hlow : ¬0x80000 ≤ a := by omega
      have hne : a ≠ 0x4FFC := by omega
      rw [zeroFill, fill, hbelow a (by omega), leftover, if_neg hlow, if_neg hne, ite_self]
    have hleft : load 4 (zeroFill mem 0x1000 (m.reg .ecx).toNat) 0x4FFC = 1 := by
      have hbytes : ∀ i < 4, zeroFill mem 0x1000 (m.reg .ecx).toNat (0x4FFC + i) =
          leftover m.mem (0x4FFC + i) := by
        intro i hi
        rw [zeroFill, fill_other (by omega), hbelow _ (by omega)]
      rw [load_congr hbytes]
      rfl
    refine not_identityMap hzero (by rw [hleft]; decide) (by rw [hleft]; decide) ?_
    have hto : (0x1000 : UInt32).toNat = 0x1000 := rfl
    rw [hsame, hcr3, ht.cr3, hto] at hmap
    rw [← hmem]
    exact hmap
  · intro hcount mem hmem
    obtain ⟨m', hentered, hrun⟩ := enteredLong_reached cpu (hloaded mem hmem) hverdict hcount
    exact ⟨m', hrun, hentered.identity⟩

end LongMode

/-! ### An image -/

def imageAt : Image where
  label
    | .start => 0x80000
    | .pagingSetUp => 0x80005
    | .addPageEntryProtected => 0x80045
    | .elevateToLm => 0x8005C
    | .detectLmProtected => 0x80080
    | .cpuidNotFoundProtected => 0x800C0
    | .lmNotFoundProtected => 0x800CC
    | .startKernel => 0x80170
  lmNotFoundStr := 0x800D8
  cpuidNotFoundStr := 0x80110
  gdt64Start := 0x80150

def imageMemory : Memory :=
  Bytes.store 8 (Bytes.store 2 (storeEach 8 0x80150 8 (fun i => gdt64.getD i 0) 3 fun _ => 0) 0x80168 23) 0x8016A
    0x80150

def atEntry (ecx : UInt32) : Machine where
  reg
    | .esp => 0x7FFF7
    | .ecx => ecx
    | _ => 0
  eflags := 2
  mem := imageMemory
  cr
    | .cr0 => 0x11
    | _ => 0
  msr _ := 0
  gdtLimit := 23
  gdtBase := 0x7C80
  long := false

/- Long mode, and an ID flag that can be changed. -/
def longModeCpu : Features where
  flagMask := bit32 21
  cpuid leaf := if leaf = 0x80000001 then ⟨0, 0, 0, bit32 29⟩ else ⟨0x80000008, 0, 0, 0⟩

theorem imageMemory_gdt : GdtLoaded imageAt imageMemory where
  table := ⟨by decide, by decide, by decide, trivial⟩
  limit := by decide
  base := by decide
  low := by decide

theorem atEntry_loaded {ecx : UInt32} (h : ecx.toNat ≤ 0x1FC00) : Loaded imageAt (atEntry ecx) where
  labels := by
    intro l l' hl
    cases l <;> cases l' <;> first | rfl | cases hl
  gdt := imageMemory_gdt
  above := by decide
  flat := by
    have hclear : (0x11 : UInt32) &&& bit32 31 = 0 := by decide
    simp [Machine.paging, atEntry, hclear]
  df := by
    have hclear : (2 : UInt32) &&& Machine.dfBit = 0 := by decide
    simp [Machine.df, atEntry, hclear]
  stack := by
    have hesp : ((atEntry ecx).reg .esp).toNat = 0x7FFF7 := rfl
    omega
  fill := h

/- With nothing cleared, some memories are mapped otherwise. -/
theorem not_always_identity : ¬∀ mem, (∀ a, 0x80000 ≤ a → mem a = imageMemory a) → ∃ m',
    Reaches (step longModeCpu imageAt) ⟨{atEntry 0 with mem}, program imageAt .start⟩
      ⟨m', [.callOut .kernelMain]⟩ ∧ IdentityMap m'.mem (m'.cr .cr3).toNat :=
  (identity_map_iff longModeCpu (atEntry_loaded (by decide)) (by decide)).not.mpr (by decide)

end CasseOS.Boot
