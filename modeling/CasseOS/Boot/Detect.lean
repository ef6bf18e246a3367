import CasseOS.Boot.Protected
import CasseOS.Lib.Bits

/-! # The check for long mode

`detect_lm_protected` saves the registers, tries to change the ID flag, and asks
CPUID. On a processor with long mode it returns with every register as it was; on
any other it ends at one of the two errors. Of the memory it uses the 40 bytes below
the stack. -/

namespace CasseOS.Boot
open Bits Bytes PageWalk SmallStep

/-! ### Flags -/

theorem cf_iff (m : Machine) : m.cf = bitOf m.eflags 0 := by
  rw [Bool.eq_iff_iff, Machine.cf, decide_eq_true_iff]
  exact and_bit_ne_zero _ rfl (by decide)

theorem zf_iff (m : Machine) : m.zf = bitOf m.eflags 6 := by
  rw [Bool.eq_iff_iff, Machine.zf, decide_eq_true_iff]
  exact and_bit_ne_zero _ rfl (by decide)

theorem df_iff (m : Machine) : m.df = bitOf m.eflags 10 := by
  rw [Bool.eq_iff_iff, Machine.df, decide_eq_true_iff]
  exact and_bit_ne_zero _ rfl (by decide)

/- Arithmetic sets CF and ZF and keeps the rest. -/
theorem arith_bit (m : Machine) (cf zf : Bool) {i : ℕ} (hi : i < 32) :
    bitOf (m.arith cf zf).eflags i = if i = 0 then cf else if i = 6 then zf else bitOf m.eflags i := by
  have hcf : bitOf Machine.cfBit i = decide (0 = i) := bitOf_twoPow rfl hi
  have hzf : bitOf Machine.zfBit i = decide (6 = i) := bitOf_twoPow rfl hi
  have hnone : bitOf 0 i = false := by simp [bitOf]
  have hif : ∀ (b : Bool) (w : UInt32), bitOf (if b then w else 0) i = (b && bitOf w i) := by
    intro b w
    cases b <;> simp [hnone]
  unfold Machine.arith
  simp only [bitOf_or, bitOf_and, bitOf_not _ hi, hif, hcf, hzf]
  by_cases h0 : i = 0
  · subst h0
    simp
  · by_cases h6 : i = 6
    · subst h6
      simp
    · simp [h0, h6, Ne.symm h0, Ne.symm h6]

theorem arith_df (m : Machine) (cf zf : Bool) : (m.arith cf zf).df = m.df := by
  rw [df_iff, df_iff, arith_bit m cf zf (by decide)]
  rfl

theorem arith_zf (m : Machine) (cf zf : Bool) : (m.arith cf zf).zf = zf := by
  rw [zf_iff, arith_bit m cf zf (by decide)]
  rfl

theorem arith_cf (m : Machine) (cf zf : Bool) : (m.arith cf zf).cf = cf := by
  rw [cf_iff, arith_bit m cf zf (by decide)]
  rfl

/-! ### The stack -/

section Stack
variable {m m' : Machine} {v : UInt32}

theorem sub_four (v : UInt32) : v - 4 + 4 = v := by grind

theorem toNat_sub_four (h : 4 ≤ v.toNat) : (v - 4).toNat = v.toNat - 4 := by
  rw [UInt32.toNat_sub_of_le]
  · rfl
  · rw [UInt32.le_iff_toNat_le]
    exact h

theorem toNat_add_four (h : v.toNat + 4 < 2 ^ 32) : (v + 4).toNat = v.toNat + 4 := by
  have hfour : (4 : UInt32).toNat = 4 := rfl
  rw [UInt32.toNat_add, hfour, Nat.mod_eq_of_lt h]

theorem ofNat_load_store (mem : Memory) (a : ℕ) (v : UInt32) :
    UInt32.ofNat (load 4 (Bytes.store 4 mem a v.toNat) a) = v := by
  rw [load_store, Nat.mod_eq_of_lt (by have := v.toNat_lt; omega)]
  exact UInt32.ofNat_toNat

@[simp] theorem set_self (m : Machine) (r : Reg) (v : UInt32) : (m.set r v).reg r = v := by
  simp [Machine.set]

@[simp] theorem set_of_ne (m : Machine) {r s : Reg} (v : UInt32) (h : s ≠ r) :
    (m.set r v).reg s = m.reg s := by
  simp [Machine.set, h]

@[simp] theorem push_esp (m : Machine) (v : UInt32) : (m.push v).reg .esp = m.reg .esp - 4 :=
  set_self m .esp _

@[simp] theorem push_other (m : Machine) (v : UInt32) {r : Reg} (h : r ≠ .esp) :
    (m.push v).reg r = m.reg r :=
  set_of_ne m _ h

@[simp] theorem drop_esp (m : Machine) : m.drop.reg .esp = m.reg .esp + 4 := set_self m .esp _

@[simp] theorem drop_other (m : Machine) {r : Reg} (h : r ≠ .esp) : m.drop.reg r = m.reg r :=
  set_of_ne m _ h

theorem push_top (m : Machine) (v : UInt32) : (m.push v).top = v := by
  unfold Machine.push Machine.top Machine.loadDword Machine.storeDword Machine.set
  simp only [Function.update_self]
  exact ofNat_load_store ..

theorem push_drop (m : Machine) (v : UInt32) :
    (m.push v).drop = {m with mem := Bytes.store 4 m.mem (m.reg .esp - 4).toNat v.toNat} := by
  unfold Machine.push Machine.drop Machine.storeDword Machine.set
  simp only [Function.update_self, sub_four, Function.update_idem, Function.update_eq_self]

theorem push_pop (m : Machine) (v : UInt32) (r : Reg) : (m.push v).pop r =
    {m.set r v with mem := Bytes.store 4 m.mem (m.reg .esp - 4).toNat v.toNat} := by
  rw [Machine.pop, push_top, push_drop]
  rfl

/- The state apart from the general registers, EFLAGS and memory. -/
structure SameControl (m m' : Machine) : Prop where
  cr : m'.cr = m.cr
  msr : m'.msr = m.msr
  gdtLimit : m'.gdtLimit = m.gdtLimit
  gdtBase : m'.gdtBase = m.gdtBase
  long : m'.long = m.long

theorem SameControl.refl (m : Machine) : SameControl m m := ⟨rfl, rfl, rfl, rfl, rfl⟩

theorem SameControl.trans {m'' : Machine} (h : SameControl m m') (h' : SameControl m' m'') :
    SameControl m m'' :=
  ⟨h'.cr.trans h.cr, h'.msr.trans h.msr, h'.gdtLimit.trans h.gdtLimit, h'.gdtBase.trans h.gdtBase,
    h'.long.trans h.long⟩

/- The words pushed are on the stack, the last one first. -/
theorem pushes_spec (vs : List UInt32) (m : Machine) (ws : List ℕ)
    (h : Words 4 m.mem (m.reg .esp).toNat ws) (hroom : 4 * vs.length ≤ (m.reg .esp).toNat) :
    ∃ m', vs.foldl Machine.push m = m' ∧ SameControl m m' ∧ m'.eflags = m.eflags ∧
      (∀ r, r ≠ .esp → m'.reg r = m.reg r) ∧
      (m'.reg .esp).toNat = (m.reg .esp).toNat - 4 * vs.length ∧
      Words 4 m'.mem (m'.reg .esp).toNat (vs.reverse.map UInt32.toNat ++ ws) ∧
      ∀ a, a < (m.reg .esp).toNat - 4 * vs.length ∨ (m.reg .esp).toNat ≤ a → m'.mem a = m.mem a := by
  induction vs generalizing m ws with
  | nil => exact ⟨m, rfl, .refl m, rfl, fun _ _ => rfl, by simp, h, fun _ _ => rfl⟩
  | cons v vs ih =>
    rw [List.length_cons] at hroom
    have hesp : ((m.push v).reg .esp).toNat = (m.reg .esp).toNat - 4 := by
      rw [push_esp, toNat_sub_four (by omega)]
    have hmem : (m.push v).mem = Bytes.store 4 m.mem ((m.reg .esp).toNat - 4) v.toNat := by
      rw [← toNat_sub_four (by omega)]
      rfl
    have hwords : Words 4 (m.push v).mem ((m.push v).reg .esp).toNat (v.toNat :: ws) := by
      rw [hesp, hmem]
      exact h.push (by omega) (by have := v.toNat_lt; omega)
    obtain ⟨m', hm', hcontrol, hflags, hreg, hesp', hwords', hframe⟩ :=
      ih (m.push v) (v.toNat :: ws) hwords (by omega)
    have hpush : SameControl m (m.push v) := ⟨rfl, rfl, rfl, rfl, rfl⟩
    refine ⟨m', hm', hpush.trans hcontrol, hflags, fun r hr => ?_, ?_, ?_, fun a ha => ?_⟩
    · rw [hreg r hr, push_other m v hr]
    · rw [hesp', hesp, List.length_cons]
      omega
    · rwa [List.reverse_cons, List.map_append, List.append_assoc]
    · rw [List.length_cons] at ha
      rw [hframe a (by omega), hmem]
      exact store_other (by omega)

/- What is popped into the registers is what was saved of them. -/
theorem pops_spec (rs : List Reg) (m : Machine) (saved : Reg → UInt32) (ws : List ℕ)
    (h : Words 4 m.mem (m.reg .esp).toNat (rs.map (fun r => (saved r).toNat) ++ ws))
    (hroom : (m.reg .esp).toNat + 4 * rs.length < 2 ^ 32) :
    ∃ m', rs.foldl popUnlessEsp m = m' ∧ SameControl m m' ∧ m'.eflags = m.eflags ∧ m'.mem = m.mem ∧
      (m'.reg .esp).toNat = (m.reg .esp).toNat + 4 * rs.length ∧
      Words 4 m'.mem (m'.reg .esp).toNat ws ∧
      (∀ r ∈ rs, r ≠ .esp → m'.reg r = saved r) ∧
      ∀ r ∉ rs, r ≠ .esp → m'.reg r = m.reg r := by
  induction rs generalizing m with
  | nil => exact ⟨m, rfl, .refl m, rfl, rfl, rfl, h, fun r hr => absurd hr List.not_mem_nil,
      fun _ _ _ => rfl⟩
  | cons s rs ih =>
    rw [List.length_cons] at hroom
    obtain ⟨hfirst, hrest⟩ := h
    have htop : m.top = saved s := by
      rw [Machine.top, Machine.loadDword, hfirst]
      exact UInt32.ofNat_toNat
    have hadd : (m.reg .esp + 4).toNat = (m.reg .esp).toNat + 4 := toNat_add_four (by omega)
    have hesp : (popUnlessEsp m s).reg .esp = m.reg .esp + 4 := by
      unfold popUnlessEsp
      split
      · exact drop_esp m
      · next hs => rw [Machine.pop, set_of_ne _ _ (Ne.symm hs), drop_esp]
    have hother : ∀ r, r ≠ .esp → (popUnlessEsp m s).reg r = if r = s then saved s else m.reg r := by
      intro r hr
      unfold popUnlessEsp
      split
      · next hs =>
        rw [if_neg (hs ▸ hr), drop_other m hr]
      · rw [Machine.pop, htop]
        by_cases hrs : r = s
        · rw [if_pos hrs, hrs, set_self]
        · rw [if_neg hrs, set_of_ne _ _ hrs, drop_other m hr]
    have hcontrol : SameControl m (popUnlessEsp m s) ∧ (popUnlessEsp m s).eflags = m.eflags ∧
        (popUnlessEsp m s).mem = m.mem := by
      unfold popUnlessEsp
      split <;> exact ⟨⟨rfl, rfl, rfl, rfl, rfl⟩, rfl, rfl⟩
    obtain ⟨m', hm', hsame, hflags, hmem, hesp', hleft, hin, hout⟩ := ih (popUnlessEsp m s)
      (by rw [hesp, hadd, hcontrol.2.2]; exact hrest) (by rw [hesp, hadd]; omega)
    refine ⟨m', hm', hcontrol.1.trans hsame, hflags.trans hcontrol.2.1, hmem.trans hcontrol.2.2, ?_,
      hleft, ?_, ?_⟩
    · rw [hesp', hesp, hadd, List.length_cons]
      omega
    · intro r hr hne
      by_cases hmem : r ∈ rs
      · exact hin r hmem hne
      · have hrs : r = s := (List.mem_cons.mp hr).resolve_right hmem
        rw [hout r hmem hne, hother r hne, if_pos hrs, hrs]
    · intro r hr hne
      rw [List.mem_cons, not_or] at hr
      rw [hout r hr.2 hne, hother r hne, if_neg hr.1]

end Stack

/-! ### The ID flag -/

section Detect
variable (cpu : Features) (im : Image)

theorem reaches_ops (ops : List Op) (m : Machine) (code : List Instr) :
    Reaches (step cpu im) ⟨m, ops.map .op ++ code⟩ ⟨ops.foldl (exec cpu) m, code⟩ := by
  induction ops generalizing m with
  | nil => exact .refl _
  | cons o ops ih => exact .head rfl (ih (exec cpu m o))

def Features.popMask : UInt32 := cpu.flagMask ||| Machine.cfBit ||| Machine.zfBit

/- EFLAGS after `popfd` has found a word on the stack. -/
def flagsPopped (old v : UInt32) : UInt32 := (old &&& ~~~cpu.popMask) ||| (v &&& cpu.popMask)

theorem flagsPopped_bit (old v : UInt32) {i : ℕ} (hi : i < 32) :
    bitOf (flagsPopped cpu old v) i = if bitOf cpu.popMask i then bitOf v i else bitOf old i := by
  rw [flagsPopped, bitOf_or, bitOf_and, bitOf_and, bitOf_not _ hi]
  cases bitOf cpu.popMask i <;> simp

theorem popfd_push (m : Machine) (v : UInt32) : exec cpu (m.push v) .popfd = {m with
    eflags := flagsPopped cpu m.eflags v
    mem := Bytes.store 4 m.mem (m.reg .esp - 4).toNat v.toNat} := by
  unfold exec
  dsimp only
  rw [push_top, push_drop]
  rfl

/- The instructions between `pushad` and the comparison. -/
def flagTest : List Op :=
  [.pushfd, .pop .eax, .movReg .ecx .eax, .xor .eax (bit32 21), .push .eax, .popfd, .pushfd,
    .pop .eax, .push .ecx, .popfd, .cmpReg .eax .ecx]

/- The ID flag can be changed. -/
def Features.hasCpuid : Bool := bitOf cpu.flagMask 21

/- EFLAGS as they are read back. -/
def flagsBack (p : Machine) : UInt32 :=
  flagsPopped cpu (p.arith false (p.eflags ^^^ bit32 21 = 0)).eflags (p.eflags ^^^ bit32 21)

theorem popMask_bit {i : ℕ} (hi : i < 32) (h0 : i ≠ 0) (h6 : i ≠ 6) :
    bitOf cpu.popMask i = bitOf cpu.flagMask i := by
  have hcf : bitOf Machine.cfBit i = decide (0 = i) := bitOf_twoPow rfl hi
  have hzf : bitOf Machine.zfBit i = decide (6 = i) := bitOf_twoPow rfl hi
  rw [Features.popMask, bitOf_or, bitOf_or, hcf, hzf]
  simp [Ne.symm h0, Ne.symm h6]

theorem popMask_status {i : ℕ} (h : i = 0 ∨ i = 6) : bitOf cpu.popMask i = true := by
  rw [Features.popMask, bitOf_or, bitOf_or]
  rcases h with rfl | rfl
  · have hcf : bitOf Machine.cfBit 0 = true := rfl
    rw [hcf, Bool.or_true, Bool.true_or]
  · have hzf : bitOf Machine.zfBit 6 = true := rfl
    rw [hzf, Bool.or_true]

theorem flagsBack_bit (p : Machine) {i : ℕ} (hi : i < 32) : bitOf (flagsBack cpu p) i =
    (bitOf p.eflags i ^^ (decide (21 = i) && cpu.hasCpuid)) := by
  have hid : bitOf (bit32 21) i = decide (21 = i) := bitOf_twoPow rfl hi
  rw [flagsBack, flagsPopped_bit _ _ _ hi, bitOf_xor, hid, arith_bit _ _ _ hi]
  by_cases hstatus : i = 0 ∨ i = 6
  · rw [popMask_status cpu hstatus, if_pos rfl]
    rcases hstatus with rfl | rfl <;> rfl
  · rw [not_or] at hstatus
    rw [popMask_bit cpu hi hstatus.1 hstatus.2, if_neg hstatus.1, if_neg hstatus.2]
    by_cases h21 : 21 = i
    · subst h21
      rw [Features.hasCpuid]
      cases bitOf cpu.flagMask 21 <;> simp
    · simp [h21]

theorem flagsBack_eq_iff (p : Machine) : flagsBack cpu p = p.eflags ↔ cpu.hasCpuid = false := by
  constructor
  · intro h
    have hbit := flagsBack_bit cpu p (by decide : 21 < 32)
    rw [h] at hbit
    cases hc : cpu.hasCpuid with
    | false => rfl
    | true =>
      rw [hc] at hbit
      cases hf : bitOf p.eflags 21 <;> rw [hf] at hbit <;> cases hbit
  · intro h
    refine eq_of_bits fun i hi => ?_
    rw [flagsBack_bit cpu p hi, h, Bool.and_false, Bool.xor_false]

/- The flags are put back. -/
theorem flagsPopped_flagsBack (p : Machine) : flagsPopped cpu (flagsBack cpu p) p.eflags = p.eflags := by
  refine eq_of_bits fun i hi => ?_
  rw [flagsPopped_bit _ _ _ hi]
  by_cases hmask : bitOf cpu.popMask i = true
  · rw [if_pos hmask]
  · rw [if_neg hmask, flagsBack_bit cpu p hi]
    by_cases h21 : 21 = i
    · subst h21
      have hid := popMask_bit cpu hi (by decide) (by decide)
      rw [Bool.not_eq_true, hid] at hmask
      rw [Features.hasCpuid, hmask, Bool.and_false, Bool.xor_false]
    · simp [h21]

/- A word pushed and popped again leaves a trace below the stack only. -/
structure Scratched (m m' : Machine) : Prop where
  control : SameControl m m'
  esp : m'.reg .esp = m.reg .esp
  mem : ∀ a, a < (m.reg .esp).toNat - 4 ∨ (m.reg .esp).toNat ≤ a → m'.mem a = m.mem a

theorem Scratched.trans {m m' m'' : Machine} (h : Scratched m m') (h' : Scratched m' m'') :
    Scratched m m'' := by
  refine ⟨h.control.trans h'.control, h'.esp.trans h.esp, fun a ha => ?_⟩
  rw [h'.mem a (by rw [h.esp]; exact ha), h.mem a ha]

theorem scratched_store {m m' : Machine} (hcontrol : SameControl m m') (hesp : m'.reg .esp = m.reg .esp)
    (hroom : 4 ≤ (m.reg .esp).toNat) {v : UInt32}
    (hmem : m'.mem = Bytes.store 4 m.mem (m.reg .esp - 4).toNat v.toNat) : Scratched m m' := by
  refine ⟨hcontrol, hesp, fun a ha => ?_⟩
  rw [hmem, toNat_sub_four hroom]
  exact store_other (by omega)

theorem scratched_pop (m : Machine) (v : UInt32) {r : Reg} (hr : r ≠ .esp)
    (hroom : 4 ≤ (m.reg .esp).toNat) : Scratched m ((m.push v).pop r) := by
  rw [push_pop]
  exact scratched_store ⟨rfl, rfl, rfl, rfl, rfl⟩ (set_of_ne m v (Ne.symm hr)) hroom rfl

theorem scratched_popfd (m : Machine) (v : UInt32) (hroom : 4 ≤ (m.reg .esp).toNat) :
    Scratched m (exec cpu (m.push v) .popfd) := by
  rw [popfd_push]
  exact scratched_store ⟨rfl, rfl, rfl, rfl, rfl⟩ rfl hroom rfl

theorem flagTest_spec (p : Machine) (hroom : 4 ≤ (p.reg .esp).toNat) :
    Scratched p (flagTest.foldl (exec cpu) p) ∧ (flagTest.foldl (exec cpu) p).df = p.df ∧
      (flagTest.foldl (exec cpu) p).zf = !cpu.hasCpuid := by
  -- EFLAGS into `eax` and `ecx`, and the ID bit of `eax` flipped
  obtain ⟨p₁, hp₁⟩ : ∃ p₁, (p.push p.eflags).pop .eax = p₁ := ⟨_, rfl⟩
  have hs₁ : Scratched p p₁ := hp₁ ▸ scratched_pop p p.eflags (by decide) hroom
  obtain ⟨p₂, hp₂⟩ : ∃ p₂, exec cpu (exec cpu p₁ (.movReg .ecx .eax)) (.xor .eax (bit32 21)) = p₂ :=
    ⟨_, rfl⟩
  have heax₁ : p₁.reg .eax = p.eflags := by
    rw [← hp₁, push_pop]
    exact set_self p .eax p.eflags
  have hflags₁ : p₁.eflags = p.eflags := by
    rw [← hp₁, push_pop]
    rfl
  have hs₂ : Scratched p₁ p₂ := by
    rw [← hp₂]
    exact ⟨⟨rfl, rfl, rfl, rfl, rfl⟩, by simp [exec, flagsOp, Machine.arith], fun _ _ => rfl⟩
  have heax₂ : p₂.reg .eax = p.eflags ^^^ bit32 21 := by
    rw [← hp₂]
    simp [exec, flagsOp, Machine.arith, heax₁]
  have hecx₂ : p₂.reg .ecx = p.eflags := by
    rw [← hp₂]
    simp [exec, flagsOp, Machine.arith, heax₁]
  have hflags₂ : p₂.eflags = (p.arith false (p.eflags ^^^ bit32 21 = 0)).eflags := by
    rw [← hp₂]
    simp [exec, flagsOp, Machine.arith, Machine.set, heax₁, hflags₁]
  -- EFLAGS written and read back
  obtain ⟨p₃, hp₃⟩ : ∃ p₃, exec cpu (p₂.push (p₂.reg .eax)) .popfd = p₃ := ⟨_, rfl⟩
  have hrun₃ := hp₃
  have hroom₂ : 4 ≤ (p₂.reg .esp).toNat := by rwa [hs₂.esp, hs₁.esp]
  have hs₃ : Scratched p₂ p₃ := hp₃ ▸ scratched_popfd cpu p₂ _ hroom₂
  rw [popfd_push, heax₂, hflags₂] at hp₃
  have hflags₃ : p₃.eflags = flagsBack cpu p := by
    rw [← hp₃]
    rfl
  have hecx₃ : p₃.reg .ecx = p.eflags := by
    rw [← hp₃]
    exact hecx₂
  obtain ⟨p₄, hp₄⟩ : ∃ p₄, (p₃.push p₃.eflags).pop .eax = p₄ := ⟨_, rfl⟩
  have hrun₄ := hp₄
  have hroom₃ : 4 ≤ (p₃.reg .esp).toNat := by rwa [hs₃.esp]
  have hs₄ : Scratched p₃ p₄ := hp₄ ▸ scratched_pop p₃ p₃.eflags (by decide) hroom₃
  rw [push_pop] at hp₄
  have heax₄ : p₄.reg .eax = flagsBack cpu p := by
    rw [← hp₄, ← hflags₃]
    exact set_self p₃ .eax p₃.eflags
  have hecx₄ : p₄.reg .ecx = p.eflags := by
    rw [← hp₄, ← hecx₃]
    exact set_of_ne (r := .eax) (s := .ecx) p₃ p₃.eflags (by decide)
  have hflags₄ : p₄.eflags = flagsBack cpu p := by
    rw [← hp₄, ← hflags₃]
    rfl
  -- EFLAGS put back
  obtain ⟨p₅, hp₅⟩ : ∃ p₅, exec cpu (p₄.push (p₄.reg .ecx)) .popfd = p₅ := ⟨_, rfl⟩
  have hrun₅ := hp₅
  have hroom₄ : 4 ≤ (p₄.reg .esp).toNat := by rwa [hs₄.esp]
  have hs₅ : Scratched p₄ p₅ := hp₅ ▸ scratched_popfd cpu p₄ _ hroom₄
  rw [popfd_push, hecx₄, hflags₄, flagsPopped_flagsBack] at hp₅
  have hflags₅ : p₅.eflags = p.eflags := by
    rw [← hp₅]
  have hcompare : decide (p₅.reg .eax = p₅.reg .ecx) = !cpu.hasCpuid := by
    rw [← hp₅]
    show decide (p₄.reg .eax = p₄.reg .ecx) = _
    rw [heax₄, hecx₄, Bool.eq_iff_iff, decide_eq_true_iff, flagsBack_eq_iff, Bool.not_eq_true']
  have hend : flagTest.foldl (exec cpu) p =
      p₅.arith (p₅.reg .eax < p₅.reg .ecx) (p₅.reg .eax = p₅.reg .ecx) := by
    rw [← hrun₅, ← hrun₄, ← hrun₃, ← hp₂, ← hp₁]
    rfl
  rw [hend, arith_df, arith_zf]
  refine ⟨?_, ?_, hcompare⟩
  · have hs := (((hs₁.trans hs₂).trans hs₃).trans hs₄).trans hs₅
    exact ⟨hs.control.trans ⟨rfl, rfl, rfl, rfl, rfl⟩, hs.esp, hs.mem⟩
  · rw [df_iff, df_iff, hflags₅]

/-! ### The whole check -/

/- CPUID has the leaf that tells about long mode. -/
def Features.extended : Bool := 0x80000001 ≤ (cpu.cpuid 0x80000000).eax

def Features.longMode : Bool := (cpu.cpuid 0x80000001).edx &&& bit32 29 ≠ 0

/- Where the check ends. -/
def Features.verdict : Label :=
  if cpu.hasCpuid then
    if cpu.extended then if cpu.longMode then .pagingSetUp else .lmNotFoundProtected
    else .cpuidNotFoundProtected
  else .cpuidNotFoundProtected

/- Nothing but the registers, without `esp`, and CF and ZF. -/
structure Probed (m m' : Machine) : Prop where
  control : SameControl m m'
  esp : m'.reg .esp = m.reg .esp
  mem : m'.mem = m.mem
  df : m'.df = m.df

theorem Probed.trans {m m' m'' : Machine} (h : Probed m m') (h' : Probed m' m'') : Probed m m'' :=
  ⟨h.control.trans h'.control, h'.esp.trans h.esp, h'.mem.trans h.mem, h'.df.trans h.df⟩

theorem probed_arith (m : Machine) (cf zf : Bool) : Probed m (m.arith cf zf) :=
  ⟨⟨rfl, rfl, rfl, rfl, rfl⟩, rfl, rfl, arith_df m cf zf⟩

theorem probe_spec (m : Machine) (leaf : UInt32) :
    Probed m (exec cpu (exec cpu m (.mov .eax leaf)) .cpuid) ∧
      (exec cpu (exec cpu m (.mov .eax leaf)) .cpuid).reg .eax = (cpu.cpuid leaf).eax ∧
      (exec cpu (exec cpu m (.mov .eax leaf)) .cpuid).reg .edx = (cpu.cpuid leaf).edx := by
  have hleaf : (exec cpu m (.mov .eax leaf)).reg .eax = leaf := set_self m .eax leaf
  have hesp : (exec cpu m (.mov .eax leaf)).reg .esp = m.reg .esp := set_of_ne m leaf (by decide)
  generalize hm₁ : exec cpu m (.mov .eax leaf) = m₁ at hleaf hesp
  have hsame : SameControl m m₁ ∧ m₁.mem = m.mem ∧ m₁.df = m.df :=
    hm₁ ▸ ⟨⟨rfl, rfl, rfl, rfl, rfl⟩, rfl, rfl⟩
  unfold exec
  rw [hleaf]
  refine ⟨⟨hsame.1.trans ⟨rfl, rfl, rfl, rfl, rfl⟩, ?_, hsame.2.1, hsame.2.2⟩, ?_, ?_⟩
  · simp [hesp]
  · simp
  · simp

theorem cmp_cf (m : Machine) (r : Reg) (n : UInt32) :
    (exec cpu m (.cmp r n)).cf = decide (m.reg r < n) := arith_cf ..

theorem test_zf (m : Machine) (r : Reg) (n : UInt32) :
    (exec cpu m (.test r n)).zf = decide (m.reg r &&& n = 0) := arith_zf ..

/- A conditional jump that is not taken. -/
theorem je_falls {m : Machine} (h : m.zf = false) (l : Label) (code : List Instr) :
    step cpu im ⟨m, .je l :: code⟩ = some ⟨m, code⟩ := by
  simp [step, h]

theorem je_jumps {m : Machine} (h : m.zf = true) (l : Label) (code : List Instr) :
    step cpu im ⟨m, .je l :: code⟩ = some ⟨m, program im l⟩ := by
  simp [step, h]

theorem jb_falls {m : Machine} (h : m.cf = false) (l : Label) (code : List Instr) :
    step cpu im ⟨m, .jb l :: code⟩ = some ⟨m, code⟩ := by
  simp [step, h]

theorem jb_jumps {m : Machine} (h : m.cf = true) (l : Label) (code : List Instr) :
    step cpu im ⟨m, .jb l :: code⟩ = some ⟨m, program im l⟩ := by
  simp [step, h]

/- From the comparison of the flags on. -/
theorem probes_spec (m : Machine) (hzf : m.zf = !cpu.hasCpuid) (code : List Instr) :
    ∃ m', Probed m m' ∧ Reaches (step cpu im)
      ⟨m, [.je .cpuidNotFoundProtected, .op (.mov .eax 0x80000000), .op .cpuid,
        .op (.cmp .eax 0x80000001), .jb .cpuidNotFoundProtected, .op (.mov .eax 0x80000001),
        .op .cpuid, .op (.test .edx (bit32 29)), .je .lmNotFoundProtected] ++ code⟩
      ⟨m', if cpu.verdict = .pagingSetUp then code else program im cpu.verdict⟩ := by
  unfold Features.verdict
  cases hcpuid : cpu.hasCpuid with
  | false =>
    rw [hcpuid] at hzf
    exact ⟨m, ⟨.refl m, rfl, rfl, rfl⟩, .head (je_jumps cpu im hzf _ _) (.refl _)⟩
  | true =>
    rw [hcpuid] at hzf
    obtain ⟨hprobe, heax, -⟩ := probe_spec cpu m 0x80000000
    obtain ⟨m₁, hm₁⟩ : ∃ m₁, [.mov .eax 0x80000000, .cpuid, .cmp .eax 0x80000001].foldl (exec cpu) m =
      m₁ := ⟨_, rfl⟩
    have hprobe₁ : Probed m m₁ := hm₁ ▸ hprobe.trans (probed_arith ..)
    have hcf : m₁.cf = !cpu.extended := by
      rw [← hm₁]
      refine (cmp_cf cpu _ .eax 0x80000001).trans ?_
      rw [heax, Features.extended, Bool.eq_iff_iff, decide_eq_true_iff, Bool.not_eq_true',
        decide_eq_false_iff_not, UInt32.not_le]
    have hrun₁ := Reaches.head (je_falls cpu im hzf .cpuidNotFoundProtected _)
      (reaches_ops cpu im [.mov .eax 0x80000000, .cpuid, .cmp .eax 0x80000001] m
        ([.jb .cpuidNotFoundProtected, .op (.mov .eax 0x80000001), .op .cpuid,
          .op (.test .edx (bit32 29)), .je .lmNotFoundProtected] ++ code))
    rw [hm₁] at hrun₁
    cases hext : cpu.extended with
    | false =>
      rw [hext] at hcf
      exact ⟨m₁, hprobe₁, hrun₁.trans (.head (jb_jumps cpu im hcf _ _) (.refl _))⟩
    | true =>
      rw [hext] at hcf
      obtain ⟨hprobe', -, hedx⟩ := probe_spec cpu m₁ 0x80000001
      obtain ⟨m₂, hm₂⟩ : ∃ m₂, [.mov .eax 0x80000001, .cpuid, .test .edx (bit32 29)].foldl
        (exec cpu) m₁ = m₂ := ⟨_, rfl⟩
      have hprobe₂ : Probed m m₂ := hprobe₁.trans (hm₂ ▸ hprobe'.trans (probed_arith ..))
      have hzf₂ : m₂.zf = !cpu.longMode := by
        rw [← hm₂]
        refine (test_zf cpu _ .edx (bit32 29)).trans ?_
        rw [hedx, Features.longMode, Bool.eq_iff_iff, decide_eq_true_iff, Bool.not_eq_true',
          decide_eq_false_iff_not, not_not]
      have hrun₂ := (hrun₁.trans (.head (jb_falls cpu im hcf _ _)
        (reaches_ops cpu im [.mov .eax 0x80000001, .cpuid, .test .edx (bit32 29)] m₁
          ([.je .lmNotFoundProtected] ++ code))))
      rw [hm₂] at hrun₂
      cases hlm : cpu.longMode with
      | false =>
        rw [hlm] at hzf₂
        exact ⟨m₂, hprobe₂, hrun₂.trans (.head (je_jumps cpu im hzf₂ _ _) (.refl _))⟩
      | true =>
        rw [hlm] at hzf₂
        exact ⟨m₂, hprobe₂, hrun₂.trans (.head (je_falls cpu im hzf₂ _ _) (.refl _))⟩

theorem find_label {im : Image} (him : Function.Injective im.label) (l : Label) :
    labels.find? (fun l' => decide (im.label l' = im.label l)) = some l := by
  have hsame : (fun l' => decide (im.label l' = im.label l)) = fun l' => decide (l' = l) := by
    funext l'
    rw [decide_eq_decide]
    exact him.eq_iff
  rw [hsame]
  cases l <;> rfl

/- What the check leaves as it was at the call. -/
structure Checked (m m' : Machine) : Prop where
  df : m'.df = m.df
  control : SameControl m m'
  mem : ∀ a, a < (m.reg .esp).toNat - 40 ∨ (m.reg .esp).toNat ≤ a → m'.mem a = m.mem a

/- The check returns, or it ends at an error. -/
theorem detect_spec (him : Function.Injective im.label) (m : Machine)
    (hroom : 40 ≤ (m.reg .esp).toNat) :
    ∃ m', Checked m m' ∧ (cpu.verdict = .pagingSetUp → m'.reg = m.reg) ∧
      Reaches (step cpu im) ⟨m, program im .start⟩ ⟨m', program im cpu.verdict⟩ := by
  have hesp := (m.reg .esp).toNat_lt
  -- the return address, then the registers
  obtain ⟨m₁, hm₁⟩ : ∃ m₁, m.push (im.label .pagingSetUp) = m₁ := ⟨_, rfl⟩
  have hesp₁ : (m₁.reg .esp).toNat = (m.reg .esp).toNat - 4 := by
    rw [← hm₁, push_esp, toNat_sub_four (by omega)]
  have hmem₁ : m₁.mem = Bytes.store 4 m.mem ((m.reg .esp).toNat - 4) (im.label .pagingSetUp).toNat := by
    rw [← hm₁, ← toNat_sub_four (by omega)]
    rfl
  have hback : Words 4 m₁.mem (m₁.reg .esp).toNat [(im.label .pagingSetUp).toNat] := by
    have hnil : Words 4 m.mem (m.reg .esp).toNat [] := trivial
    rw [hesp₁, hmem₁]
    exact hnil.push (by omega) (by have := (im.label .pagingSetUp).toNat_lt; omega)
  obtain ⟨m₂, hm₂, hcontrol₂, hflags₂, hreg₂, hesp₂, hwords₂, hframe₂⟩ :=
    pushes_spec (pushOrder.map m₁.reg) m₁ _ hback (by rw [hesp₁]; simp [pushOrder]; omega)
  rw [List.length_map] at hesp₂ hframe₂
  have height : pushOrder.length = 8 := rfl
  rw [height] at hesp₂ hframe₂
  -- the comparison of the flags, then CPUID
  obtain ⟨m₃, hm₃⟩ : ∃ m₃, flagTest.foldl (exec cpu) m₂ = m₃ := ⟨_, rfl⟩
  obtain ⟨hscratch₃, hdf₃, hzf₃⟩ := flagTest_spec cpu m₂ (by omega)
  rw [hm₃] at hscratch₃ hdf₃ hzf₃
  obtain ⟨m₄, hprobed, hprobes⟩ := probes_spec cpu im m₃ hzf₃ [.op .popad, .ret]
  have hentry : Reaches (step cpu im) ⟨m, program im .start⟩ ⟨m₁, detectLmProtected⟩ :=
    .head (by rw [← hm₁]; rfl) (.refl _)
  have hsaved := reaches_ops cpu im (.pushad :: flagTest) m₁
    ([.je .cpuidNotFoundProtected, .op (.mov .eax 0x80000000), .op .cpuid,
      .op (.cmp .eax 0x80000001), .jb .cpuidNotFoundProtected, .op (.mov .eax 0x80000001),
      .op .cpuid, .op (.test .edx (bit32 29)), .je .lmNotFoundProtected] ++ [.op .popad, .ret])
  have hpushad : exec cpu m₁ .pushad = m₂ := hm₂
  rw [List.foldl_cons, hpushad, hm₃] at hsaved
  have hrun := hentry.trans (hsaved.trans hprobes)
  have hdf₂ : m₂.df = m.df := by
    rw [df_iff, df_iff, hflags₂, ← hm₁]
    rfl
  have hcontrol₁ : SameControl m m₁ := hm₁ ▸ ⟨rfl, rfl, rfl, rfl, rfl⟩
  have hchecked : Checked m m₄ := by
    refine ⟨?_, ((hcontrol₁.trans hcontrol₂).trans hscratch₃.control).trans hprobed.control,
      fun a ha => ?_⟩
    · rw [hprobed.df, hdf₃, hdf₂]
    · rw [hprobed.mem, hscratch₃.mem a (by omega), hframe₂ a (by omega), hmem₁]
      exact store_other (by omega)
  by_cases hverdict : cpu.verdict = .pagingSetUp
  · rw [if_pos hverdict] at hrun
    -- the registers, then the return address
    have hesp₄ : (m₄.reg .esp).toNat = (m.reg .esp).toNat - 36 := by
      rw [hprobed.esp, hscratch₃.esp, hesp₂, hesp₁]
      omega
    have hwords₄ : Words 4 m₄.mem (m₄.reg .esp).toNat
        (pushOrder.reverse.map (fun r => (m₁.reg r).toNat) ++ [(im.label .pagingSetUp).toNat]) := by
      have hsame : (m₄.reg .esp).toNat = (m₂.reg .esp).toNat := by rw [hprobed.esp, hscratch₃.esp]
      rw [← List.map_reverse, List.map_map] at hwords₂
      rw [hsame, hprobed.mem]
      exact hwords₂.congr fun b hb _ => hscratch₃.mem b (Or.inr hb)
    obtain ⟨m₅, hm₅, hcontrol₅, hflags₅, hmem₅, hesp₅, hleft, hreg₅, -⟩ := pops_spec pushOrder.reverse m₄
      m₁.reg _ hwords₄ (by rw [hesp₄, List.length_reverse, height]; omega)
    rw [List.length_reverse, height] at hesp₅
    have htop : m₅.top = im.label .pagingSetUp := by
      rw [Machine.top, Machine.loadDword, hleft.1]
      exact UInt32.ofNat_toNat
    have hret : step cpu im ⟨m₅, [.ret]⟩ = some ⟨m₅.drop, program im .pagingSetUp⟩ := by
      show (labels.find? fun l => decide (im.label l = m₅.top)).map _ = _
      rw [htop, find_label him]
      rfl
    have hpopad : step cpu im ⟨m₄, [.op .popad, .ret]⟩ = some ⟨m₅, [.ret]⟩ := by
      rw [← hm₅]
      rfl
    have hdrop : SameControl m₅ m₅.drop := ⟨rfl, rfl, rfl, rfl, rfl⟩
    refine ⟨m₅.drop, ⟨?_, (hchecked.control.trans hcontrol₅).trans hdrop, fun a ha => ?_⟩,
      fun _ => ?_, ?_⟩
    · rw [← hchecked.df, df_iff, df_iff, ← hflags₅]
      rfl
    · rw [← hchecked.mem a ha, ← hmem₅]
      rfl
    · funext r
      by_cases hr : r = .esp
      · rw [hr, drop_esp, ← UInt32.toNat_inj, toNat_add_four (by omega)]
        omega
      · have hmem : r ∈ pushOrder.reverse := by cases r <;> decide
        rw [drop_other m₅ hr, hreg₅ r hmem hr, ← hm₁, push_other m _ hr]
    · rw [hverdict]
      exact hrun.trans (.head hpopad (.head hret (.refl _)))
  · rw [if_neg hverdict] at hrun
    exact ⟨m₄, hchecked, fun h => absurd h hverdict, hrun⟩

end Detect

end CasseOS.Boot
