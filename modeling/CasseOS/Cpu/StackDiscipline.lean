import CasseOS.Cpu.Interrupt

/-! # The stack in the interrupt stubs (`cpu/interrupt.asm`)

What the stubs put on the stack they take off again when the handler returns, up to
the frame of the processor, and the error code if there is one. -/

namespace CasseOS.Cpu
open Stack CInt

/- A handler as it is called: the state after it returns, if it does. It leaves the
stack pointer and the words its caller has on the stack; the other registers are its
own. -/
structure Conforms (handler : Processor → Option Processor) : Prop where
  rsp : ∀ c, ∀ c' ∈ handler c, c'.stack.sp = c.stack.sp
  frame : ∀ c, ∀ c' ∈ handler c, ∀ i < 24,
    c'.stack.mem (slot c.stack.sp i) = c.stack.mem (slot c.stack.sp i)

/- The stack is aligned at the call, and if the handler returns, the registers are as
they were at `iretq` and `rsp` points to the saved instruction pointer. -/
structure Disciplined (handler : Processor → Option Processor) (s : Interrupted) (stub : Stub) :
    Prop where
  aligned : (s.atCall stub).stack.sp % 16 = 0
  returns : ∀ c ∈ handler (s.atCall stub), (atIretq stub c).reg = s.cpu.reg ∧
    (atIretq stub c).stack.sp = s.ripSlot

/-! ### Alignment -/

theorem toNat_base (s : Interrupted) : s.base.toNat = s.cpu.stack.sp.toNat / 16 * 16 := by
  rw [Interrupted.base, UInt64.toNat_and]
  exact and_mask (w := 64) (k := 4) (by decide) s.cpu.stack.sp.toNat_lt

theorem slot_saved (s : Interrupted) (stub : Stub) :
    slot (s.saved stub).sp (if stub = .isr 11 then 23 else 22) = s.base := by
  rw [← length_pushed]
  exact sp_pushes {s.cpu.stack with sp := s.base} (s.pushed stub)

theorem saved_sp (s : Interrupted) (stub : Stub) :
    (s.saved stub).sp = s.base - if stub = .isr 11 then 184 else 176 := by
  have h := slot_saved s stub
  split at h
  · have hwords : (8 : UInt64) * UInt64.ofNat 23 = 184 := by decide
    rw [slot, hwords] at h
    rw [← h]
    grind
  · have hwords : (8 : UInt64) * UInt64.ofNat 22 = 176 := by decide
    rw [slot, hwords] at h
    rw [← h]
    grind

/- Only for vector 11 is there an odd number of words on the stack. -/
theorem aligned_iff (s : Interrupted) (stub : Stub) :
    (s.atCall stub).stack.sp % 16 = 0 ↔ stub = .isr 11 := by
  have hbase := toNat_base s
  have hlt := s.base.toNat_lt
  have hsp : (s.atCall stub).stack.sp = (s.saved stub).sp - 8 := by rw [atCall_eq]
  rw [hsp, saved_sp, ← UInt64.toNat_inj, UInt64.toNat_mod, UInt64.toNat_sub, UInt64.toNat_sub]
  have height : (8 : UInt64).toNat = 8 := rfl
  have hsixteen : (16 : UInt64).toNat = 16 := rfl
  have hzero : (0 : UInt64).toNat = 0 := rfl
  rw [height, hsixteen, hzero]
  by_cases h : stub = .isr 11
  · have hwords : (184 : UInt64).toNat = 184 := rfl
    rw [if_pos h, hwords]
    exact iff_of_true (by omega) h
  · have hwords : (176 : UInt64).toNat = 176 := rfl
    rw [if_neg h, hwords]
    exact iff_of_false (by omega) h

/-! ### The way back -/

theorem run_cons (c : Processor) (i : Instr) (code : List Instr) :
    c.run (i :: code) = (c.step i).run code := rfl

theorem run_singleton (c : Processor) (i : Instr) : c.run [i] = c.step i := rfl

theorem addRsp_reg (c : Processor) (n : UInt64) : (c.step (.addRsp n)).reg = c.reg := rfl

theorem addRsp_sp (c : Processor) (n : UInt64) :
    (c.step (.addRsp n)).stack.sp = c.stack.sp + n := rfl

/- Registers that are popped get the words that are there. -/
theorem run_pop {regs : List Reg} (hnodup : regs.Nodup) {c : Processor} {f : Reg → UInt64}
    {rest : List UInt64} (h : Holds c.stack.mem c.stack.sp (regs.map f ++ rest)) :
    (∀ r, (c.run (regs.map .pop)).reg r = if r ∈ regs then f r else c.reg r) ∧
      (c.run (regs.map .pop)).stack.sp = slot c.stack.sp regs.length := by
  induction regs generalizing c with
  | nil => exact ⟨fun r => rfl, (slot_zero _).symm⟩
  | cons r regs ih =>
    obtain ⟨hr, hregs⟩ := List.nodup_cons.mp hnodup
    obtain ⟨hreg, hsp⟩ := ih hregs (c := c.step (.pop r)) h.2
    refine ⟨fun r' => (hreg r').trans ?_, hsp.trans (slot_succ _ _).symm⟩
    by_cases heq : r' = r
    · rw [heq, if_neg hr, if_pos (List.mem_cons_self ..)]
      exact (Function.update_self ..).trans h.1
    · have hother : (c.step (.pop r)).reg r' = c.reg r' := Function.update_of_ne heq ..
      rw [hother]
      simp [heq]

theorem exit_eq (stub : Stub) : stub.exit = commonExit stub.cleanup := by
  cases stub with
  | isr vector =>
    rw [Stub.exit, Stub.cleanup]
    split
    · rfl
    · rfl
  | irq n => rfl

theorem mem_popAll (r : Reg) : r ∈ popAll := by cases r <;> decide

section Return
variable {handler : Processor → Option Processor} {s : Interrupted} {stub : Stub} {c : Processor}

/- After the call the words that were pushed are still there. -/
theorem holds_returned (hconf : Conforms handler) (hc : c ∈ handler (s.atCall stub)) :
    Holds c.stack.mem (c.stack.sp + 8) (s.pushed stub).reverse := by
  have hsp := hconf.rsp _ c hc
  have hframe := hconf.frame _ c hc
  rw [atCall_eq] at hsp hframe
  have hback : c.stack.sp + 8 = (s.saved stub).sp := by
    rw [hsp]
    grind
  rw [hback]
  refine (holds_saved s stub).congr fun i hi => ?_
  have hlen : (s.pushed stub).reverse.length ≤ 23 := by
    rw [List.length_reverse, length_pushed]
    split <;> decide
  have hslot := hframe (i + 1) (by omega)
  have hnext : slot ((s.saved stub).sp - 8) (i + 1) = slot (s.saved stub).sp i := by
    rw [slot_succ]
    congr 1
    grind
  dsimp only at hslot
  rwa [hnext] at hslot

/- What was pushed begins with the registers. -/
theorem pushed_reverse_popAll (s : Interrupted) (stub : Stub) :
    ∃ rest, (s.pushed stub).reverse = popAll.map s.cpu.reg ++ rest := by
  by_cases h : stub = .isr 11
  · rw [h]
    exact ⟨_, pushed_reverse_eleven s⟩
  · exact ⟨_, pushed_reverse s h⟩

/-- Whatever stub it is, the registers come back, and `rsp` gets to the saved
instruction pointer unless the processor has pushed an error code, which is left. -/
theorem returns_eq (hconf : Conforms handler) (hc : c ∈ handler (s.atCall stub)) :
    (atIretq stub c).reg = s.cpu.reg ∧
      (atIretq stub c).stack.sp = if stub.pushesError then s.ripSlot - 8 else s.ripSlot := by
  obtain ⟨rest, hrest⟩ := pushed_reverse_popAll s stub
  have hholds := holds_returned hconf hc
  rw [hrest] at hholds
  have hnodup : popAll.Nodup := by decide
  obtain ⟨hreg, hsp⟩ := run_pop hnodup (c := c.step (.addRsp 8)) hholds
  have hrun : atIretq stub c =
      ((c.step (.addRsp 8)).run (popAll.map .pop)).step (.addRsp stub.cleanup) := by
    rw [atIretq, exit_eq, commonExit, run_cons, run_append, run_singleton]
  have hcall : c.stack.sp = (s.saved stub).sp - 8 := by
    rw [hconf.rsp _ c hc, atCall_eq]
  have hregs : (slot (c.stack.sp + 8) popAll.length) = (s.saved stub).sp + 120 := by
    have hwords : (8 : UInt64) * UInt64.ofNat popAll.length = 120 := by decide
    rw [slot, hwords, hcall]
    grind
  rw [hrun, addRsp_reg, addRsp_sp, hsp, addRsp_sp, hregs, saved_sp, Interrupted.ripSlot]
  refine ⟨funext fun r => ?_, ?_⟩
  · rw [hreg, if_pos (mem_popAll r)]
  · cases stub with
    | irq n =>
      have heleven : Stub.irq n ≠ .isr 11 := by simp
      rw [if_neg heleven, Stub.cleanup, Stub.pushesError, if_neg Bool.false_ne_true]
      grind
    | isr vector =>
      have hcases : ∀ vector : Fin 32, (vector = 11 ∧ vector ∉ isrErr ∧ vector ∈ errorVectors) ∨
          (vector ≠ 11 ∧ vector ∈ isrErr ∧ vector ∈ errorVectors) ∨
            (vector ≠ 11 ∧ vector ∉ isrErr ∧ vector ∉ errorVectors) := by decide
      rw [Stub.cleanup, Stub.pushesError]
      obtain ⟨heleven, hmacro, hpushes⟩ | ⟨heleven, hmacro, hpushes⟩ | ⟨heleven, hmacro, hpushes⟩ :=
        hcases vector
      · rw [if_pos (by rw [heleven]), if_neg hmacro, if_pos (decide_eq_true hpushes)]
        grind
      · rw [if_neg (by simpa using heleven), if_pos hmacro, if_pos (decide_eq_true hpushes)]
        grind
      · rw [if_neg (by simpa using heleven), if_neg hmacro, if_neg (by simpa using hpushes)]
        grind

/-- The stubs keep to the discipline for no vector but 11, where the stack is aligned,
and there only if the handler does not return. -/
theorem disciplined_iff (hconf : Conforms handler) (s : Interrupted) (stub : Stub) :
    Disciplined handler s stub ↔ stub = .isr 11 ∧ handler (s.atCall stub) = none := by
  constructor
  · intro h
    have heleven := (aligned_iff s stub).mp h.aligned
    refine ⟨heleven, Option.eq_none_iff_forall_not_mem.mpr fun c hc => ?_⟩
    have hback := (returns_eq hconf hc).2.symm.trans (h.returns c hc).2
    rw [heleven, if_pos (by decide)] at hback
    have hne : s.ripSlot - 8 ≠ s.ripSlot := by
      intro heq
      have hzero : (8 : UInt64) = 0 := by grind
      exact absurd hzero (by decide)
    exact hne hback
  · rintro ⟨heleven, hnone⟩
    refine ⟨(aligned_iff s stub).mpr heleven, fun c hc => ?_⟩
    rw [hnone] at hc
    cases hc

end Return

/- A handler that does not return, as `isr_handler` for an exception. -/
def halts : Processor → Option Processor := fun _ => none

theorem conforms_halts : Conforms halts := ⟨nofun, nofun⟩

/- One that returns at once, with all as it was. -/
theorem conforms_some : Conforms some := by
  constructor
  · rintro c _ ⟨⟩
    rfl
  · rintro c _ ⟨⟩ i _
    rfl

/- The one stub with an aligned stack, with both handlers, and the timer's. -/
theorem disciplined_iff_eleven : Disciplined halts sevenInRax (.isr 11) ∧
    ¬Disciplined some sevenInRax (.isr 11) ∧ ¬Disciplined some sevenInRax (.irq 0) :=
  ⟨(disciplined_iff conforms_halts sevenInRax (.isr 11)).mpr ⟨rfl, rfl⟩,
    fun h => Option.some_ne_none _ ((disciplined_iff conforms_some sevenInRax (.isr 11)).mp h).2,
    fun h => absurd ((disciplined_iff conforms_some sevenInRax (.irq 0)).mp h).1 (by decide)⟩

theorem timer_misaligned : ¬ Disciplined some sevenInRax (.irq 0) := fun h =>
  absurd ((aligned_iff _ _).mp h.aligned) (by decide)

end CasseOS.Cpu
