import CasseOS.Lib.CInt
import CasseOS.Lib.Stack
import Mathlib.Data.List.GetD

/-! # Interrupt entry and exit (`cpu/interrupt.asm`, `cpu/isr.h`)

The stubs as lists of instructions on a processor with its stack. The processor
pushes its frame, the stub the vector and a word in the place of the error code, and
the common part the registers; the handler in C gets a pointer to all of them. -/

namespace CasseOS.Cpu
open Stack

/- The general registers but `rsp`. -/
inductive Reg where
  | rax | rbx | rcx | rdx | rsi | rdi | rbp | r8 | r9 | r10 | r11 | r12 | r13 | r14 | r15
deriving DecidableEq

/- The general registers, and `rsp` with the memory. -/
structure Processor where
  reg : Reg → UInt64
  stack : Stack UInt64

inductive Instr where
  | push (r : Reg)
  | pushQword (n : UInt64)
  | pop (r : Reg)
  | movRdiRsp
  | subRsp (n : UInt64)
  | addRsp (n : UInt64)

def Processor.step (c : Processor) : Instr → Processor
  | .push r => {c with stack := c.stack.push (c.reg r)}
  | .pushQword n => {c with stack := c.stack.push n}
  | .pop r => ⟨Function.update c.reg r (c.stack.mem c.stack.sp), {c.stack with sp := c.stack.sp + 8}⟩
  | .movRdiRsp => {c with reg := Function.update c.reg .rdi c.stack.sp}
  | .subRsp n => {c with stack := {c.stack with sp := c.stack.sp - n}}
  | .addRsp n => {c with stack := {c.stack with sp := c.stack.sp + n}}

def Processor.run (c : Processor) (code : List Instr) : Processor := code.foldl Processor.step c

/-! ### The stubs (`interrupt.asm:59-202`) -/

def pushAll : List Reg :=
  [.r15, .r14, .r13, .r12, .r11, .r10, .r9, .r8, .rbp, .rdi, .rsi, .rdx, .rcx, .rbx, .rax]

def popAll : List Reg :=
  [.rax, .rbx, .rcx, .rdx, .rsi, .rdi, .rbp, .r8, .r9, .r10, .r11, .r12, .r13, .r14, .r15]

inductive Stub where
  | isr (vector : Fin 32)
  | irq (n : Fin 16)
deriving DecidableEq

/- The uses of `ISR_NO_ERR` and of `ISR_ERR`. -/
def isrNoErr : List (Fin 32) :=
  [0, 1, 2, 3, 4, 5, 6, 7, 9, 11, 15, 16, 18, 19, 20, 21, 22, 23, 24, 25, 26, 27, 28, 29, 30, 31]
def isrErr : List (Fin 32) := [8, 10, 12, 13, 14, 17]

example : ∀ vector, vector ∈ isrNoErr ↔ vector ∉ isrErr := by decide

def Stub.vector : Stub → UInt64
  | .isr vector => UInt64.ofNat vector
  | .irq n => UInt64.ofNat n + 32

/- `ISR_NO_ERR`, `ISR_ERR` and `IRQ`. -/
def Stub.entry (stub : Stub) : List Instr :=
  match stub with
  | .isr vector =>
    if vector ∈ isrErr then [.pushQword stub.vector] else [.pushQword 0, .pushQword stub.vector]
  | .irq _ => [.pushQword 0, .pushQword stub.vector]

/- What the three common stubs do before the call. -/
def commonEntry : List Instr := pushAll.map .push ++ [.movRdiRsp, .subRsp 8]

/- What they do after it, up to `iretq`. -/
def commonExit (n : UInt64) : List Instr := .addRsp 8 :: (popAll.map .pop ++ [.addRsp n])

def isrCommonStubNoErr : List Instr := commonExit 16
def isrCommonStubErr : List Instr := commonExit 8
def irqCommonStub : List Instr := commonExit 16

def Stub.exit : Stub → List Instr
  | .isr vector => if vector ∈ isrErr then isrCommonStubErr else isrCommonStubNoErr
  | .irq _ => irqCommonStub

/- The bytes that the end of the common stub takes off, below the registers. -/
def Stub.cleanup : Stub → UInt64
  | .isr vector => if vector ∈ isrErr then 8 else 16
  | .irq _ => 16

/- `registers_t`. -/
structure Registers where
  r15 : UInt64
  r14 : UInt64
  r13 : UInt64
  r12 : UInt64
  r11 : UInt64
  r10 : UInt64
  r9 : UInt64
  r8 : UInt64
  rbp : UInt64
  rdi : UInt64
  rsi : UInt64
  rdx : UInt64
  rcx : UInt64
  rbx : UInt64
  rax : UInt64
  intNo : UInt64
  errCode : UInt64
  rip : UInt64
  cs : UInt64
  eflags : UInt64
  rsp : UInt64
  ss : UInt64
deriving DecidableEq

/- The structure with these words, one after the other. -/
def Registers.ofWords (w : ℕ → UInt64) : Registers :=
  ⟨w 0, w 1, w 2, w 3, w 4, w 5, w 6, w 7, w 8, w 9, w 10, w 11, w 12, w 13, w 14, w 15, w 16, w 17,
    w 18, w 19, w 20, w 21⟩

/- The structure at an address. -/
def registersAt (mem : UInt64 → UInt64) (a : UInt64) : Registers :=
  .ofWords fun i => mem (slot a i)

/-! ### The interrupt -/

/- What is interrupted, and the error code that goes with it if there is one. -/
structure Interrupted where
  cpu : Processor
  rip : UInt64
  cs : UInt64
  eflags : UInt64
  ss : UInt64
  error : UInt64

/- The vectors for which the processor pushes an error code. -/
def errorVectors : List (Fin 32) := [8, 10, 11, 12, 13, 14, 17]

def Stub.pushesError : Stub → Bool
  | .isr vector => vector ∈ errorVectors
  | .irq _ => false

/- The frame, as the processor pushes it. -/
def Interrupted.frame (s : Interrupted) (stub : Stub) : List UInt64 :=
  [s.ss, s.cpu.stack.sp, s.eflags, s.cs, s.rip] ++ if stub.pushesError then [s.error] else []

/- `rsp` rounded down to a multiple of 16. -/
def Interrupted.base (s : Interrupted) : UInt64 := s.cpu.stack.sp &&& 0xFFFFFFFFFFFFFFF0

/- Where the instruction pointer is saved. -/
def Interrupted.ripSlot (s : Interrupted) : UInt64 := s.base - 40

/- The processor gets to the stub. -/
def Interrupted.deliver (s : Interrupted) (stub : Stub) : Processor :=
  {s.cpu with stack := (s.frame stub).foldl Stack.push {s.cpu.stack with sp := s.base}}

/- At `call isr_handler` or `call irq_handler`. -/
def Interrupted.atCall (s : Interrupted) (stub : Stub) : Processor :=
  (s.deliver stub).run (stub.entry ++ commonEntry)

/- At `iretq`, after the handler has returned with this state. -/
def atIretq (stub : Stub) (c : Processor) : Processor := c.run stub.exit

/- The registers as they were. -/
def Interrupted.registers (s : Interrupted) (stub : Stub) : Registers :=
  ⟨s.cpu.reg .r15, s.cpu.reg .r14, s.cpu.reg .r13, s.cpu.reg .r12, s.cpu.reg .r11, s.cpu.reg .r10,
    s.cpu.reg .r9, s.cpu.reg .r8, s.cpu.reg .rbp, s.cpu.reg .rdi, s.cpu.reg .rsi, s.cpu.reg .rdx,
    s.cpu.reg .rcx, s.cpu.reg .rbx, s.cpu.reg .rax, stub.vector,
    if stub.pushesError then s.error else 0, s.rip, s.cs, s.eflags, s.cpu.stack.sp, s.ss⟩

/- The handler is given the registers as they were. -/
def Presents (s : Interrupted) (stub : Stub) : Prop :=
  registersAt (s.atCall stub).stack.mem ((s.atCall stub).reg .rdi) = s.registers stub

instance (s : Interrupted) (stub : Stub) : Decidable (Presents s stub) :=
  inferInstanceAs (Decidable (_ = _))

/-! ### What is on the stack -/

/- The words the stub pushes after the frame of the processor. -/
def Stub.words (stub : Stub) : List UInt64 :=
  match stub with
  | .isr vector => if vector ∈ isrErr then [stub.vector] else [0, stub.vector]
  | .irq _ => [0, stub.vector]

theorem run_append (c : Processor) (code code' : List Instr) :
    c.run (code ++ code') = (c.run code).run code' := List.foldl_append

theorem run_entry (c : Processor) (stub : Stub) :
    c.run stub.entry = {c with stack := stub.words.foldl Stack.push c.stack} := by
  cases stub with
  | isr vector =>
    rw [Stub.entry, Stub.words]
    split
    · rfl
    · rfl
  | irq n => rfl

theorem run_push (c : Processor) (regs : List Reg) :
    c.run (regs.map .push) = {c with stack := (regs.map c.reg).foldl Stack.push c.stack} := by
  induction regs generalizing c with
  | nil => rfl
  | cons r regs ih => exact ih (c.step (.push r))

/- `PUSH_ALL` after the stub. -/
def Interrupted.pushed (s : Interrupted) (stub : Stub) : List UInt64 :=
  s.frame stub ++ (stub.words ++ pushAll.map s.cpu.reg)

def Interrupted.saved (s : Interrupted) (stub : Stub) : Stack UInt64 :=
  (s.pushed stub).foldl Stack.push {s.cpu.stack with sp := s.base}

theorem atCall_eq (s : Interrupted) (stub : Stub) : s.atCall stub =
    ⟨Function.update s.cpu.reg .rdi (s.saved stub).sp,
      {s.saved stub with sp := (s.saved stub).sp - 8}⟩ := by
  rw [Interrupted.atCall, run_append, run_entry, commonEntry, run_append, run_push,
    Interrupted.saved, Interrupted.pushed, List.foldl_append, List.foldl_append]
  rfl

/- But for vector 11 there is one word in the place of the error code. -/
theorem pushed_reverse {stub : Stub} (s : Interrupted) (h : stub ≠ .isr 11) :
    (s.pushed stub).reverse = popAll.map s.cpu.reg ++
      [stub.vector, if stub.pushesError then s.error else 0, s.rip, s.cs, s.eflags,
        s.cpu.stack.sp, s.ss] := by
  cases stub with
  | irq n => rfl
  | isr vector =>
    have hsame : ∀ vector : Fin 32, vector ≠ 11 → (vector ∈ isrErr ↔ vector ∈ errorVectors) := by
      decide
    have hvector : vector ≠ 11 := fun heq => h (heq ▸ rfl)
    have hiff := hsame vector hvector
    rw [Interrupted.pushed, Interrupted.frame, Stub.words, Stub.pushesError]
    by_cases herr : vector ∈ isrErr
    · rw [if_pos herr, decide_eq_true (hiff.mp herr)]
      rfl
    · rw [if_neg herr, decide_eq_false fun h => herr (hiff.mpr h)]
      rfl

theorem pushed_reverse_eleven (s : Interrupted) : (s.pushed (.isr 11)).reverse =
    popAll.map s.cpu.reg ++
      [11, 0, s.error, s.rip, s.cs, s.eflags, s.cpu.stack.sp, s.ss] := rfl

theorem length_pushed (s : Interrupted) (stub : Stub) :
    (s.pushed stub).length = if stub = .isr 11 then 23 else 22 := by
  rw [← List.length_reverse]
  by_cases h : stub = .isr 11
  · rw [if_pos h, h, pushed_reverse_eleven]
    rfl
  · rw [if_neg h, pushed_reverse s h]
    rfl

theorem holds_saved (s : Interrupted) (stub : Stub) :
    Holds (s.saved stub).mem (s.saved stub).sp (s.pushed stub).reverse := by
  have hroom : (s.pushed stub).length + ([] : List UInt64).length < 2 ^ 60 := by
    rw [length_pushed, List.length_nil]
    split <;> decide
  have hempty : Holds s.cpu.stack.mem s.base [] := trivial
  have h : Holds (s.saved stub).mem (s.saved stub).sp ((s.pushed stub).reverse ++ []) :=
    Holds.pushes (s := {s.cpu.stack with sp := s.base}) hempty (s.pushed stub) hroom
  rwa [List.append_nil] at h

/-! ### What the handler is given -/

theorem ofWords_congr {w w' : ℕ → UInt64} (h : ∀ i < 22, w i = w' i) :
    Registers.ofWords w = Registers.ofWords w' := by
  simp [Registers.ofWords, h]

theorem registersAt_of_holds {mem : UInt64 → UInt64} {a : UInt64} {ws : List UInt64}
    (h : Holds mem a ws) (hlen : 22 ≤ ws.length) :
    registersAt mem a = .ofWords (ws.getD · 0) := by
  refine ofWords_congr fun i hi => ?_
  have hin : i < ws.length := by omega
  rw [h.get hin, List.getD_eq_getElem _ _ hin]

theorem registersAt_atCall (s : Interrupted) (stub : Stub) :
    registersAt (s.atCall stub).stack.mem ((s.atCall stub).reg .rdi) =
      .ofWords ((s.pushed stub).reverse.getD · 0) := by
  have hlen : 22 ≤ (s.pushed stub).reverse.length := by
    rw [List.length_reverse, length_pushed]
    split <;> decide
  rw [atCall_eq]
  exact registersAt_of_holds (holds_saved s stub) hlen

/- The registers that are in each other's places are the same; `r8` is in its own. -/
structure Mirrored (c : Processor) : Prop where
  rax : c.reg .rax = c.reg .r15
  rbx : c.reg .rbx = c.reg .r14
  rcx : c.reg .rcx = c.reg .r13
  rdx : c.reg .rdx = c.reg .r12
  rsi : c.reg .rsi = c.reg .r11
  rdi : c.reg .rdi = c.reg .r10
  rbp : c.reg .rbp = c.reg .r9

/- A structure that begins with the registers the other way round is the right one if
the rest is. -/
theorem mirrored_iff {c : Processor} {intNo errCode rip cs eflags rsp ss : UInt64}
    {intNo' errCode' rip' cs' eflags' rsp' ss' : UInt64} :
    (⟨c.reg .rax, c.reg .rbx, c.reg .rcx, c.reg .rdx, c.reg .rsi, c.reg .rdi, c.reg .rbp, c.reg .r8,
      c.reg .r9, c.reg .r10, c.reg .r11, c.reg .r12, c.reg .r13, c.reg .r14, c.reg .r15,
      intNo, errCode, rip, cs, eflags, rsp, ss⟩ : Registers) =
    ⟨c.reg .r15, c.reg .r14, c.reg .r13, c.reg .r12, c.reg .r11, c.reg .r10, c.reg .r9, c.reg .r8,
      c.reg .rbp, c.reg .rdi, c.reg .rsi, c.reg .rdx, c.reg .rcx, c.reg .rbx, c.reg .rax,
      intNo', errCode', rip', cs', eflags', rsp', ss'⟩ ↔
    Mirrored c ∧ intNo = intNo' ∧ errCode = errCode' ∧ rip = rip' ∧ cs = cs' ∧ eflags = eflags' ∧
      rsp = rsp' ∧ ss = ss' := by
  rw [Registers.mk.injEq]
  constructor
  · intro ⟨hrax, hrbx, hrcx, hrdx, hrsi, hrdi, hrbp, _, _, _, _, _, _, _, _, hrest⟩
    exact ⟨⟨hrax, hrbx, hrcx, hrdx, hrsi, hrdi, hrbp⟩, hrest⟩
  · intro ⟨hm, hrest⟩
    exact ⟨hm.rax, hm.rbx, hm.rcx, hm.rdx, hm.rsi, hm.rdi, hm.rbp, rfl, hm.rbp.symm, hm.rdi.symm,
      hm.rsi.symm, hm.rdx.symm, hm.rcx.symm, hm.rbx.symm, hm.rax.symm, hrest⟩

/- All that the processor pushed is 0. -/
structure Interrupted.FrameZero (s : Interrupted) : Prop where
  error : s.error = 0
  rip : s.rip = 0
  cs : s.cs = 0
  eflags : s.eflags = 0
  rsp : s.cpu.stack.sp = 0
  ss : s.ss = 0

/- One word further on than the structure has it, the frame is right if it is all 0. -/
theorem frameZero_iff (s : Interrupted) : s.FrameZero ↔ 0 = s.error ∧ s.error = s.rip ∧
    s.rip = s.cs ∧ s.cs = s.eflags ∧ s.eflags = s.cpu.stack.sp ∧ s.cpu.stack.sp = s.ss := by
  constructor
  · intro ⟨herror, hrip, hcs, heflags, hrsp, hss⟩
    rw [herror, hrip, hcs, heflags, hrsp, hss]
    exact ⟨rfl, rfl, rfl, rfl, rfl, rfl⟩
  · intro ⟨herror, hrip, hcs, heflags, hrsp, hss⟩
    rw [← herror] at hrip
    rw [← hrip] at hcs
    rw [← hcs] at heflags
    rw [← heflags] at hrsp
    rw [← hrsp] at hss
    exact ⟨herror.symm, hrip.symm, hcs.symm, heflags.symm, hrsp.symm, hss.symm⟩

/-- The handler is given the registers as they were if and only if `rax` is `r15`, and
so on: the fields of `registers_t` are in the order of the pushes, the first at the
lowest address. For vector 11 the frame is one word further on as well. -/
theorem entry_presents_iff (s : Interrupted) (stub : Stub) :
    Presents s stub ↔ Mirrored s.cpu ∧ (stub = .isr 11 → s.FrameZero) := by
  have hgiven := registersAt_atCall s stub
  rw [Presents, Interrupted.registers]
  by_cases h : stub = .isr 11
  · have hwords : registersAt (s.atCall stub).stack.mem ((s.atCall stub).reg .rdi) =
        ⟨s.cpu.reg .rax, s.cpu.reg .rbx, s.cpu.reg .rcx, s.cpu.reg .rdx, s.cpu.reg .rsi,
          s.cpu.reg .rdi, s.cpu.reg .rbp, s.cpu.reg .r8, s.cpu.reg .r9, s.cpu.reg .r10,
          s.cpu.reg .r11, s.cpu.reg .r12, s.cpu.reg .r13, s.cpu.reg .r14, s.cpu.reg .r15, 11, 0,
          s.error, s.rip, s.cs, s.eflags, s.cpu.stack.sp⟩ := by
      rw [hgiven, h, pushed_reverse_eleven]
      rfl
    have herror : (if stub.pushesError then s.error else 0) = s.error := by rw [h]; rfl
    have hvector : 11 = stub.vector := by rw [h]; rfl
    rw [hwords, mirrored_iff, herror, frameZero_iff]
    exact ⟨fun hgood => ⟨hgood.1, fun _ => hgood.2.2⟩,
      fun hgood => ⟨hgood.1, hvector, hgood.2 h⟩⟩
  · have hwords : registersAt (s.atCall stub).stack.mem ((s.atCall stub).reg .rdi) =
        ⟨s.cpu.reg .rax, s.cpu.reg .rbx, s.cpu.reg .rcx, s.cpu.reg .rdx, s.cpu.reg .rsi,
          s.cpu.reg .rdi, s.cpu.reg .rbp, s.cpu.reg .r8, s.cpu.reg .r9, s.cpu.reg .r10,
          s.cpu.reg .r11, s.cpu.reg .r12, s.cpu.reg .r13, s.cpu.reg .r14, s.cpu.reg .r15,
          stub.vector, if stub.pushesError then s.error else 0, s.rip, s.cs, s.eflags,
          s.cpu.stack.sp, s.ss⟩ := by
      rw [hgiven, pushed_reverse s h]
      rfl
    rw [hwords, mirrored_iff]
    exact ⟨fun hgood => ⟨hgood.1, fun heq => absurd heq h⟩,
      fun hgood => ⟨hgood.1, rfl, rfl, rfl, rfl, rfl, rfl, rfl⟩⟩

/- A processor with 7 in `rax` and 0 in the other registers. -/
def sevenInRax : Interrupted :=
  ⟨⟨fun r => if r = .rax then 7 else 0, ⟨0x9000, fun _ => 0⟩⟩, 0x8000, 8, 0x202, 16, 0⟩

theorem timer_sees_r15 : ¬ Presents sevenInRax (.irq 0) := by decide

end CasseOS.Cpu
