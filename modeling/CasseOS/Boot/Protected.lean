import CasseOS.Lib.PageWalk
import CasseOS.Lib.SmallStep

/-! # From protected mode to long mode (`kernel/kernel-long-mode-transition.asm`)

The code as lists of instructions, on as much of the processor as they use: the
general registers, EFLAGS, memory by the byte, the control and the model specific
registers. A label stands for the code from there on; the calls at the ends of the
code, of `kernel_main` and of the printing routine of the boot sector, are where a
run of it stops. Of the flags that arithmetic changes, CF and ZF are here; nothing
reads the others. -/

namespace CasseOS.Boot
open Bytes PageWalk

inductive Reg where
  | eax | ecx | edx | ebx | esp | ebp | esi | edi
deriving DecidableEq

inductive Cr where
  | cr0 | cr3 | cr4
deriving DecidableEq

structure CpuidResult where
  eax : UInt32
  ebx : UInt32
  ecx : UInt32
  edx : UInt32

def bit32 (n : UInt32) : UInt32 := 1 <<< n

/- What the code asks the processor for. -/
structure Features where
  /-- The bits of EFLAGS that `popfd` changes, besides CF and ZF. -/
  flagMask : UInt32
  cpuid : UInt32 → CpuidResult

structure Machine where
  reg : Reg → UInt32
  eflags : UInt32
  mem : Memory
  cr : Cr → UInt32
  msr : UInt32 → UInt64
  gdtLimit : ℕ
  gdtBase : ℕ
  /-- The code segment is one of 64 bits. -/
  long : Bool

namespace Machine

def set (m : Machine) (r : Reg) (v : UInt32) : Machine := {m with reg := Function.update m.reg r v}

/-! ### Flags -/

def cfBit : UInt32 := bit32 0
def zfBit : UInt32 := bit32 6
def dfBit : UInt32 := bit32 10

/- The flags an arithmetic instruction leaves. -/
def arith (m : Machine) (cf zf : Bool) : Machine :=
  {m with eflags := (m.eflags &&& ~~~(cfBit ||| zfBit)) ||| (if cf then cfBit else 0) |||
    (if zf then zfBit else 0)}

def cf (m : Machine) : Bool := m.eflags &&& cfBit ≠ 0
def zf (m : Machine) : Bool := m.eflags &&& zfBit ≠ 0
def df (m : Machine) : Bool := m.eflags &&& dfBit ≠ 0

/-! ### Memory -/

def storeDword (m : Machine) (a v : UInt32) : Machine := {m with mem := Bytes.store 4 m.mem a.toNat v.toNat}

def loadDword (m : Machine) (a : UInt32) : UInt32 := UInt32.ofNat (load 4 m.mem a.toNat)

def push (m : Machine) (v : UInt32) : Machine :=
  (m.set .esp (m.reg .esp - 4)).storeDword (m.reg .esp - 4) v

def top (m : Machine) : UInt32 := m.loadDword (m.reg .esp)

def drop (m : Machine) : Machine := m.set .esp (m.reg .esp + 4)

def pop (m : Machine) (r : Reg) : Machine := m.drop.set r m.top

def efer : UInt32 := 0xC0000080

def paging (m : Machine) : Bool := m.cr .cr0 &&& bit32 31 ≠ 0

/- Paging with four levels: enabled in EFER, and with PAE. -/
def longMode (m : Machine) : Bool :=
  m.paging ∧ m.cr .cr4 &&& bit32 5 ≠ 0 ∧ m.msr efer &&& 0x100 ≠ 0

/- The byte at a linear address; paging with fewer levels is not here. -/
def linearByte (m : Machine) (a : ℕ) : Option UInt8 :=
  if m.paging then
    if m.longMode then (PageWalk.translate m.mem (m.cr .cr3).toNat a).map m.mem else none
  else some (m.mem a)

def linearLoad (m : Machine) : ℕ → ℕ → Option ℕ
  | 0, _ => some 0
  | n + 1, a => do
    let byte ← m.linearByte a
    let rest ← m.linearLoad n (a + 1)
    return byte.toNat + 256 * rest

end Machine

/-! ### Instructions -/

inductive Op where
  | pushad
  | popad
  | pushfd
  | popfd
  | push (r : Reg)
  | pop (r : Reg)
  | mov (r : Reg) (n : UInt32)
  | movReg (r s : Reg)
  | xor (r : Reg) (n : UInt32)
  | xorReg (r s : Reg)
  | or (r : Reg) (n : UInt32)
  | add (r : Reg) (n : UInt32)
  | cmp (r : Reg) (n : UInt32)
  | cmpReg (r s : Reg)
  | test (r : Reg) (n : UInt32)
  | store (r : Reg) (n : UInt32)
  | storeReg (r s : Reg)
  | repStosd
  | toCr (c : Cr) (r : Reg)
  | fromCr (r : Reg) (c : Cr)
  | cpuid
  | rdmsr
  | wrmsr

def flagsOp (m : Machine) (r : Reg) (v : UInt32) (cf : Bool) : Machine := (m.set r v).arith cf (v = 0)

/- The registers `pushad` pushes; in place of `esp` it pushes what it was before. -/
def pushOrder : List Reg := [.eax, .ecx, .edx, .ebx, .esp, .ebp, .esi, .edi]

def popUnlessEsp (m : Machine) (r : Reg) : Machine := if r = .esp then m.drop else m.pop r

/- One round of `rep stosd`. -/
def stosd (m : Machine) : Machine :=
  (m.storeDword (m.reg .edi) (m.reg .eax)).set .edi
    (if m.df then m.reg .edi - 4 else m.reg .edi + 4)

def exec (cpu : Features) (m : Machine) : Op → Machine
  | .pushad => (pushOrder.map m.reg).foldl Machine.push m
  | .popad => pushOrder.reverse.foldl popUnlessEsp m
  | .pushfd => m.push m.eflags
  | .popfd =>
    let mask := cpu.flagMask ||| Machine.cfBit ||| Machine.zfBit
    {m.drop with eflags := (m.eflags &&& ~~~mask) ||| (m.top &&& mask)}
  | .push r => m.push (m.reg r)
  | .pop r => m.pop r
  | .mov r n => m.set r n
  | .movReg r s => m.set r (m.reg s)
  | .xor r n => flagsOp m r (m.reg r ^^^ n) false
  | .xorReg r s => flagsOp m r (m.reg r ^^^ m.reg s) false
  | .or r n => flagsOp m r (m.reg r ||| n) false
  | .add r n => flagsOp m r (m.reg r + n) (m.reg r + n < n)
  | .cmp r n => m.arith (m.reg r < n) (m.reg r = n)
  | .cmpReg r s => m.arith (m.reg r < m.reg s) (m.reg r = m.reg s)
  | .test r n => m.arith false (m.reg r &&& n = 0)
  | .store r n => m.storeDword (m.reg r) n
  | .storeReg r s => m.storeDword (m.reg r) (m.reg s)
  | .repStosd => (stosd^[(m.reg .ecx).toNat] m).set .ecx 0
  | .toCr c r => {m with cr := Function.update m.cr c (m.reg r)}
  | .fromCr r c => m.set r (m.cr c)
  | .cpuid =>
    let result := cpu.cpuid (m.reg .eax)
    (((m.set .eax result.eax).set .ebx result.ebx).set .ecx result.ecx).set .edx result.edx
  | .rdmsr =>
    let v := m.msr (m.reg .ecx)
    (m.set .eax v.toUInt32).set .edx (v >>> 32).toUInt32
  | .wrmsr =>
    let v := (m.reg .edx).toUInt64 <<< 32 ||| (m.reg .eax).toUInt64
    {m with msr := Function.update m.msr (m.reg .ecx) v}

inductive Label where
  | start
  | pagingSetUp
  | addPageEntryProtected
  | elevateToLm
  | detectLmProtected
  | cpuidNotFoundProtected
  | lmNotFoundProtected
  | startKernel
deriving DecidableEq

def labels : List Label :=
  [.start, .pagingSetUp, .addPageEntryProtected, .elevateToLm, .detectLmProtected,
    .cpuidNotFoundProtected, .lmNotFoundProtected, .startKernel]

/- The code elsewhere. -/
inductive Outside where
  | printProtected
  | kernelMain
deriving DecidableEq

inductive Instr where
  | op (o : Op)
  | je (l : Label)
  | jb (l : Label)
  | loop (l : Label)
  /-- A call, with the label behind it. -/
  | call (l back : Label)
  | ret
  | lgdt (a : ℕ)
  | jmpFar (sel : ℕ) (l : Label)
  | callOut (f : Outside)

/- Where the linker has put the code and its data. -/
structure Image where
  label : Label → UInt32
  lmNotFoundStr : UInt32
  cpuidNotFoundStr : UInt32
  gdt64Start : ℕ

/- Behind the table, which has three entries. -/
def Image.gdt64Descriptor (im : Image) : ℕ := im.gdt64Start + 24

/-! ### The code -/

def pml4tAddr : UInt32 := 0x1000

/-- `kernel-long-mode-transition.asm:43-56`; `code_seg_64` is 8. -/
def elevateToLm (im : Image) : List Instr :=
  [.op (.mov .ecx Machine.efer), .op .rdmsr, .op (.or .eax (bit32 8)), .op .wrmsr,
    .op (.fromCr .eax .cr0), .op (.or .eax (bit32 31)), .op (.toCr .cr0 .eax),
    .lgdt im.gdt64Descriptor, .jmpFar 8 .startKernel]

/-- `kernel-long-mode-transition.asm:26-41`. -/
def addPageEntryProtected (im : Image) : List Instr :=
  [.op (.storeReg .edi .ebx), .op (.add .ebx 0x1000), .op (.add .edi 8),
    .loop .addPageEntryProtected,
    .op (.fromCr .eax .cr4), .op (.or .eax (bit32 5)), .op (.toCr .cr4 .eax)] ++ elevateToLm im

/-- `kernel-long-mode-transition.asm:2-24`. -/
def pagingSetUp (im : Image) : List Instr :=
  [.op (.mov .edi pml4tAddr), .op (.toCr .cr3 .edi), .op (.xorReg .eax .eax), .op .repStosd,
    .op (.fromCr .edi .cr3), .op (.store .edi 0x2003), .op (.add .edi 0x1000),
    .op (.store .edi 0x3003), .op (.add .edi 0x1000), .op (.store .edi 0x4003),
    .op (.mov .edi 0x4000), .op (.mov .ebx 3), .op (.mov .ecx 512)] ++ addPageEntryProtected im

/-- `kernel-long-mode-transition.asm:59-108`. -/
def detectLmProtected : List Instr :=
  [.op .pushad, .op .pushfd, .op (.pop .eax), .op (.movReg .ecx .eax), .op (.xor .eax (bit32 21)),
    .op (.push .eax), .op .popfd, .op .pushfd, .op (.pop .eax), .op (.push .ecx), .op .popfd,
    .op (.cmpReg .eax .ecx), .je .cpuidNotFoundProtected,
    .op (.mov .eax 0x80000000), .op .cpuid, .op (.cmp .eax 0x80000001), .jb .cpuidNotFoundProtected,
    .op (.mov .eax 0x80000001), .op .cpuid, .op (.test .edx (bit32 29)), .je .lmNotFoundProtected,
    .op .popad, .ret]

/- The errors (`kernel-long-mode-transition.asm:112-122`) and `start_kernel`
(`kernel_entry.asm:11-13`) hang after the call. -/
def program (im : Image) : Label → List Instr
  | .start => [.call .detectLmProtected .pagingSetUp]
  | .pagingSetUp => pagingSetUp im
  | .addPageEntryProtected => addPageEntryProtected im
  | .elevateToLm => elevateToLm im
  | .detectLmProtected => detectLmProtected
  | .cpuidNotFoundProtected => [.op (.mov .ebx im.cpuidNotFoundStr), .callOut .printProtected]
  | .lmNotFoundProtected => [.op (.mov .ebx im.lmNotFoundStr), .callOut .printProtected]
  | .startKernel => [.callOut .kernelMain]

/-! ### The table of segments -/

/- A descriptor with base 0, its fields as they are laid out. -/
def descriptorOf (limit flags1 flags2 : ℕ) : ℕ := limit + 2 ^ 40 * flags1 + 2 ^ 48 * flags2

/-- `kernel-long-mode-transition.asm:132-192`. -/
def gdt64 : List ℕ :=
  [0, descriptorOf 0xFFFF 0b10011010 0b10101111, descriptorOf 0 0b10010010 0b10100000]

/- A present descriptor of a code segment with the bit for 64 bits. -/
def isCode64 (descriptor : ℕ) : Bool :=
  descriptor / 2 ^ 43 % 2 = 1 ∧ descriptor / 2 ^ 44 % 2 = 1 ∧ descriptor / 2 ^ 47 % 2 = 1 ∧
    descriptor / 2 ^ 53 % 2 = 1 ∧ descriptor / 2 ^ 54 % 2 = 0

def Machine.descriptor (m : Machine) (sel : ℕ) : Option ℕ :=
  if sel + 7 ≤ m.gdtLimit then m.linearLoad 8 (m.gdtBase + sel) else none

structure Config where
  machine : Machine
  code : List Instr

def step (cpu : Features) (im : Image) : Config → Option Config
  | ⟨_, []⟩ => none
  | ⟨m, .op o :: code⟩ => some ⟨exec cpu m o, code⟩
  | ⟨m, .je l :: code⟩ => some ⟨m, if m.zf then program im l else code⟩
  | ⟨m, .jb l :: code⟩ => some ⟨m, if m.cf then program im l else code⟩
  | ⟨m, .loop l :: code⟩ =>
    let m := m.set .ecx (m.reg .ecx - 1)
    some ⟨m, if m.reg .ecx ≠ 0 then program im l else code⟩
  | ⟨m, .call l back :: _⟩ => some ⟨m.push (im.label back), program im l⟩
  | ⟨m, .ret :: _⟩ =>
    (labels.find? fun l => im.label l = m.top).map fun l => ⟨m.drop, program im l⟩
  | ⟨m, .lgdt a :: code⟩ => do
    let gdtLimit ← m.linearLoad 2 a
    let gdtBase ← m.linearLoad 4 (a + 2)
    return ⟨{m with gdtLimit, gdtBase}, code⟩
  | ⟨m, .jmpFar sel l :: _⟩ => do
    let descriptor ← m.descriptor sel
    if m.longMode ∧ isCode64 descriptor then some ⟨{m with long := true}, program im l⟩ else none
  | ⟨_, .callOut _ :: _⟩ => none

end CasseOS.Boot
