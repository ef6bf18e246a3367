import CasseOS.Cpu.Interrupt
import CasseOS.Lib.Loop

/-! # The interrupt descriptor table (`cpu/idt.c`, `cpu/isr.c`)

A gate has the address of its stub in three parts. The processor puts them together
again when it takes an interrupt, and goes to the stub. -/

namespace CasseOS.Cpu
open Loop

/- `idt_gate_t`. -/
structure IdtGate where
  lowOffset : UInt16
  sel : UInt16
  ist : UInt8
  typeAttr : UInt8
  midOffset : UInt16
  highOffset : UInt32
  zero : UInt32
deriving DecidableEq

def idtEntries : ℕ := 256

abbrev Idt := Fin idtEntries → IdtGate

def idtGate (handler : UInt64) : IdtGate where
  lowOffset := (handler &&& 0xFFFF).toUInt16
  midOffset := ((handler >>> 16) &&& 0xFFFF).toUInt16
  highOffset := ((handler >>> 32) &&& 0xFFFFFFFF).toUInt32
  sel := 0x08
  ist := 0
  typeAttr := 0x8E
  zero := 0

/-- (`idt.c:7-15`) -/
def setIdtGate (idt : Idt) (num : Fin idtEntries) (handler : UInt64) : Idt :=
  Function.update idt num (idtGate handler)

/- `idt_register_t`. -/
structure IdtRegister where
  limit : UInt16
  base : UInt64

/- `sizeof(idt_gate_t)`. -/
def sizeofIdtGate : ℕ := 2 + 2 + 1 + 1 + 2 + 4 + 4

/-- (`idt.c:17-22`), with the address of `idt`. -/
def setIdt (base : UInt64) : IdtRegister := ⟨UInt16.ofNat (idtEntries * sizeofIdtGate - 1), base⟩

/-! ### What `isr_install` puts in -/

theorem isr_lt_idtEntries (vector : Fin 32) : vector.val < idtEntries := by
  rw [idtEntries]
  omega

theorem irq_lt_idtEntries (n : Fin 16) : n.val + 32 < idtEntries := by
  rw [idtEntries]
  omega

/- The number of the gate a stub is put under. -/
def Stub.gate : Stub → Fin idtEntries
  | .isr vector => ⟨vector, isr_lt_idtEntries vector⟩
  | .irq n => ⟨n + 32, irq_lt_idtEntries n⟩

def isrStubs : List Stub := (List.finRange 32).map .isr
def irqStubs : List Stub := (List.finRange 16).map .irq
def stubs : List Stub := isrStubs ++ irqStubs

/-- The gates of `isr_install` (`isr.c:53-84`, `99-114`); `sym` gives the address of each
stub. -/
def installGates (sym : Stub → UInt64) (idt : Idt) : Idt :=
  stubs.foldl (fun idt stub => setIdtGate idt stub.gate (sym stub)) idt

/-! ### What the processor does with a gate -/

/- The address, from its three parts. -/
def IdtGate.offset (g : IdtGate) : UInt64 :=
  g.lowOffset.toUInt64 ||| g.midOffset.toUInt64 <<< 16 ||| g.highOffset.toUInt64 <<< 32

/- A present 64-bit interrupt gate of privilege level 0, into the code segment of the kernel,
on the stack that is in use. An interrupt gate clears `IF`. -/
def IdtGate.Usable (g : IdtGate) : Prop := g.typeAttr = 0x8E ∧ g.sel = 0x08 ∧ g.ist &&& 7 = 0

instance (g : IdtGate) : Decidable g.Usable := inferInstanceAs (Decidable (_ ∧ _))

/- All the bytes of the gate are inside the table. -/
def IdtRegister.Covers (r : IdtRegister) (vector : UInt8) : Prop :=
  sizeofIdtGate * vector.toNat + (sizeofIdtGate - 1) ≤ r.limit.toNat

instance (r : IdtRegister) (vector : UInt8) : Decidable (r.Covers vector) :=
  inferInstanceAs (Decidable (_ ≤ _))

def gateOf (idt : Idt) (vector : UInt8) : IdtGate := idt ⟨vector.toNat, vector.toNat_lt⟩

/- The stub at an address. -/
def stubAt (sym : Stub → UInt64) (a : UInt64) : Option Stub := stubs.find? fun stub => sym stub = a

/- The stub the processor gets to; there is none if the interrupt faults. -/
def enter (sym : Stub → UInt64) (r : IdtRegister) (idt : Idt) (vector : UInt8) : Option Stub :=
  if r.Covers vector ∧ (gateOf idt vector).Usable then stubAt sym (gateOf idt vector).offset
  else none

/-! ### Each vector leads to its stub -/

theorem mem_stubs (stub : Stub) : stub ∈ stubs := by
  cases stub with
  | isr vector => exact List.mem_append_left _ (List.mem_map_of_mem (List.mem_finRange vector))
  | irq n => exact List.mem_append_right _ (List.mem_map_of_mem (List.mem_finRange n))

theorem gate_injective : Function.Injective Stub.gate := by
  intro a b h
  have hval := congrArg Fin.val h
  cases a with
  | isr v =>
    cases b with
    | isr w => exact congrArg _ (Fin.ext hval)
    | irq n =>
      have hn : (v : ℕ) = n + 32 := hval
      omega
  | irq n =>
    cases b with
    | isr w =>
      have hn : (n : ℕ) + 32 = w := hval
      omega
    | irq m =>
      have hm : (n : ℕ) + 32 = m + 32 := hval
      exact congrArg _ (Fin.ext (by omega))

theorem installGates_gate (sym : Stub → UInt64) (idt : Idt) (stub : Stub) :
    installGates sym idt stub.gate = idtGate (sym stub) :=
  fill_key gate_injective (mem_stubs stub)

theorem installGates_other (sym : Stub → UInt64) (idt : Idt) {v : Fin idtEntries} (h : 48 ≤ v.val) :
    installGates sym idt v = idt v := by
  refine fill_other fun stub _ heq => ?_
  have hval := congrArg Fin.val heq
  cases stub with
  | isr w =>
    have hw : (w : ℕ) = v := hval
    omega
  | irq n =>
    have hn : (n : ℕ) + 32 = v := hval
    omega

/- The three parts are the whole address. -/
theorem join_parts (x : ℕ) :
    x % 65536 ||| (x / 65536 % 65536) <<< 16 ||| (x / 4294967296) <<< 32 = x := by
  have hlow : x % 65536 ||| (x / 65536 % 65536) <<< 16 = x % 4294967296 := by
    rw [Nat.or_comm, ← Nat.shiftLeft_add_eq_or_of_lt (by omega), Nat.shiftLeft_eq]
    omega
  rw [hlow, Nat.or_comm, ← Nat.shiftLeft_add_eq_or_of_lt (by omega), Nat.shiftLeft_eq]
  omega

theorem idtGate_offset (handler : UInt64) : (idtGate handler).offset = handler := by
  have hlt := handler.toNat_lt
  have hmask16 : ∀ n : ℕ, n &&& 65535 = n % 65536 := fun n => Nat.and_two_pow_sub_one_eq_mod n 16
  have hmask32 : ∀ n : ℕ, n &&& 4294967295 = n % 4294967296 := fun n =>
    Nat.and_two_pow_sub_one_eq_mod n 32
  have hmid : (handler.toNat / 65536 % 65536) <<< 16 % 18446744073709551616 =
      (handler.toNat / 65536 % 65536) <<< 16 := by
    refine Nat.mod_eq_of_lt ?_
    rw [Nat.shiftLeft_eq]
    omega
  have hhigh : (handler.toNat / 4294967296 % 4294967296) <<< 32 % 18446744073709551616 =
      (handler.toNat / 4294967296) <<< 32 := by
    rw [Nat.shiftLeft_eq, Nat.shiftLeft_eq]
    omega
  rw [← UInt64.toNat_inj, ← join_parts handler.toNat]
  simp [IdtGate.offset, idtGate, Nat.shiftRight_eq_div_pow, hmask16, hmask32, hmid, hhigh]

theorem stubAt_sym {sym : Stub → UInt64} (hsym : Function.Injective sym) (stub : Stub) :
    stubAt sym (sym stub) = some stub := by
  rw [stubAt]
  cases hfind : stubs.find? fun s => decide (sym s = sym stub) with
  | none =>
    have hnot := List.find?_eq_none.mp hfind stub (mem_stubs stub)
    simp at hnot
  | some found =>
    have hsame := List.find?_some hfind
    exact congrArg some (hsym (of_decide_eq_true hsame))

theorem covers_setIdt (base : UInt64) (vector : UInt8) : (setIdt base).Covers vector := by
  have hlimit : (setIdt base).limit.toNat = 4095 := rfl
  have hlt := vector.toNat_lt
  rw [IdtRegister.Covers, hlimit, sizeofIdtGate]
  omega

/- From whatever was in the table before, each vector of a stub leads to the stub. -/
theorem enter_installed {sym : Stub → UInt64} (hsym : Function.Injective sym) (base : UInt64)
    (idt : Idt) {vector : UInt8} {stub : Stub} (h : vector.toNat = stub.gate) :
    enter sym (setIdt base) (installGates sym idt) vector = some stub := by
  have hgate : gateOf (installGates sym idt) vector = idtGate (sym stub) := by
    rw [gateOf, ← installGates_gate sym idt stub]
    exact congrArg _ (Fin.ext h)
  have husable : (idtGate (sym stub)).Usable :=
    ⟨rfl, rfl, (by decide : (0 : UInt8) &&& 7 = 0)⟩
  rw [enter, hgate, if_pos ⟨covers_setIdt base vector, husable⟩, idtGate_offset, stubAt_sym hsym]

/- The handler in C is told the vector by the stub. -/
theorem intNo_atCall (s : Interrupted) (stub : Stub) :
    (registersAt (s.atCall stub).stack.mem ((s.atCall stub).reg .rdi)).intNo = stub.vector := by
  rw [registersAt_atCall]
  by_cases h : stub = .isr 11
  · rw [h, pushed_reverse_eleven]
    rfl
  · rw [pushed_reverse s h]
    rfl

theorem vector_toNat (stub : Stub) : stub.vector.toNat = stub.gate := by
  cases stub with
  | isr v =>
    have hv := v.isLt
    exact UInt64.toNat_ofNat_of_lt (by rw [UInt64.size]; omega)
  | irq n =>
    have hn := n.isLt
    have hof : (UInt64.ofNat n).toNat = n := UInt64.toNat_ofNat_of_lt (by rw [UInt64.size]; omega)
    rw [Stub.vector, UInt64.toNat_add, hof]
    show (n + 32) % 2 ^ 64 = (n : ℕ) + 32
    omega

end CasseOS.Cpu
