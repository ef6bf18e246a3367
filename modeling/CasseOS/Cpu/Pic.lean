import CasseOS.Cpu.Idt
import CasseOS.Lib.Priority

/-! # The interrupt controllers (`cpu/isr.c`)

Two 8259A: each latches the requests of its eight lines, masks them, lets the one of
the highest priority through, and keeps it in service until it is told the end of the
interrupt. The output of the second is line 2 of the first. The kernel gives them
the initialization of `isr_install` and the ends of interrupt of `irq_handler`. -/

namespace CasseOS.Cpu
open Priority

/- What a controller takes the next byte at its data port for. -/
inductive PicExpects where
  | mask
  | icw2
  | icw3
  | icw4
deriving DecidableEq

structure Pic where
  /-- Requests latched on an edge, until they are acknowledged or the line falls. -/
  irr : Fin 8 → Bool
  isr : Fin 8 → Bool
  imr : UInt8
  icw1 : UInt8
  icw2 : UInt8
  icw3 : UInt8
  icw4 : UInt8
  expects : PicExpects
deriving DecidableEq

/- A byte at the command port: the first of an initialization, or the end of an interrupt
that does not say of which. The kernel gives no other command. -/
def Pic.command (p : Pic) (b : UInt8) : Pic :=
  if b &&& 0x10 ≠ 0 then
    {p with
      irr := fun _ => false
      isr := fun _ => false
      imr := 0
      icw1 := b
      icw4 := 0
      expects := .icw2}
  else if b = 0x20 then {p with isr := finish p.isr}
  else p

/- After the third byte; there is a fourth if the first said so. -/
def Pic.afterIcw3 (p : Pic) : PicExpects := if p.icw1 &&& 1 = 0 then .mask else .icw4

/- A byte at the data port. There is no third one for a controller that is alone. -/
def Pic.data (p : Pic) (b : UInt8) : Pic :=
  match p.expects with
  | .mask => {p with imr := b}
  | .icw2 => {p with icw2 := b, expects := if p.icw1 &&& 2 = 0 then .icw3 else p.afterIcw3}
  | .icw3 => {p with icw3 := b, expects := p.afterIcw3}
  | .icw4 => {p with icw4 := b, expects := .mask}

def Pic.enabled (p : Pic) (n : Fin 8) : Bool := !p.imr.toNat.testBit n

/- The request is taken: it is in service, unless interrupts end by themselves. -/
def Pic.acknowledge (p : Pic) (n : Fin 8) : Pic :=
  {p with
    irr := clear p.irr n
    isr := if p.icw4 &&& 2 = 0 then mark p.isr n else p.isr}

def Pic.vector (p : Pic) (n : Fin 8) : UInt8 := (p.icw2 &&& 0xF8) ||| UInt8.ofNat n

/-! ### The two of them -/

theorem two_lt_eight : 2 < 8 := by decide

/- The line of the first controller that the second is on. -/
def cascadeLine : Fin 8 := ⟨2, two_lt_eight⟩

structure Pics where
  master : Pic
  slave : Pic
deriving DecidableEq

/- `port_byte_out`, as far as the controllers go. -/
def Pics.out (ps : Pics) (port : UInt16) (data : UInt8) : Pics :=
  if port = 0x20 then {ps with master := ps.master.command data}
  else if port = 0x21 then {ps with master := ps.master.data data}
  else if port = 0xA0 then {ps with slave := ps.slave.command data}
  else if port = 0xA1 then {ps with slave := ps.slave.data data}
  else ps

/- The remapping (`isr.c:86-96`). -/
def remapPic : List (UInt16 × UInt8) :=
  [(0x20, 0x11), (0xA0, 0x11), (0x21, 0x20), (0xA1, 0x28), (0x21, 0x04), (0xA1, 0x02),
    (0x21, 0x01), (0xA1, 0x01), (0x21, 0x0), (0xA1, 0x0)]

def Pics.remap (ps : Pics) : Pics := remapPic.foldl (fun ps w => ps.out w.1 w.2) ps

def Pics.slaveNext (ps : Pics) : Option (Fin 8) :=
  granted (fun n => ps.slave.irr n && ps.slave.enabled n) ps.slave.isr

/- The requests at the first controller; line 2 is the output of the second. -/
def Pics.masterRequests (ps : Pics) (n : Fin 8) : Bool :=
  (if n = cascadeLine then ps.slaveNext.isSome else ps.master.irr n) && ps.master.enabled n

def Pics.masterNext (ps : Pics) : Option (Fin 8) := granted ps.masterRequests ps.master.isr

/- The first pulse of the processor: the first controller settles which of its lines is
served. With no request left there is none. -/
def Pics.inta1 (ps : Pics) : Option (Fin 8) × Pics :=
  match ps.masterNext with
  | none => (none, ps)
  | some n => (some n, {ps with master := ps.master.acknowledge n})

/-! ### Lines -/

inductive Line where
  | master (n : Fin 8)
  | slave (n : Fin 8)
deriving DecidableEq

/- What is acknowledged. A controller that has no request left by then gives the vector
of its line 7. -/
inductive Ack where
  | line (l : Line)
  | spuriousMaster
  | spuriousSlave
deriving DecidableEq

/- The second pulse: the vector. If a second controller is on the line, the one whose number
it is answers; with no answer the bus reads all ones. -/
def Pics.inta2 (ps : Pics) (n : Option (Fin 8)) : UInt8 × Option Ack × Pics :=
  match n with
  | none => (ps.master.vector (Fin.last 7), some .spuriousMaster, ps)
  | some n =>
    if ps.master.icw3.toNat.testBit n then
      if ps.slave.icw3.toNat % 8 = n then
        match ps.slaveNext with
        | none => (ps.slave.vector (Fin.last 7), some .spuriousSlave, ps)
        | some m =>
          (ps.slave.vector m, some (.line (.slave m)), {ps with slave := ps.slave.acknowledge m})
      else (0xFF, none, ps)
    else (ps.master.vector n, some (.line (.master n)), ps)

def Pics.pending (ps : Pics) : Line → Bool
  | .master n => n ≠ cascadeLine && ps.master.irr n
  | .slave n => ps.slave.irr n

/- An edge on a line. Nothing is on line 2 but the second controller. -/
def Pics.raise (ps : Pics) : Line → Pics
  | .master n =>
    if n = cascadeLine then ps
    else {ps with master := {ps.master with irr := mark ps.master.irr n}}
  | .slave n => {ps with slave := {ps.slave with irr := mark ps.slave.irr n}}

/- The line falls before its request has been acknowledged. -/
def Pics.withdraw (ps : Pics) : Line → Pics
  | .master n => {ps with master := {ps.master with irr := clear ps.master.irr n}}
  | .slave n => {ps with slave := {ps.slave with irr := clear ps.slave.irr n}}

/-! ### After `isr_install` -/

/- As `isr_install` leaves a controller, but for the requests and what is in service. -/
structure Pic.Set (base cascade : UInt8) (p : Pic) : Prop where
  imr : p.imr = 0
  icw2 : p.icw2 = base
  icw3 : p.icw3 = cascade
  icw4 : p.icw4 = 1

structure Pics.Remapped (ps : Pics) : Prop where
  master : ps.master.Set 0x20 0x04
  slave : ps.slave.Set 0x28 0x02

/- Nothing is in service. -/
structure Pics.Idle (ps : Pics) : Prop where
  master : ∀ n, ps.master.isr n = false
  slave : ∀ n, ps.slave.isr n = false

/- One controller through its initialization, whatever it was told before. -/
theorem initialize_eq (p : Pic) (base cascade : UInt8) :
    ((((p.command 0x11).data base).data cascade).data 0x01).data 0x0 =
      ⟨fun _ => false, fun _ => false, 0, 0x11, base, cascade, 0x01, .mask⟩ := by
  have hfirst : (0x11 : UInt8) &&& 0x10 ≠ 0 := by decide
  have hcascade : (0x11 : UInt8) &&& 2 = 0 := by decide
  have hfourth : (0x11 : UInt8) &&& 1 ≠ 0 := by decide
  simp [Pic.command, Pic.data, Pic.afterIcw3, hfirst, hcascade, hfourth]

theorem remap_eq (ps : Pics) : ps.remap =
    ⟨⟨fun _ => false, fun _ => false, 0, 0x11, 0x20, 0x04, 0x01, .mask⟩,
      ⟨fun _ => false, fun _ => false, 0, 0x11, 0x28, 0x02, 0x01, .mask⟩⟩ := by
  rw [← initialize_eq ps.master, ← initialize_eq ps.slave]
  simp [Pics.remap, remapPic, Pics.out]

theorem remapped_remap (ps : Pics) : ps.remap.Remapped := by
  rw [remap_eq]
  exact ⟨⟨rfl, rfl, rfl, rfl⟩, ⟨rfl, rfl, rfl, rfl⟩⟩

theorem idle_remap (ps : Pics) : ps.remap.Idle := by
  rw [remap_eq]
  exact ⟨fun _ => rfl, fun _ => rfl⟩

/-! ### The two pulses -/
section Pulses
variable {p : Pic} {base cascade : UInt8} {ps : Pics}

theorem Pic.Set.enabled (h : p.Set base cascade) (n : Fin 8) : p.enabled n = true := by
  rw [Pic.enabled, h.imr]
  simp

/- A request that is taken is in service until the end of the interrupt. -/
theorem Pic.Set.acknowledge (h : p.Set base cascade) (n : Fin 8) : p.acknowledge n =
    {p with irr := clear p.irr n, isr := mark p.isr n} := by
  have hkept : p.icw4 &&& 2 = 0 := by
    rw [h.icw4]
    decide
  rw [Pic.acknowledge, if_pos hkept]

theorem vector_master (h : p.Set 0x20 cascade) (n : Fin 8) : (p.vector n).toNat = n + 32 := by
  rw [Pic.vector, h.icw2]
  revert n
  decide

theorem vector_slave (h : p.Set 0x28 cascade) (n : Fin 8) : (p.vector n).toNat = n + 40 := by
  rw [Pic.vector, h.icw2]
  revert n
  decide

theorem slaveNext_eq (h : ps.Remapped) (hidle : ∀ n, ps.slave.isr n = false) :
    ps.slaveNext = highest ps.slave.irr := by
  rw [Pics.slaveNext, granted_idle hidle]
  simp [h.slave.enabled]

theorem masterRequests_eq (h : ps.Remapped) (n : Fin 8) :
    ps.masterRequests n = if n = cascadeLine then ps.slaveNext.isSome else ps.master.irr n := by
  rw [Pics.masterRequests, h.master.enabled, Bool.and_true]

theorem masterNext_eq (h : ps.Remapped) (hidle : ∀ n, ps.master.isr n = false) :
    ps.masterNext = highest fun n => if n = cascadeLine then ps.slaveNext.isSome else ps.master.irr n := by
  rw [Pics.masterNext, granted_idle hidle]
  exact congrArg highest (funext (masterRequests_eq h))

/- The second controller is asked for line 2, and for no other. -/
theorem inta2_master (h : ps.Remapped) {n : Fin 8} (hn : n ≠ cascadeLine) :
    ps.inta2 (some n) = (ps.master.vector n, some (.line (.master n)), ps) := by
  have hbit : ∀ n : Fin 8, n ≠ cascadeLine → ¬(0x04 : UInt8).toNat.testBit n = true := by decide
  rw [Pics.inta2, h.master.icw3, if_neg (hbit n hn)]

theorem inta2_slave (h : ps.Remapped) : ps.inta2 (some cascadeLine) =
    match ps.slaveNext with
    | none => (ps.slave.vector (Fin.last 7), some .spuriousSlave, ps)
    | some m =>
      (ps.slave.vector m, some (.line (.slave m)), {ps with slave := ps.slave.acknowledge m}) := by
  have hbit : (0x04 : UInt8).toNat.testBit cascadeLine = true := by decide
  have hid : (0x02 : UInt8).toNat % 8 = cascadeLine := by decide
  rw [Pics.inta2, h.master.icw3, h.slave.icw3, if_pos hbit, if_pos hid]

end Pulses

end CasseOS.Cpu
