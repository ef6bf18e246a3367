import CasseOS.Cpu.Pic

/-! # From the line to the handler (`cpu/isr.c`, `cpu/interrupt.asm`)

The controllers, the processor and `irq_handler` step by step, with requests that come,
and are withdrawn, between any two steps. The processor takes the vector in two
pulses, finds the stub through the table, and runs `irq_handler` with interrupts
off until `iretq`. -/

namespace CasseOS.Cpu
open Priority

/- Where the processor is. It is `running` the interrupted code, with interrupts on, or it has
seen the request, or it has given the first pulse, or it is inside `irq_handler`. -/
inductive CpuPhase where
  | running
  | recognized
  | acknowledged (n : Option (Fin 8))
  | eoiSlave (intNo : UInt64)
  | eoiMaster (intNo : UInt64)
  | dispatch (intNo : UInt64)
  | handling (intNo : UInt64)
  | stopped
deriving DecidableEq

structure IrqMachine (H : Type*) where
  pics : Pics
  idtReg : IdtRegister
  idt : Idt
  /-- `interrupt_handlers`. -/
  handlers : UInt8 → Option H
  phase : CpuPhase
  /-- `r->int_no` in each call of `irq_handler`. -/
  entered : List UInt64
  /-- The handlers called, with `r->int_no`. -/
  calls : List (H × UInt64)
  acks : List Ack
  /-- The edges that have set a latch, and the requests withdrawn. -/
  latched : List Line
  withdrawn : List Line

inductive InterruptAction (H : Type*) where
  | raise (l : Line)
  | withdraw (l : Line)
  | register (n : UInt8) (handler : H)
  | recognize
  | inta1
  | inta2 (s : Interrupted)
  | handler

variable {H : Type*}

/-- (`isr.c:138-140`) -/
def registerInterruptHandler (handlers : UInt8 → Option H) (n : UInt8) (handler : H) :
    UInt8 → Option H := Function.update handlers n (some handler)

/-- `irq_handler` (`isr.c:142-153`): the ends of interrupt, the call, and `iretq`. -/
def irqHandlerStep (m : IrqMachine H) : IrqMachine H :=
  match m.phase with
  | .eoiSlave intNo =>
    {m with
      pics := if 40 ≤ intNo then m.pics.out 0xA0 0x20 else m.pics
      phase := .eoiMaster intNo}
  | .eoiMaster intNo => {m with pics := m.pics.out 0x20 0x20, phase := .dispatch intNo}
  | .dispatch intNo =>
    if 256 ≤ intNo then {m with phase := .stopped}
    else
      match m.handlers intNo.toUInt8 with
      | none => {m with phase := .running}
      | some handler => {m with calls := m.calls ++ [(handler, intNo)], phase := .handling intNo}
  | .handling _ => {m with phase := .running}
  | _ => m

/- The processor goes through the gate. `isr_handler` does not return for an exception. -/
def takeVector (sym : Stub → UInt64) (s : Interrupted) (vector : UInt8) (m : IrqMachine H) :
    IrqMachine H :=
  match enter sym m.idtReg m.idt vector with
  | some (.irq n) =>
    let c := s.atCall (.irq n)
    let r := registersAt c.stack.mem (c.reg .rdi)
    {m with phase := .eoiSlave r.intNo, entered := m.entered ++ [r.intNo]}
  | _ => {m with phase := .stopped}

def interruptStep (sym : Stub → UInt64) (m : IrqMachine H) : InterruptAction H → IrqMachine H
  | .raise l =>
    {m with
      pics := m.pics.raise l
      latched := if (m.pics.raise l).pending l && !m.pics.pending l then m.latched ++ [l]
        else m.latched}
  | .withdraw l =>
    {m with
      pics := m.pics.withdraw l
      withdrawn := if m.pics.pending l then m.withdrawn ++ [l] else m.withdrawn}
  | .register n handler =>
    match m.phase with
    | .running | .handling _ =>
      {m with handlers := registerInterruptHandler m.handlers n handler}
    | _ => m
  | .recognize =>
    match m.phase with
    | .running => if m.pics.masterNext.isSome then {m with phase := .recognized} else m
    | _ => m
  | .inta1 =>
    match m.phase with
    | .recognized => {m with pics := m.pics.inta1.2, phase := .acknowledged m.pics.inta1.1}
    | _ => m
  | .inta2 s =>
    match m.phase with
    | .acknowledged n =>
      let (vector, ack, pics) := m.pics.inta2 n
      takeVector sym s vector {m with pics, acks := m.acks ++ ack.toList}
    | _ => m
  | .handler => irqHandlerStep m

def interruptRun (sym : Stub → UInt64) (m : IrqMachine H) (actions : List (InterruptAction H)) :
    IrqMachine H := actions.foldl (interruptStep sym) m

/-- After `isr_install` and `sti` (`isr.c:52-117`, `155-157`), from any table, controllers and
handlers. -/
def isrInstall (sym : Stub → UInt64) (base : UInt64) (idt : Idt) (pics : Pics)
    (handlers : UInt8 → Option H) : IrqMachine H :=
  ⟨pics.remap, setIdt base, installGates sym idt, handlers, .running, [], [], [], [], []⟩

/- The line of the 16 that is served. -/
def Ack.irq : Ack → Fin 16
  | .line (.master n) => ⟨n, by omega⟩
  | .line (.slave n) => ⟨n + 8, by omega⟩
  | .spuriousMaster => 7
  | .spuriousSlave => 15

def Ack.intNo (a : Ack) : UInt64 := (Stub.irq a.irq).vector

/- Acknowledged by the first pulse only, so far. -/
def CpuPhase.inFlight : CpuPhase → List Line
  | .acknowledged (some n) => if n = cascadeLine then [] else [.master n]
  | _ => []

/-! ### Nothing stays in service -/

/- One end of an interrupt is enough. -/
def Ends (isr : Fin 8 → Bool) : Prop := ∀ n, finish isr n = false

/- What is in service, by where the processor is. -/
def PhaseOk (ps : Pics) : CpuPhase → Prop
  | .running | .recognized | .handling _ => ps.Idle
  | .dispatch intNo => ps.Idle ∧ intNo < 256
  | .acknowledged n => (∀ k, ps.slave.isr k = false) ∧
      match n with
      | none => ∀ k, ps.master.isr k = false
      | some n => ps.master.isr = mark (fun _ => false) n
  | .eoiSlave intNo => (if 40 ≤ intNo then Ends ps.slave.isr else ∀ k, ps.slave.isr k = false) ∧
      Ends ps.master.isr ∧ intNo < 256
  | .eoiMaster intNo => (∀ k, ps.slave.isr k = false) ∧ Ends ps.master.isr ∧ intNo < 256
  | .stopped => False

structure IrqInv (sym : Stub → UInt64) (base : UInt64) (m : IrqMachine H) : Prop where
  remapped : m.pics.Remapped
  table : ∃ idt, m.idt = installGates sym idt
  idtReg : m.idtReg = setIdt base
  phase : PhaseOk m.pics m.phase
  entered : m.entered = m.acks.map Ack.intNo

theorem ends_idle {isr : Fin 8 → Bool} (h : ∀ n, isr n = false) : Ends isr := by
  rw [Ends, finish_idle h]
  exact h

theorem ends_mark {isr : Fin 8 → Bool} (h : ∀ n, isr n = false) (n : Fin 8) : Ends (mark isr n) := by
  rw [Ends, finish_mark h]
  exact h

/- A condition on what is in service is one on these two alone. -/
theorem PhaseOk.congr {ps ps' : Pics} {phase : CpuPhase} (h : PhaseOk ps phase)
    (hmaster : ps'.master.isr = ps.master.isr) (hslave : ps'.slave.isr = ps.slave.isr) :
    PhaseOk ps' phase := by
  have hidle : ps.Idle → ps'.Idle := fun hi => ⟨hmaster ▸ hi.master, hslave ▸ hi.slave⟩
  cases phase with
  | running => exact hidle h
  | recognized => exact hidle h
  | handling intNo => exact hidle h
  | dispatch intNo => exact ⟨hidle h.1, h.2⟩
  | stopped => exact h
  | acknowledged n =>
    cases n with
    | none => exact ⟨hslave ▸ h.1, hmaster ▸ h.2⟩
    | some n => exact ⟨hslave ▸ h.1, hmaster.trans h.2⟩
  | eoiSlave intNo =>
    rw [PhaseOk, hslave, hmaster]
    exact h
  | eoiMaster intNo =>
    rw [PhaseOk, hslave, hmaster]
    exact h

/-! ### What each operation of the controllers does -/
section Operations
variable {ps : Pics}

theorem out_master (ps : Pics) : ps.out 0x20 0x20 =
    {ps with master := {ps.master with isr := finish ps.master.isr}} := by
  have hcommand : ¬(0x20 : UInt8) &&& 0x10 ≠ 0 := by decide
  rw [Pics.out, if_pos rfl, Pic.command, if_neg hcommand, if_pos rfl]

theorem out_slave (ps : Pics) : ps.out 0xA0 0x20 =
    {ps with slave := {ps.slave with isr := finish ps.slave.isr}} := by
  have hcommand : ¬(0x20 : UInt8) &&& 0x10 ≠ 0 := by decide
  rw [Pics.out, if_neg (by decide), if_neg (by decide), if_pos rfl, Pic.command, if_neg hcommand,
    if_pos rfl]

/- A latch that is set or cleared changes nothing else. -/
structure SameButIrr (ps ps' : Pics) : Prop where
  master : ∃ irr, ps'.master = {ps.master with irr := irr}
  slave : ∃ irr, ps'.slave = {ps.slave with irr := irr}

theorem sameButIrr_raise (ps : Pics) (l : Line) : SameButIrr ps (ps.raise l) := by
  cases l with
  | master n =>
    rw [Pics.raise]
    split
    · exact ⟨⟨ps.master.irr, rfl⟩, ⟨ps.slave.irr, rfl⟩⟩
    · exact ⟨⟨mark ps.master.irr n, rfl⟩, ⟨ps.slave.irr, rfl⟩⟩
  | slave n => exact ⟨⟨ps.master.irr, rfl⟩, ⟨mark ps.slave.irr n, rfl⟩⟩

theorem sameButIrr_withdraw (ps : Pics) (l : Line) : SameButIrr ps (ps.withdraw l) := by
  cases l with
  | master n => exact ⟨⟨clear ps.master.irr n, rfl⟩, ⟨ps.slave.irr, rfl⟩⟩
  | slave n => exact ⟨⟨ps.master.irr, rfl⟩, ⟨clear ps.slave.irr n, rfl⟩⟩

theorem SameButIrr.remapped {ps' : Pics} (h : SameButIrr ps ps') (hps : ps.Remapped) :
    ps'.Remapped := by
  obtain ⟨⟨irr, hmaster⟩, irr', hslave⟩ := h
  constructor
  · rw [hmaster]
    exact ⟨hps.master.imr, hps.master.icw2, hps.master.icw3, hps.master.icw4⟩
  · rw [hslave]
    exact ⟨hps.slave.imr, hps.slave.icw2, hps.slave.icw3, hps.slave.icw4⟩

theorem SameButIrr.phaseOk {ps' : Pics} (h : SameButIrr ps ps') {phase : CpuPhase}
    (hps : PhaseOk ps phase) : PhaseOk ps' phase := by
  obtain ⟨⟨irr, hmaster⟩, irr', hslave⟩ := h
  exact hps.congr (by rw [hmaster]) (by rw [hslave])

theorem pending_raise (ps : Pics) {l l' : Line} (h : l ≠ l') :
    (ps.raise l).pending l' = ps.pending l' := by
  cases l with
  | master n =>
    rw [Pics.raise]
    split
    · rfl
    · cases l' with
      | slave k => rfl
      | master k =>
        have hne : k ≠ n := fun heq => h (congrArg Line.master heq.symm)
        exact congrArg (decide (k ≠ cascadeLine) && ·) (mark_of_ne ps.master.irr hne)
  | slave n =>
    cases l' with
    | master k => rfl
    | slave k => exact mark_of_ne ps.slave.irr fun heq => h (congrArg Line.slave heq.symm)

theorem pending_raise_self (ps : Pics) {l : Line} (h : ps.pending l = true) :
    (ps.raise l).pending l = true := by
  cases l with
  | master n =>
    rw [Pics.raise]
    split
    · exact h
    · rw [Pics.pending, Bool.and_eq_true] at h
      simp [Pics.pending, h.1]
  | slave n => exact mark_self ps.slave.irr n

theorem pending_withdraw (ps : Pics) {l l' : Line} (h : l ≠ l') :
    (ps.withdraw l).pending l' = ps.pending l' := by
  cases l with
  | master n =>
    cases l' with
    | slave k => rfl
    | master k =>
      have hne : k ≠ n := fun heq => h (congrArg Line.master heq.symm)
      exact congrArg (decide (k ≠ cascadeLine) && ·) (clear_of_ne ps.master.irr hne)
  | slave n =>
    cases l' with
    | master k => rfl
    | slave k => exact clear_of_ne ps.slave.irr fun heq => h (congrArg Line.slave heq.symm)

theorem pending_withdraw_self (ps : Pics) (l : Line) : (ps.withdraw l).pending l = false := by
  cases l with
  | master n => simp [Pics.withdraw, Pics.pending]
  | slave n => exact clear_self ps.slave.irr n

/- The requests that wait, counted. -/
def waiting (ps : Pics) (l : Line) : ℕ := if ps.pending l then 1 else 0

/- One more on the record under a condition. -/
theorem count_log (log : List Line) (c : Bool) (l l' : Line) :
    (if c then log ++ [l] else log).count l' = log.count l' + if l = l' ∧ c then 1 else 0 := by
  cases c with
  | false => simp
  | true => simp [List.count_singleton]

theorem waiting_raise (ps : Pics) (l l' : Line) : waiting (ps.raise l) l' = waiting ps l' +
    if l = l' ∧ ((ps.raise l).pending l && !ps.pending l) then 1 else 0 := by
  by_cases h : l = l'
  · subst h
    rw [waiting, waiting]
    cases hbefore : ps.pending l with
    | false => cases (ps.raise l).pending l <;> simp
    | true => simp [pending_raise_self ps hbefore]
  · simp [waiting, pending_raise ps h, h]

theorem waiting_withdraw (ps : Pics) (l l' : Line) : waiting ps l' = waiting (ps.withdraw l) l' +
    if l = l' ∧ ps.pending l then 1 else 0 := by
  by_cases h : l = l'
  · subst h
    simp [waiting, pending_withdraw_self]
  · simp [waiting, pending_withdraw ps h, h]

/-! ### The two pulses -/

/- The first pulse takes the request of a line of the first controller; that of a line of the
second waits for the second pulse. -/
structure Pulsed (ps : Pics) (n : Option (Fin 8)) (ps' : Pics) : Prop where
  remapped : ps'.Remapped
  phase : PhaseOk ps' (.acknowledged n)
  accounted : ∀ l, waiting ps l = waiting ps' l + (CpuPhase.acknowledged n).inFlight.count l
  slave : ps'.slave = ps.slave

theorem inta1_spec (h : ps.Remapped) (hidle : ps.Idle) :
    Pulsed ps ps.inta1.1 ps.inta1.2 ∧ ps.inta1.1 = ps.masterNext := by
  cases hnext : ps.masterNext with
  | none =>
    have hinta : ps.inta1 = (none, ps) := by rw [Pics.inta1, hnext]
    rw [hinta]
    exact ⟨⟨h, ⟨hidle.slave, hidle.master⟩, fun l => rfl, rfl⟩, rfl⟩
  | some n =>
    have hnone : ps.master.isr = fun _ => false := funext hidle.master
    have hinta : ps.inta1 = (some n, {ps with
        master := {ps.master with irr := clear ps.master.irr n, isr := mark (fun _ => false) n}}) := by
      rw [Pics.inta1, hnext]
      simp only [h.master.acknowledge, hnone]
    have hrequest : n ≠ cascadeLine → ps.master.irr n = true := by
      intro hn
      rw [masterNext_eq h hidle.master] at hnext
      have hfirst := highest_eq_some hnext
      rwa [if_neg hn] at hfirst
    rw [hinta]
    refine ⟨⟨⟨⟨h.master.imr, h.master.icw2, h.master.icw3, h.master.icw4⟩, h.slave⟩,
      ⟨hidle.slave, rfl⟩, fun l => ?_, rfl⟩, rfl⟩
    -- Only the latch of line `n` is cleared, as if it had been withdrawn.
    refine (waiting_withdraw ps (.master n) l).trans (congrArg _ ?_)
    rw [CpuPhase.inFlight]
    by_cases hn : n = cascadeLine
    · simp [Pics.pending, hn]
    · simp [Pics.pending, hn, hrequest hn, List.count_singleton]

/- The second pulse tells the processor the vector of what is acknowledged. -/
structure Answered (ps : Pics) (n : Option (Fin 8)) (ack : Ack) (ps' : Pics) : Prop where
  remapped : ps'.Remapped
  phase : PhaseOk ps' (.eoiSlave ack.intNo)
  accounted : ∀ l, waiting ps l + (CpuPhase.acknowledged n).inFlight.count l =
    waiting ps' l + if ack = .line l then 1 else 0
  genuine : n.isSome → (n = some cascadeLine → ps.slaveNext.isSome) → ∃ l, ack = .line l

theorem intNo_toNat (ack : Ack) : ack.intNo.toNat = ack.irq + 32 := vector_toNat (.irq ack.irq)

theorem intNo_ge (ack : Ack) : 40 ≤ ack.intNo ↔ 8 ≤ ack.irq.val := by
  rw [UInt64.le_iff_toNat_le, intNo_toNat]
  show 40 ≤ _ ↔ _
  omega

theorem intNo_lt (ack : Ack) : ack.intNo < 256 := by
  have hlt := ack.irq.isLt
  rw [UInt64.lt_iff_toNat_lt, intNo_toNat]
  show _ < 256
  omega

/- In service at the two controllers after the second pulse. -/
theorem phaseOk_master {ps : Pics} {ack : Ack} (hack : ack.irq.val < 8)
    (hslave : ∀ k, ps.slave.isr k = false) (hmaster : Ends ps.master.isr) :
    PhaseOk ps (.eoiSlave ack.intNo) := by
  have hlow : ¬40 ≤ ack.intNo := by
    rw [intNo_ge]
    omega
  rw [PhaseOk, if_neg hlow]
  exact ⟨hslave, hmaster, intNo_lt ack⟩

theorem phaseOk_slave {ps : Pics} {ack : Ack} (hack : 8 ≤ ack.irq.val)
    (hslave : Ends ps.slave.isr) (hmaster : Ends ps.master.isr) :
    PhaseOk ps (.eoiSlave ack.intNo) := by
  rw [PhaseOk, if_pos ((intNo_ge ack).mpr hack)]
  exact ⟨hslave, hmaster, intNo_lt ack⟩

theorem inta2_spec {n : Option (Fin 8)} (h : ps.Remapped) (hphase : PhaseOk ps (.acknowledged n)) :
    ∃ vector ack ps', ps.inta2 n = (vector, some ack, ps') ∧ vector.toNat = ack.irq + 32 ∧
      Answered ps n ack ps' := by
  obtain ⟨hslave, hmaster⟩ := hphase
  cases n with
  | none =>
    refine ⟨_, _, _, rfl, vector_master h.master (Fin.last 7), h,
      phaseOk_master (by decide) hslave (ends_idle hmaster), fun l => ?_, fun hn => by cases hn⟩
    rfl
  | some n =>
    have hends : Ends ps.master.isr := by
      rw [hmaster]
      exact ends_mark (fun _ => rfl) n
    by_cases hn : n = cascadeLine
    · subst hn
      rw [inta2_slave h]
      cases hnext : ps.slaveNext with
      | none =>
        exact ⟨_, _, _, rfl, vector_slave h.slave (Fin.last 7), h,
          phaseOk_slave (by decide) (ends_idle hslave) hends, fun l => rfl,
          fun _ hsome => absurd (hsome rfl) (by rw [hnext]; decide)⟩
      | some m =>
        have hrequest : ps.slave.irr m = true := by
          rw [slaveNext_eq h hslave] at hnext
          exact highest_eq_some hnext
        refine ⟨_, _, _, rfl, vector_slave h.slave m, ⟨h.master, ?_⟩,
          phaseOk_slave (Nat.le_add_left 8 m) ?_ hends, fun l => ?_, fun _ _ => ⟨_, rfl⟩⟩
        · rw [h.slave.acknowledge]
          exact ⟨h.slave.imr, h.slave.icw2, h.slave.icw3, h.slave.icw4⟩
        · rw [h.slave.acknowledge]
          exact ends_mark hslave m
        · refine (waiting_withdraw ps (.slave m) l).trans (congrArg _ ?_)
          simp [Pics.pending, hrequest]
    · rw [inta2_master h hn]
      refine ⟨_, _, _, rfl, vector_master h.master n, h, phaseOk_master n.isLt hslave hends,
        fun l => congrArg _ ?_, fun _ _ => ⟨_, rfl⟩⟩
      simp [CpuPhase.inFlight, hn, List.count_singleton]

end Operations

/-! ### Every step -/
section Steps
variable {sym : Stub → UInt64} {base : UInt64} {m : IrqMachine H}

/- What the requests come to: acknowledged, in between, withdrawn, or waiting. -/
def Balanced (m : IrqMachine H) : Prop := ∀ l, m.latched.count l =
  m.acks.count (.line l) + m.phase.inFlight.count l + m.withdrawn.count l + waiting m.pics l

/- The processor has got to `irq_handler`. -/
theorem takeVector_irq (hsym : Function.Injective sym) (h : IrqInv sym base m) (s : Interrupted)
    {vector : UInt8} {ack : Ack} (hvector : vector.toNat = ack.irq + 32) {pics : Pics} :
    takeVector sym s vector {m with pics, acks := m.acks ++ [ack]} =
      {m with
        pics := pics
        acks := m.acks ++ [ack]
        phase := .eoiSlave ack.intNo
        entered := m.entered ++ [ack.intNo]} := by
  obtain ⟨idt, hidt⟩ := h.table
  have henter : enter sym m.idtReg m.idt vector = some (.irq ack.irq) := by
    rw [h.idtReg, hidt]
    exact enter_installed hsym base idt hvector
  simp only [takeVector, henter, intNo_atCall]
  rfl

theorem inta2_step (hsym : Function.Injective sym) (h : IrqInv sym base m) (s : Interrupted)
    {n : Option (Fin 8)} (hphase : m.phase = .acknowledged n) :
    ∃ vector ack pics, m.pics.inta2 n = (vector, some ack, pics) ∧ Answered m.pics n ack pics ∧
      interruptStep sym m (.inta2 s) =
        {m with
          pics := pics
          acks := m.acks ++ [ack]
          phase := .eoiSlave ack.intNo
          entered := m.entered ++ [ack.intNo]} := by
  have hok := h.phase
  rw [hphase] at hok
  obtain ⟨vector, ack, pics, hinta, hvector, hanswer⟩ := inta2_spec h.remapped hok
  refine ⟨vector, ack, pics, hinta, hanswer, ?_⟩
  rw [interruptStep, hphase]
  simp only [hinta]
  exact takeVector_irq hsym h s hvector

/- All that a step can do. -/
inductive Transition (a : InterruptAction H) (m : IrqMachine H) : IrqMachine H → Prop where
  | refused : Transition a m m
  | raise (l : Line) (h : a = .raise l) : Transition a m
      {m with
        pics := m.pics.raise l
        latched := if (m.pics.raise l).pending l && !m.pics.pending l then m.latched ++ [l]
          else m.latched}
  | withdraw (l : Line) (h : a = .withdraw l) : Transition a m
      {m with
        pics := m.pics.withdraw l
        withdrawn := if m.pics.pending l then m.withdrawn ++ [l] else m.withdrawn}
  | register (n : UInt8) (handler : H) (h : a = .register n handler) : Transition a m
      {m with handlers := registerInterruptHandler m.handlers n handler}
  | recognize (h : m.phase = .running) (hsome : m.pics.masterNext.isSome) :
      Transition a m {m with phase := .recognized}
  | inta1 (h : m.phase = .recognized) :
      Transition a m {m with pics := m.pics.inta1.2, phase := .acknowledged m.pics.inta1.1}
  | inta2 {n : Option (Fin 8)} (h : m.phase = .acknowledged n) {ack : Ack} {pics : Pics}
      (hanswer : Answered m.pics n ack pics) : Transition a m
      {m with
        pics := pics
        acks := m.acks ++ [ack]
        phase := .eoiSlave ack.intNo
        entered := m.entered ++ [ack.intNo]}
  | eoiSlave {intNo : UInt64} (h : m.phase = .eoiSlave intNo) (hhigh : 40 ≤ intNo) : Transition a m
      {m with pics := m.pics.out 0xA0 0x20, phase := .eoiMaster intNo}
  | skipSlave {intNo : UInt64} (h : m.phase = .eoiSlave intNo) (hlow : ¬40 ≤ intNo) :
      Transition a m {m with phase := .eoiMaster intNo}
  | eoiMaster {intNo : UInt64} (h : m.phase = .eoiMaster intNo) : Transition a m
      {m with pics := m.pics.out 0x20 0x20, phase := .dispatch intNo}
  | unhandled {intNo : UInt64} (h : m.phase = .dispatch intNo)
      (hnone : m.handlers intNo.toUInt8 = none) : Transition a m {m with phase := .running}
  | call {intNo : UInt64} (h : m.phase = .dispatch intNo) {handler : H}
      (hsome : m.handlers intNo.toUInt8 = some handler) : Transition a m
      {m with calls := m.calls ++ [(handler, intNo)], phase := .handling intNo}
  | iretq {intNo : UInt64} (h : m.phase = .handling intNo) :
      Transition a m {m with phase := .running}

theorem transition_irqHandler (h : IrqInv sym base m) (a : InterruptAction H) :
    Transition a m (irqHandlerStep m) := by
  cases hphase : m.phase with
  | running | recognized | acknowledged | stopped =>
    have hsame : irqHandlerStep m = m := by rw [irqHandlerStep, hphase]
    rw [hsame]
    exact .refused
  | eoiSlave intNo =>
    simp only [irqHandlerStep, hphase]
    by_cases hhigh : 40 ≤ intNo
    · rw [if_pos hhigh]
      exact .eoiSlave hphase hhigh
    · rw [if_neg hhigh]
      exact .skipSlave hphase hhigh
  | eoiMaster intNo =>
    simp only [irqHandlerStep, hphase]
    exact .eoiMaster hphase
  | dispatch intNo =>
    have hlt := h.phase
    rw [hphase] at hlt
    simp only [irqHandlerStep, hphase]
    rw [if_neg (UInt64.not_le.mpr hlt.2)]
    cases hentry : m.handlers intNo.toUInt8 with
    | none => exact .unhandled hphase hentry
    | some handler => exact .call hphase hentry
  | handling intNo =>
    simp only [irqHandlerStep, hphase]
    exact .iretq hphase

theorem transition (hsym : Function.Injective sym) (h : IrqInv sym base m)
    (a : InterruptAction H) : Transition a m (interruptStep sym m a) := by
  cases a with
  | raise l => exact .raise l rfl
  | withdraw l => exact .withdraw l rfl
  | register n handler =>
    rw [interruptStep]
    split
    · exact .register n handler rfl
    · exact .register n handler rfl
    · exact .refused
  | recognize =>
    rw [interruptStep]
    split
    · next hphase =>
      split
      · next hsome => exact .recognize hphase hsome
      · exact .refused
    · exact .refused
  | inta1 =>
    rw [interruptStep]
    split
    · next hphase => exact .inta1 hphase
    · exact .refused
  | inta2 s =>
    cases hphase : m.phase with
    | acknowledged n =>
      obtain ⟨-, ack, pics, -, hanswer, hstep⟩ := inta2_step hsym h s hphase
      rw [hstep]
      exact .inta2 hphase hanswer
    | running | recognized | eoiSlave | eoiMaster | dispatch | handling | stopped =>
      have hsame : interruptStep sym m (.inta2 s) = m := by rw [interruptStep, hphase]
      rw [hsame]
      exact .refused
  | handler => exact transition_irqHandler h .handler

/- `irq_handler` ends the interrupt of every controller that has one in service, before it
calls the handler. -/
theorem IrqInv.transition {a : InterruptAction H} {m' : IrqMachine H} (h : IrqInv sym base m)
    (hstep : Transition a m m') : IrqInv sym base m' := by
  obtain ⟨hremapped, htable, hreg, hok, hentered⟩ := h
  cases hstep with
  | refused => exact ⟨hremapped, htable, hreg, hok, hentered⟩
  | raise l =>
    have hsame := sameButIrr_raise m.pics l
    exact ⟨hsame.remapped hremapped, htable, hreg, hsame.phaseOk hok, hentered⟩
  | withdraw l =>
    have hsame := sameButIrr_withdraw m.pics l
    exact ⟨hsame.remapped hremapped, htable, hreg, hsame.phaseOk hok, hentered⟩
  | register => exact ⟨hremapped, htable, hreg, hok, hentered⟩
  | recognize hphase =>
    rw [hphase] at hok
    exact ⟨hremapped, htable, hreg, hok, hentered⟩
  | inta1 hphase =>
    rw [hphase] at hok
    have hpulse := (inta1_spec hremapped hok).1
    exact ⟨hpulse.remapped, htable, hreg, hpulse.phase, hentered⟩
  | inta2 hphase hanswer =>
    exact ⟨hanswer.remapped, htable, hreg, hanswer.phase, by simp [hentered]⟩
  | eoiSlave hphase hhigh =>
    rw [hphase] at hok
    obtain ⟨hslave, hmaster, hlt⟩ := hok
    rw [if_pos hhigh] at hslave
    rw [out_slave]
    exact ⟨⟨hremapped.master, hremapped.slave.1, hremapped.slave.2, hremapped.slave.3,
      hremapped.slave.4⟩, htable, hreg, ⟨hslave, hmaster, hlt⟩, hentered⟩
  | skipSlave hphase hlow =>
    rw [hphase] at hok
    obtain ⟨hslave, hmaster, hlt⟩ := hok
    rw [if_neg hlow] at hslave
    exact ⟨hremapped, htable, hreg, ⟨hslave, hmaster, hlt⟩, hentered⟩
  | eoiMaster hphase =>
    rw [hphase] at hok
    obtain ⟨hslave, hmaster, hlt⟩ := hok
    rw [out_master]
    exact ⟨⟨⟨hremapped.master.1, hremapped.master.2, hremapped.master.3, hremapped.master.4⟩,
      hremapped.slave⟩, htable, hreg, ⟨⟨hmaster, hslave⟩, hlt⟩, hentered⟩
  | unhandled hphase =>
    rw [hphase] at hok
    exact ⟨hremapped, htable, hreg, hok.1, hentered⟩
  | call hphase =>
    rw [hphase] at hok
    exact ⟨hremapped, htable, hreg, hok.1, hentered⟩
  | iretq hphase =>
    rw [hphase] at hok
    exact ⟨hremapped, htable, hreg, hok, hentered⟩

/- The handlers and where the processor is do not matter to the balance, but for what is
acknowledged by the first pulse. -/
theorem Balanced.congr {m' : IrqMachine H} (h : Balanced m) (hacks : m'.acks = m.acks)
    (hlatched : m'.latched = m.latched) (hwithdrawn : m'.withdrawn = m.withdrawn)
    (hflight : m'.phase.inFlight = m.phase.inFlight)
    (hwaiting : ∀ l, waiting m'.pics l = waiting m.pics l) : Balanced m' := by
  intro l
  rw [hacks, hlatched, hwithdrawn, hflight, hwaiting]
  exact h l

theorem Balanced.transition {a : InterruptAction H} {m' : IrqMachine H} (hinv : IrqInv sym base m)
    (h : Balanced m) (hstep : Transition a m m') : Balanced m' := by
  cases hstep with
  | refused => exact h
  | raise l =>
    intro l'
    have hl := h l'
    simp only [count_log, waiting_raise]
    omega
  | withdraw l =>
    intro l'
    have hl := h l'
    have hwaiting := waiting_withdraw m.pics l l'
    simp only [count_log]
    omega
  | register => exact h.congr rfl rfl rfl rfl fun l => rfl
  | inta1 hphase =>
    have hidle := hinv.phase
    rw [hphase] at hidle
    intro l
    have hl := h l
    have hwaiting := (inta1_spec hinv.remapped hidle).1.accounted l
    have hnone : CpuPhase.recognized.inFlight.count l = 0 := rfl
    rw [hphase] at hl
    show m.latched.count l = m.acks.count (.line l) +
      (CpuPhase.acknowledged m.pics.inta1.1).inFlight.count l + m.withdrawn.count l +
      waiting m.pics.inta1.2 l
    omega
  | inta2 hphase hanswer =>
    intro l
    have hl := h l
    have hwaiting := hanswer.accounted l
    rw [hphase] at hl
    show m.latched.count l = (m.acks ++ [_]).count (Ack.line l) + 0 + m.withdrawn.count l +
      waiting _ l
    rw [List.count_append, List.count_singleton]
    simp only [beq_iff_eq]
    omega
  | eoiSlave hphase =>
    refine h.congr rfl rfl rfl (by rw [hphase]; rfl) fun l => ?_
    rw [out_slave]
    cases l <;> rfl
  | eoiMaster hphase =>
    refine h.congr rfl rfl rfl (by rw [hphase]; rfl) fun l => ?_
    rw [out_master]
    cases l <;> rfl
  | recognize hphase | skipSlave hphase | unhandled hphase | call hphase | iretq hphase =>
    exact h.congr rfl rfl rfl (by rw [hphase]; rfl) fun l => rfl

/-! ### Requests that are not withdrawn -/

/- While no line falls, a request that was seen is still there at each pulse. -/
def Seen (ps : Pics) : CpuPhase → Prop
  | .recognized => ps.masterNext.isSome
  | .acknowledged n => n.isSome ∧ (n = some cascadeLine → ps.slaveNext.isSome)
  | _ => True

def Steady (m : IrqMachine H) : Prop := Seen m.pics m.phase

theorem highest_isSome {p : Fin 8 → Bool} : (highest p).isSome ↔ ∃ i, p i = true := by
  rw [← not_iff_not, Bool.not_eq_true, Option.isSome_eq_false_iff, Option.isNone_iff_eq_none,
    highest_eq_none]
  simp

theorem mark_of_true {p : Fin 8 → Bool} (n : Fin 8) {i : Fin 8} (h : p i = true) :
    mark p n i = true := by
  by_cases hi : i = n
  · rw [hi, mark_self]
  · rw [mark_of_ne p hi, h]

theorem slave_irr_raise {ps : Pics} (l : Line) {i : Fin 8} (h : ps.slave.irr i = true) :
    (ps.raise l).slave.irr i = true := by
  cases l with
  | slave n => exact mark_of_true n h
  | master n =>
    rw [Pics.raise]
    split <;> exact h

theorem master_irr_raise {ps : Pics} (l : Line) {i : Fin 8} (h : ps.master.irr i = true) :
    (ps.raise l).master.irr i = true := by
  cases l with
  | slave n => exact h
  | master n =>
    rw [Pics.raise]
    split
    · exact h
    · exact mark_of_true n h

theorem slaveNext_raise {ps : Pics} (h : ps.Remapped) (hidle : ∀ n, ps.slave.isr n = false)
    (l : Line) (hsome : ps.slaveNext.isSome) : (ps.raise l).slaveNext.isSome := by
  have hsame := sameButIrr_raise ps l
  have hidle' : ∀ n, (ps.raise l).slave.isr n = false := by
    obtain ⟨-, irr, hslave⟩ := hsame
    rw [hslave]
    exact hidle
  rw [slaveNext_eq h hidle, highest_isSome] at hsome
  rw [slaveNext_eq (hsame.remapped h) hidle', highest_isSome]
  exact hsome.imp fun i hi => slave_irr_raise l hi

theorem masterNext_raise {ps : Pics} (h : ps.Remapped) (hidle : ps.Idle) (l : Line)
    (hsome : ps.masterNext.isSome) : (ps.raise l).masterNext.isSome := by
  have hsame := sameButIrr_raise ps l
  have hidle' : ∀ n, (ps.raise l).master.isr n = false := by
    obtain ⟨⟨irr, hmaster⟩, -⟩ := hsame
    rw [hmaster]
    exact hidle.master
  rw [masterNext_eq h hidle.master, highest_isSome] at hsome
  rw [masterNext_eq (hsame.remapped h) hidle', highest_isSome]
  obtain ⟨i, hi⟩ := hsome
  refine ⟨i, ?_⟩
  by_cases htwo : i = cascadeLine
  · rw [if_pos htwo] at hi ⊢
    exact slaveNext_raise h hidle.slave l hi
  · rw [if_neg htwo] at hi ⊢
    exact master_irr_raise l hi

theorem Steady.transition {a : InterruptAction H} {m' : IrqMachine H} (hinv : IrqInv sym base m)
    (h : Steady m) (ha : ∀ l, a ≠ .withdraw l) (hstep : Transition a m m') : Steady m' := by
  have hok := hinv.phase
  rw [Steady] at h
  cases hstep with
  | refused => exact h
  | withdraw l hl => exact absurd hl (ha l)
  | raise l =>
    show Seen (m.pics.raise l) m.phase
    cases hphase : m.phase with
    | recognized =>
      rw [hphase] at h hok
      exact masterNext_raise hinv.remapped hok l h
    | acknowledged n =>
      rw [hphase] at h hok
      exact ⟨h.1, fun hn => slaveNext_raise hinv.remapped hok.1 l (h.2 hn)⟩
    | running | eoiSlave | eoiMaster | dispatch | handling | stopped => trivial
  | register => exact h
  | recognize _ hsome => exact hsome
  | inta1 hphase =>
    rw [hphase] at h hok
    obtain ⟨hpulse, hfirst⟩ := inta1_spec hinv.remapped hok
    refine ⟨by rw [hfirst]; exact h, fun htwo => ?_⟩
    rw [hfirst, masterNext_eq hinv.remapped hok.master] at htwo
    have hrequest := highest_eq_some htwo
    rw [if_pos rfl] at hrequest
    rw [Pics.slaveNext, hpulse.slave]
    exact hrequest
  | inta2 | eoiSlave | skipSlave | eoiMaster | unhandled | call | iretq => trivial

end Steps

end CasseOS.Cpu
