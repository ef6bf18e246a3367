import CasseOS.Cpu.IrqService

/-! # The timer (`cpu/timer.c`)

The counter on line 0 counts the cycles of its clock and asks for an interrupt at the
end of each period; the handler counts the interrupts, and `sleep_ticks` polls that
count. Between any two steps of the program the counter, other devices and the
interrupts go on. -/

namespace CasseOS.Cpu
open Priority

theorem zero_lt_eight : 0 < 8 := by decide

/- The line that the counter is on. -/
def timerLine : Line := .master ⟨0, zero_lt_eight⟩

/- The handlers the kernel registers. -/
inductive KernelHandler where
  | timerCallback
  | ps2Irq1Handler
  | uhciIrqTop
deriving DecidableEq

/-- `timer_callback` (`timer.c:10-13`); no other handler writes `tick`. -/
def tickAfter (tick : UInt64) : KernelHandler → UInt64
  | .timerCallback => tick + 1
  | _ => tick

/- Counter 0 of the interval timer in the mode of the control word 0x36: the low byte of the
count, then the high one. -/
structure Pit where
  low : Option UInt8
  reload : UInt16

/- A port of the timer. The kernel gives no other control word. -/
def Pit.out (p : Pit) (port : UInt16) (data : UInt8) : Pit :=
  if port = 0x43 then {p with low := none}
  else if port = 0x40 then
    match p.low with
    | none => {p with low := some data}
    | some low => ⟨none, low.toUInt16 ||| data.toUInt16 <<< 8⟩
  else p

/- A count of 0 is the longest one. -/
def Pit.period (p : Pit) : ℕ := if p.reload = 0 then 65536 else p.reload.toNat

def pitHz : UInt32 := 1193180

/- The divisor of `init_timer`, and the writes. -/
def timerDivisor (freq : UInt32) : UInt32 := pitHz / freq

def timerWrites (freq : UInt32) : List (UInt16 × UInt8) :=
  let divisor := timerDivisor freq
  let low := (divisor &&& 0xFF).toUInt8
  let high := ((divisor >>> 8) &&& 0xFF).toUInt8
  [(0x43, 0x36), (0x40, low), (0x40, high)]

/- What the interrupted code is at. -/
inductive TimerCode where
  | idle
  | programming (writes : List (UInt16 × UInt8))
  | polling (endTicks : UInt64)
deriving DecidableEq

structure TimerSystem where
  irq : IrqMachine KernelHandler
  tick : UInt64
  frequency : UInt32
  pit : Pit
  code : TimerCode
  /-- Cycles since the last edge. -/
  count : ℕ
  /-- Cycles counted, and edges, in all. -/
  cycles : ℕ
  edges : ℕ

inductive TimerAction where
  | cycle
  | interrupt (a : InterruptAction KernelHandler)
  | initTimer (freq : UInt32)
  | sleepTicks (ticks : UInt64)
  | sleepMs (milliseconds : UInt64)
  | step

/- A step of the interrupts, with what the handler that is called does. -/
def TimerSystem.interrupt (sym : Stub → UInt64) (s : TimerSystem)
    (a : InterruptAction KernelHandler) : TimerSystem :=
  let irq := interruptStep sym s.irq a
  {s with
    irq := irq
    tick := (irq.calls.drop s.irq.calls.length).foldl (fun tick c => tickAfter tick c.1) s.tick}

def TimerSystem.isProgramming (s : TimerSystem) : Bool :=
  match s.code with
  | .programming _ => true
  | _ => false

/- One cycle of the clock; the counter stands still while it is programmed. -/
def TimerSystem.cycle (sym : Stub → UInt64) (s : TimerSystem) : TimerSystem :=
  if s.isProgramming then s
  else if s.count + 1 < s.pit.period then {s with count := s.count + 1, cycles := s.cycles + 1}
  else
    {s.interrupt sym (.raise timerLine) with
      count := 0
      cycles := s.cycles + 1
      edges := s.edges + 1}

/- The next step of `init_timer`, or the next poll of `sleep_ticks` (`timer.c:40-42`). -/
def TimerSystem.codeStep (s : TimerSystem) : TimerSystem :=
  match s.code with
  | .idle => s
  | .programming [] => {s with code := .idle, count := 0}
  | .programming (w :: writes) => {s with pit := s.pit.out w.1 w.2, code := .programming writes}
  | .polling endTicks => if s.tick < endTicks then s else {s with code := .idle}

/-- `sleep_ticks` (`timer.c:36-43`), to the loop. -/
def sleepTicks (s : TimerSystem) (ticks : UInt64) : TimerSystem :=
  {s with code := .polling (s.tick + ticks)}

/-- (`timer.c:45-48`) -/
def sleepMs (s : TimerSystem) (milliseconds : UInt64) : TimerSystem :=
  sleepTicks s (milliseconds * s.frequency.toUInt64 / 1000)

/-- `init_timer` (`timer.c:15-30`), to the writes. -/
def initTimer (s : TimerSystem) (freq : UInt32) : TimerSystem :=
  {s with
    irq := {s.irq with handlers := registerInterruptHandler s.irq.handlers 32 .timerCallback}
    frequency := freq
    code := .programming (timerWrites freq)}

/- The program only goes on while no interrupt is being taken, and it does one thing at a time. -/
def TimerSystem.ready (s : TimerSystem) : Bool :=
  match s.irq.phase, s.code with
  | .running, .idle => true
  | _, _ => false

/- Only the counter is on line 0; its output may rise as it is programmed. Only `init_timer`
registers its handler. -/
def TimerSystem.allows (s : TimerSystem) : InterruptAction KernelHandler → Bool
  | .raise l => l ≠ timerLine || s.isProgramming
  | .register _ handler => handler ≠ .timerCallback
  | _ => true

def timerStep (sym : Stub → UInt64) (s : TimerSystem) : TimerAction → TimerSystem
  | .cycle => s.cycle sym
  | .interrupt a => if s.allows a then s.interrupt sym a else s
  | .initTimer freq => if s.ready && freq ≠ 0 then initTimer s freq else s
  | .sleepTicks ticks => if s.ready then sleepTicks s ticks else s
  | .sleepMs milliseconds => if s.ready then sleepMs s milliseconds else s
  | .step =>
    match s.irq.phase with
    | .running => s.codeStep
    | _ => s

def timerRun (sym : Stub → UInt64) (s : TimerSystem) (actions : List TimerAction) : TimerSystem :=
  actions.foldl (timerStep sym) s

/- At `sti`; no handler is registered, and the counter is as it was. -/
def timerStart (sym : Stub → UInt64) (base : UInt64) (idt : Idt) (pics : Pics) (pit : Pit) :
    TimerSystem :=
  ⟨isrInstall sym base idt pics fun _ => none, 0, 0, pit, .idle, 0, 0, 0⟩

/-! ### The period -/

/- The two bytes are the low half of the divisor. -/
theorem divisor_bytes (d : UInt32) : ((d &&& 0xFF).toUInt8.toUInt16 |||
    ((d >>> 8) &&& 0xFF).toUInt8.toUInt16 <<< 8).toNat = d.toNat % 65536 := by
  have hmask : ∀ n : ℕ, n &&& 255 = n % 256 := fun n => Nat.and_two_pow_sub_one_eq_mod n 8
  have hhigh : (d.toNat / 256 % 256) <<< 8 % 65536 = (d.toNat / 256 % 256) <<< 8 := by
    refine Nat.mod_eq_of_lt ?_
    rw [Nat.shiftLeft_eq]
    omega
  have hjoin : d.toNat % 256 ||| (d.toNat / 256 % 256) <<< 8 = d.toNat % 65536 := by
    rw [Nat.or_comm, ← Nat.shiftLeft_add_eq_or_of_lt (by omega), Nat.shiftLeft_eq]
    omega
  simp [Nat.shiftRight_eq_div_pow, hmask, hhigh, hjoin]

/- The counter after the three writes, whatever byte it waited for. -/
def programmed (pit : Pit) (freq : UInt32) : Pit :=
  (timerWrites freq).foldl (fun pit w => pit.out w.1 w.2) pit

theorem programmed_reload (pit : Pit) (freq : UInt32) :
    (programmed pit freq).reload.toNat = (timerDivisor freq).toNat % 65536 := by
  rw [← divisor_bytes]
  rfl

theorem timerDivisor_toNat (freq : UInt32) : (timerDivisor freq).toNat = 1193180 / freq.toNat :=
  UInt32.toNat_div ..

theorem period_eq (pit : Pit) : pit.period = if pit.reload.toNat = 0 then 65536 else pit.reload.toNat := by
  have hzero : pit.reload = 0 ↔ pit.reload.toNat = 0 := by
    rw [← UInt16.toNat_inj]
    rfl
  rw [Pit.period]
  exact if_congr hzero rfl rfl

/- The divisor has 16 bits, and is not 0, for 19 Hz and up to the rate of the clock. -/
theorem period_programmed_iff (pit : Pit) {freq : UInt32} (h : freq ≠ 0) :
    (programmed pit freq).period = 1193180 / freq.toNat ↔ 19 ≤ freq ∧ freq ≤ pitHz := by
  have hpos : 0 < freq.toNat := by
    rw [Nat.pos_iff_ne_zero]
    exact fun hzero => h (UInt32.toNat_inj.mp hzero)
  have hlow : 19 ≤ freq ↔ 19 ≤ freq.toNat := UInt32.le_iff_toNat_le
  have hhigh : freq ≤ pitHz ↔ freq.toNat ≤ 1193180 := UInt32.le_iff_toNat_le
  have hdiv : 19 ≤ freq.toNat ↔ 1193180 / freq.toNat < 65536 := by
    rw [Nat.div_lt_iff_lt_mul hpos]
    omega
  have hsome : freq.toNat ≤ 1193180 ↔ 0 < 1193180 / freq.toNat := by
    rw [Nat.div_pos_iff]
    omega
  -- No rate makes the divisor 65536, which the counter would take for 0 and count to.
  have hwrap : 1193180 / freq.toNat ≠ 65536 := by
    intro heq
    have hle := Nat.div_mul_le_self 1193180 freq.toNat
    have hlt := Nat.lt_div_mul_add (a := 1193180) hpos
    rw [heq] at hle hlt
    omega
  rw [hlow, hhigh, hdiv, hsome, period_eq, programmed_reload, timerDivisor_toNat]
  generalize 1193180 / freq.toNat = d at hwrap
  split <;> omega

/-! ### What a step of the interrupts does to one line and its handler -/
section Steps
variable {H : Type*} {sym : Stub → UInt64} {base : UInt64} {m m' : IrqMachine H}
  {a : InterruptAction H}

theorem calls_transition (hinv : IrqInv sym base m) (hstep : Transition a m m') :
    m'.calls = m.calls ∨ ∃ handler intNo, m'.calls = m.calls ++ [(handler, intNo)] ∧
      m.handlers intNo.toUInt8 = some handler ∧ intNo < 256 := by
  cases hstep with
  | call hphase hsome =>
    have hok := hinv.phase
    rw [hphase] at hok
    exact Or.inr ⟨_, _, rfl, hsome, hok.2⟩
  | refused | raise | withdraw | register | recognize | inta1 | inta2 | eoiSlave | skipSlave
  | eoiMaster | unhandled | iretq => exact Or.inl rfl

theorem handlers_transition (hstep : Transition a m m') : m'.handlers = m.handlers ∨
    ∃ n handler, a = .register n handler ∧
      m'.handlers = registerInterruptHandler m.handlers n handler := by
  cases hstep with
  | register n handler h => exact Or.inr ⟨n, handler, h, rfl⟩
  | refused | raise | withdraw | call | recognize | inta1 | inta2 | eoiSlave | skipSlave
  | eoiMaster | unhandled | iretq => exact Or.inl rfl

theorem latched_transition (l : Line) (hstep : Transition a m m') :
    m'.latched.count l ≤ m.latched.count l + 1 ∧
      (a ≠ .raise l → m'.latched.count l = m.latched.count l) := by
  cases hstep with
  | raise l' h =>
    rw [count_log]
    refine ⟨by split <;> omega, fun hne => ?_⟩
    have hl : l' ≠ l := fun heq => hne (h.trans (congrArg _ heq))
    simp [hl]
  | refused | register | withdraw | call | recognize | inta1 | inta2 | eoiSlave | skipSlave
  | eoiMaster | unhandled | iretq => exact ⟨Nat.le_succ _, fun _ => rfl⟩

end Steps

/-! ### What holds all along -/

/- The interrupts that have been counted. -/
def TimerSystem.ticks (s : TimerSystem) : ℕ := (s.irq.calls.map Prod.fst).count .timerCallback

/- The writes that `init_timer` has still to make. -/
def TimerCode.writes : TimerCode → List (UInt16 × UInt8)
  | .programming writes => writes
  | _ => []

structure TimerInv (sym : Stub → UInt64) (base : UInt64) (s : TimerSystem) : Prop where
  irq : IrqInv sym base s.irq
  registered : ∀ n, s.irq.handlers n = some .timerCallback → n = 32
  calls : ∀ c ∈ s.irq.calls, c.1 = .timerCallback → c.2 = 32
  count : s.isProgramming = false → s.count < s.pit.period
  rate : s.frequency ≠ 0 → (s.code.writes.foldl (fun pit w => pit.out w.1 w.2) s.pit).reload.toNat =
    (timerDivisor s.frequency).toNat % 65536

theorem period_pos (pit : Pit) : 0 < pit.period := by
  rw [period_eq]
  split <;> omega

section Inv
variable {sym : Stub → UInt64} {base : UInt64} {s : TimerSystem} {a : InterruptAction KernelHandler}

/- The number that the handler of an interrupt is told is that of its entry. -/
theorem intNo_of_entry {intNo : UInt64} (hlt : intNo < 256) (h : intNo.toUInt8 = 32) :
    intNo = 32 := by
  have hnat := congrArg UInt8.toNat h
  have hbyte : intNo.toNat < 2 ^ 8 := UInt64.lt_iff_toNat_lt.mp hlt
  rw [UInt64.toNat_toUInt8, Nat.mod_eq_of_lt hbyte] at hnat
  exact UInt64.toNat_inj.mp hnat

theorem TimerInv.interrupt (hsym : Function.Injective sym) (h : TimerInv sym base s)
    (ha : ∀ n, a ≠ .register n .timerCallback) : TimerInv sym base (s.interrupt sym a) := by
  have hstep := transition hsym h.irq a
  refine ⟨h.irq.transition hstep, ?_, ?_, h.count, h.rate⟩
  · rcases handlers_transition hstep with hsame | ⟨n, handler, hreg, hnew⟩
    · intro n hn
      exact h.registered n (hsame ▸ hn)
    · intro k hk
      have hother : handler ≠ .timerCallback := fun heq => ha n (heq ▸ hreg)
      have hentry := congrFun hnew k
      rw [registerInterruptHandler, Function.update_apply] at hentry
      have hfound : (interruptStep sym s.irq a).handlers k = some .timerCallback := hk
      rw [hfound] at hentry
      split at hentry
      · exact absurd (Option.some.inj hentry).symm hother
      · exact h.registered k hentry.symm
  · rcases calls_transition h.irq hstep with hsame | ⟨handler, intNo, hnew, hentry, hlt⟩
    · intro c hc
      exact h.calls c (hsame ▸ hc)
    · intro c hc htimer
      have hc' : c ∈ s.irq.calls ++ [(handler, intNo)] := hnew ▸ hc
      rcases List.mem_append.mp hc' with hold | hlast
      · exact h.calls c hold htimer
      · obtain rfl := List.mem_singleton.mp hlast
        obtain rfl : handler = .timerCallback := htimer
        exact intNo_of_entry hlt (h.registered _ hentry)

theorem TimerInv.cycle (hsym : Function.Injective sym) (h : TimerInv sym base s) :
    TimerInv sym base (s.cycle sym) := by
  rw [TimerSystem.cycle]
  split
  · exact h
  · split
    · next hshort => exact ⟨h.irq, h.registered, h.calls, fun _ => hshort, h.rate⟩
    · have hedge := h.interrupt hsym (a := .raise timerLine) (by simp)
      exact ⟨hedge.irq, hedge.registered, hedge.calls, fun _ => period_pos _, hedge.rate⟩

theorem TimerInv.codeStep (h : TimerInv sym base s) : TimerInv sym base s.codeStep := by
  obtain ⟨hirq, hregistered, hcalls, hcount, hrate⟩ := h
  cases hcode : s.code with
  | idle =>
    have hsame : s.codeStep = s := by rw [TimerSystem.codeStep, hcode]
    rw [hsame]
    exact ⟨hirq, hregistered, hcalls, hcount, hrate⟩
  | polling endTicks =>
    rw [hcode] at hrate
    simp only [TimerSystem.codeStep, hcode]
    have hquiet : s.isProgramming = false := by rw [TimerSystem.isProgramming, hcode]
    split
    · exact ⟨hirq, hregistered, hcalls, hcount, by rw [hcode]; exact hrate⟩
    · exact ⟨hirq, hregistered, hcalls, fun _ => hcount hquiet, hrate⟩
  | programming writes =>
    rw [hcode] at hrate
    cases writes with
    | nil =>
      simp only [TimerSystem.codeStep, hcode]
      exact ⟨hirq, hregistered, hcalls, fun _ => period_pos _, hrate⟩
    | cons w writes =>
      simp only [TimerSystem.codeStep, hcode]
      exact ⟨hirq, hregistered, hcalls, (fun hquiet => by cases hquiet), hrate⟩

theorem TimerInv.initTimer (h : TimerInv sym base s) (freq : UInt32) :
    TimerInv sym base (initTimer s freq) := by
  refine ⟨⟨h.irq.remapped, h.irq.table, h.irq.idtReg, h.irq.phase, h.irq.entered⟩, ?_, h.calls,
    (fun hquiet => by cases hquiet), fun _ => programmed_reload s.pit freq⟩
  intro n hn
  have hentry : registerInterruptHandler s.irq.handlers 32 .timerCallback n = some .timerCallback :=
    hn
  rw [registerInterruptHandler, Function.update_apply] at hentry
  split at hentry
  · next heq => exact heq
  · exact h.registered n hentry

theorem TimerInv.sleepTicks (h : TimerInv sym base s) (hcode : s.code = .idle) (ticks : UInt64) :
    TimerInv sym base (sleepTicks s ticks) := by
  have hquiet : s.isProgramming = false := by rw [TimerSystem.isProgramming, hcode]
  have hrate := h.rate
  rw [hcode] at hrate
  exact ⟨h.irq, h.registered, h.calls, fun _ => h.count hquiet, hrate⟩

theorem ready_iff : s.ready = true ↔ s.irq.phase = .running ∧ s.code = .idle := by
  rw [TimerSystem.ready]
  cases s.irq.phase <;> cases s.code <;> simp

theorem TimerInv.step (hsym : Function.Injective sym) (h : TimerInv sym base s) (a : TimerAction) :
    TimerInv sym base (timerStep sym s a) := by
  cases a with
  | cycle => exact h.cycle hsym
  | interrupt a =>
    rw [timerStep]
    split
    · next hallows =>
      refine h.interrupt hsym ?_
      rintro n rfl
      simp [TimerSystem.allows] at hallows
    · exact h
  | initTimer freq =>
    rw [timerStep]
    split
    · exact h.initTimer freq
    · exact h
  | sleepTicks ticks =>
    rw [timerStep]
    split
    · next hready => exact h.sleepTicks (ready_iff.mp hready).2 ticks
    · exact h
  | sleepMs milliseconds =>
    rw [timerStep]
    split
    · next hready => exact h.sleepTicks (ready_iff.mp hready).2 _
    · exact h
  | step =>
    rw [timerStep]
    split
    · exact h.codeStep
    · exact h

theorem timerInv_start (sym : Stub → UInt64) (base : UInt64) (idt : Idt) (pics : Pics) (pit : Pit) :
    TimerInv sym base (timerStart sym base idt pics pit) :=
  ⟨irqInv_isrInstall sym base idt pics _, (fun _ hn => by cases hn), (fun _ hc => by cases hc),
    fun _ => period_pos pit, fun hfreq => absurd rfl hfreq⟩

theorem TimerInv.run (hsym : Function.Injective sym) (h : TimerInv sym base s)
    (actions : List TimerAction) : TimerInv sym base (timerRun sym s actions) := by
  induction actions generalizing s with
  | nil => exact h
  | cons a actions ih => exact ih (h.step hsym a)

end Inv

/-! ### While the program sleeps -/

/- What goes on by itself. -/
def TimerAction.background : TimerAction → Bool
  | .cycle | .interrupt _ | .step => true
  | _ => false

/- From `s₀` to `s`, with no programming of the counter in between. -/
structure Since (s₀ s : TimerSystem) : Prop where
  quiet : s.isProgramming = false
  pit : s.pit = s₀.pit
  ticks : s₀.ticks ≤ s.ticks
  tick : s.tick = s₀.tick + UInt64.ofNat (s.ticks - s₀.ticks)
  /-- No tick without a request. -/
  debt : debt s₀.irq timerLine ≤ debt s.irq timerLine
  called : s.ticks + s₀.irq.called 32 ≤ s₀.ticks + s.irq.called 32
  /-- No request without an edge. -/
  latched : s.irq.latched.count timerLine + s₀.edges ≤ s₀.irq.latched.count timerLine + s.edges
  /-- No edge without a period. -/
  cycles : s.edges * s₀.pit.period + s.count + s₀.cycles =
    s₀.edges * s₀.pit.period + s₀.count + s.cycles

section Since
variable {sym : Stub → UInt64} {base : UInt64} {s s' s₀ : TimerSystem}

theorem Since.refl (h : s.isProgramming = false) : Since s s :=
  ⟨h, rfl, le_rfl, by simp, le_rfl, le_rfl, le_rfl, rfl⟩

theorem Since.trans (h : Since s₀ s) (h' : Since s s') : Since s₀ s' := by
  have htick : s'.ticks - s₀.ticks = (s.ticks - s₀.ticks) + (s'.ticks - s.ticks) := by
    have hle := h.ticks
    have hle' := h'.ticks
    omega
  have hcalled := h.called
  have hcalled' := h'.called
  have hlatched := h.latched
  have hlatched' := h'.latched
  have hcycles := h.cycles
  have hcycles' := h'.cycles
  rw [h.pit] at hcycles'
  refine ⟨h'.quiet, h'.pit.trans h.pit, h.ticks.trans h'.ticks, ?_, h.debt.trans h'.debt,
    by omega, by omega, by omega⟩
  rw [h'.tick, h.tick, htick, UInt64.ofNat_add, UInt64.add_assoc]

theorem plain_timer (m : IrqMachine KernelHandler) : Plain m timerLine := by
  intro n ack pics _ _ hsame
  have hirq := congrArg UInt64.toNat hsame
  rw [Line.intNo, intNo_toNat, intNo_toNat] at hirq
  have hzero : ack.irq.val = 0 := Nat.add_right_cancel hirq
  cases ack with
  | spuriousMaster => cases hzero
  | spuriousSlave => cases hzero
  | line l =>
    cases l with
    | master k => exact congrArg (fun k => Ack.line (.master k)) (Fin.ext hzero)
    | slave k => cases hzero

/- A step of the interrupts calls the handler of the timer at most once, and then with the
number of its line. -/
theorem interrupt_counts (hsym : Function.Injective sym) (h : TimerInv sym base s)
    (a : InterruptAction KernelHandler) :
    s.ticks ≤ (s.interrupt sym a).ticks ∧
      (s.interrupt sym a).tick = s.tick + UInt64.ofNat ((s.interrupt sym a).ticks - s.ticks) ∧
      (s.interrupt sym a).ticks + s.irq.called 32 ≤
        s.ticks + (s.interrupt sym a).irq.called 32 := by
  have hstep := transition hsym h.irq a
  rcases calls_transition h.irq hstep with hsame | ⟨handler, intNo, hnew, hentry, hlt⟩
  · have hticks : (s.interrupt sym a).ticks = s.ticks := by
      rw [TimerSystem.ticks, TimerSystem.ticks]
      exact congrArg (fun calls => (calls.map Prod.fst).count KernelHandler.timerCallback) hsame
    have hcalled : (s.interrupt sym a).irq.called 32 = s.irq.called 32 :=
      congrArg (fun calls => (calls.map Prod.snd).count 32) hsame
    have htick : (s.interrupt sym a).tick = s.tick := by
      rw [TimerSystem.interrupt]
      simp only [hsame, List.drop_length, List.foldl_nil]
    rw [hticks, hcalled, htick]
    simp
  · have hticks : (s.interrupt sym a).ticks = s.ticks + [handler].count .timerCallback := by
      rw [TimerSystem.ticks, TimerSystem.ticks, TimerSystem.interrupt]
      simp only [hnew, List.map_append, List.count_append, List.map_cons, List.map_nil]
    have hcalled : (s.interrupt sym a).irq.called 32 = s.irq.called 32 + [intNo].count 32 := by
      rw [IrqMachine.called, IrqMachine.called, TimerSystem.interrupt]
      simp only [hnew, List.map_append, List.count_append, List.map_cons, List.map_nil]
    have htick : (s.interrupt sym a).tick = tickAfter s.tick handler := by
      rw [TimerSystem.interrupt]
      simp only [hnew, List.drop_left, List.foldl_cons, List.foldl_nil]
    rw [hticks, hcalled, htick]
    cases handler with
    | timerCallback =>
      have hintNo : intNo = 32 := intNo_of_entry hlt (h.registered _ hentry)
      rw [hintNo]
      simp [tickAfter]
      omega
    | ps2Irq1Handler | uhciIrqTop => simp [tickAfter]

theorem since_interrupt (hsym : Function.Injective sym) (h : TimerInv sym base s)
    (hquiet : s.isProgramming = false) {a : InterruptAction KernelHandler}
    (ha : a ≠ .raise timerLine) : Since s (s.interrupt sym a) := by
  have hstep := transition hsym h.irq a
  obtain ⟨hticks, htick, hcalled⟩ := interrupt_counts hsym h a
  have hlatched := (latched_transition timerLine hstep).2 ha
  exact ⟨hquiet, rfl, hticks, htick, (debt_transition h.irq (plain_timer s.irq) hstep).1, hcalled,
    Nat.add_le_add_right hlatched.le s.edges, rfl⟩

theorem since_cycle (hsym : Function.Injective sym) (h : TimerInv sym base s)
    (hquiet : s.isProgramming = false) : Since s (s.cycle sym) := by
  rw [TimerSystem.cycle, if_neg (by rw [hquiet]; exact Bool.false_ne_true)]
  split
  · next hshort =>
    exact ⟨hquiet, rfl, le_rfl, by simp [TimerSystem.ticks], le_rfl, le_rfl, le_rfl, by simp; omega⟩
  · next hend =>
    have hstep := transition hsym h.irq (.raise timerLine)
    obtain ⟨hticks, htick, hcalled⟩ := interrupt_counts hsym h (.raise timerLine)
    have hlatched := (latched_transition timerLine hstep).1
    have hcount := h.count hquiet
    refine ⟨hquiet, rfl, hticks, htick, (debt_transition h.irq (plain_timer s.irq) hstep).1, hcalled,
      ?_, ?_⟩
    · show (interruptStep sym s.irq (.raise timerLine)).latched.count timerLine + s.edges ≤
        s.irq.latched.count timerLine + (s.edges + 1)
      omega
    · show (s.edges + 1) * s.pit.period + 0 + s.cycles =
        s.edges * s.pit.period + s.count + (s.cycles + 1)
      rw [Nat.succ_mul]
      omega

theorem since_codeStep (hquiet : s.isProgramming = false) : Since s s.codeStep := by
  cases hcode : s.code with
  | idle =>
    have hsame : s.codeStep = s := by rw [TimerSystem.codeStep, hcode]
    rw [hsame]
    exact Since.refl hquiet
  | polling endTicks =>
    simp only [TimerSystem.codeStep, hcode]
    split
    · exact Since.refl hquiet
    · exact ⟨rfl, rfl, le_rfl, by simp [TimerSystem.ticks], le_rfl, le_rfl, le_rfl, rfl⟩
  | programming writes =>
    rw [TimerSystem.isProgramming, hcode] at hquiet
    cases hquiet

theorem since_step (hsym : Function.Injective sym) (h : TimerInv sym base s)
    (hquiet : s.isProgramming = false) {a : TimerAction} (ha : a.background = true) :
    Since s (timerStep sym s a) := by
  cases a with
  | cycle => exact since_cycle hsym h hquiet
  | interrupt a =>
    rw [timerStep]
    split
    · next hallows =>
      refine since_interrupt hsym h hquiet ?_
      rintro rfl
      simp [TimerSystem.allows, timerLine, hquiet] at hallows
    · exact Since.refl hquiet
  | step =>
    rw [timerStep]
    split
    · exact since_codeStep hquiet
    · exact Since.refl hquiet
  | initTimer | sleepTicks | sleepMs => cases ha

theorem since_run (hsym : Function.Injective sym) (h : TimerInv sym base s)
    (hquiet : s.isProgramming = false) {actions : List TimerAction}
    (ha : ∀ a ∈ actions, a.background = true) : Since s (timerRun sym s actions) := by
  induction actions generalizing s with
  | nil => exact Since.refl hquiet
  | cons a actions ih =>
    have hfirst := since_step hsym h hquiet (ha a List.mem_cons_self)
    exact hfirst.trans (ih (h.step hsym a) hfirst.quiet fun b hb => ha b (List.mem_cons_of_mem a hb))

/- What the requests, the edges and the cycles have to be for as many ticks. -/
theorem Since.elapsed (h : Since s₀ s) (hcount : s₀.count < s₀.pit.period)
    (hrunning : s₀.irq.phase = .running) :
    (s.ticks - s₀.ticks - 1) * s₀.pit.period < s.cycles - s₀.cycles + s₀.pit.period := by
  by_cases hfew : s.ticks - s₀.ticks - 1 = 0
  · rw [hfew, Nat.zero_mul]
    omega
  · have hdebt := h.debt
    have hcalled := h.called
    have hlatched := h.latched
    have hcycles := h.cycles
    have hway : s₀.irq.onTheirWay timerLine ≤ 1 := by
      rw [IrqMachine.onTheirWay, hrunning, waiting]
      simp only [CpuPhase.inFlight, CpuPhase.entering, List.count_nil]
      split <;> omega
    have hnumber : timerLine.intNo = 32 := rfl
    simp only [Cpu.debt, hnumber] at hdebt
    obtain ⟨more, hedges⟩ : ∃ more, s.edges = s₀.edges + (s.ticks - s₀.ticks - 1) + more :=
      ⟨s.edges - (s₀.edges + (s.ticks - s₀.ticks - 1)), by omega⟩
    rw [hedges, Nat.add_mul, Nat.add_mul] at hcycles
    omega

/- In the loop, or out of it with enough ticks counted. -/
def Dozing (s₀ : TimerSystem) (ticks : UInt64) (s : TimerSystem) : Prop :=
  s.code = .polling (s₀.tick + ticks) ∨ s.code = .idle ∧ ticks.toNat ≤ s.ticks - s₀.ticks

/- While the count does not wrap around, it is at the end exactly when there are enough ticks. -/
theorem Since.due_iff (h : Since s₀ s) {ticks : UInt64} (hroom : s₀.tick.toNat + ticks.toNat < 2 ^ 64)
    (hcount : s₀.tick.toNat + (s.ticks - s₀.ticks) < 2 ^ 64) :
    s₀.tick + ticks ≤ s.tick ↔ ticks.toNat ≤ s.ticks - s₀.ticks := by
  rw [UInt64.le_iff_toNat_le, h.tick, UInt64.toNat_add, UInt64.toNat_add, UInt64.toNat_ofNat']
  omega

theorem dozing_step (h : Since s₀ s) {ticks : UInt64}
    (hroom : s₀.tick.toNat + ticks.toNat < 2 ^ 64) (hdozing : Dozing s₀ ticks s) {a : TimerAction}
    (ha : a.background = true) (hstep : Since s (timerStep sym s a)) :
    Dozing s₀ ticks (timerStep sym s a) := by
  have hmore := hstep.ticks
  have hkept : (timerStep sym s a).code = s.code → Dozing s₀ ticks (timerStep sym s a) := by
    intro hcode
    rw [Dozing, hcode]
    exact hdozing.imp id fun hidle => ⟨hidle.1, by omega⟩
  cases a with
  | cycle =>
    apply hkept
    rw [timerStep, TimerSystem.cycle]
    split
    · rfl
    · split <;> rfl
  | interrupt a =>
    apply hkept
    rw [timerStep]
    split <;> rfl
  | step =>
    rw [timerStep] at hmore hkept ⊢
    split
    · rcases hdozing with hpolling | ⟨hidle, henough⟩
      · simp only [TimerSystem.codeStep, hpolling]
        split
        · exact Or.inl hpolling
        · next hdue =>
          refine Or.inr ⟨rfl, ?_⟩
          show ticks.toNat ≤ s.ticks - s₀.ticks
          by_contra hfew
          exact hfew ((h.due_iff hroom (by omega)).mp (UInt64.not_lt.mp hdue))
      · have hsame : s.codeStep = s := by rw [TimerSystem.codeStep, hidle]
        rw [hsame]
        exact Or.inr ⟨hidle, henough⟩
    · exact hdozing
  | initTimer | sleepTicks | sleepMs => cases ha

theorem dozing_run (hsym : Function.Injective sym) (hinv : TimerInv sym base s) (h : Since s₀ s)
    {ticks : UInt64} (hroom : s₀.tick.toNat + ticks.toNat < 2 ^ 64) (hdozing : Dozing s₀ ticks s)
    {actions : List TimerAction} (ha : ∀ a ∈ actions, a.background = true) :
    Dozing s₀ ticks (timerRun sym s actions) := by
  induction actions generalizing s with
  | nil => exact hdozing
  | cons a actions ih =>
    have hstep := since_step hsym hinv h.quiet (ha a List.mem_cons_self)
    exact ih (hinv.step hsym a) (h.trans hstep)
      (dozing_step h hroom hdozing (ha a List.mem_cons_self) hstep)
      fun b hb => ha b (List.mem_cons_of_mem a hb)

end Since

/- The ticks that `sleep_ms` waits for. -/
def msTicks (s : TimerSystem) (milliseconds : UInt64) : ℕ :=
  milliseconds.toNat * s.frequency.toNat / 1000

theorem msTicks_toNat {s : TimerSystem} {milliseconds : UInt64}
    (h : milliseconds.toNat * s.frequency.toNat < 2 ^ 64) :
    (milliseconds * s.frequency.toUInt64 / 1000).toNat = msTicks s milliseconds := by
  rw [UInt64.toNat_div, UInt64.toNat_mul, UInt32.toNat_toUInt64, Nat.mod_eq_of_lt h]
  rfl

/-- `sleep_ms` in any run of the kernel's timer, with any other interrupts in between: when it
returns, the clock has made more cycles than there are in two periods fewer than the
ticks it waits for; and it returns at the first poll after those ticks. This is for a
frequency that fits the counter and counts that do not wrap around. -/
theorem sleepMs_waits {sym : Stub → UInt64} (hsym : Function.Injective sym) (base : UInt64)
    (idt : Idt) (pics : Pics) (pit : Pit) (before : List TimerAction) {actions : List TimerAction}
    (ha : ∀ a ∈ actions, a.background = true) {milliseconds : UInt64} :
    let s₀ := timerRun sym (timerStart sym base idt pics pit) before
    let s := timerRun sym (timerStep sym s₀ (.sleepMs milliseconds)) actions
    s₀.ready = true → 19 ≤ s₀.frequency → s₀.frequency ≤ pitHz →
      milliseconds.toNat * s₀.frequency.toNat < 2 ^ 64 →
      s₀.tick.toNat + msTicks s₀ milliseconds < 2 ^ 64 →
      (s.code = .idle → (msTicks s₀ milliseconds - 1) * (1193180 / s₀.frequency.toNat) <
        s.cycles - s₀.cycles + 1193180 / s₀.frequency.toNat) ∧
      (s.irq.phase = .running → msTicks s₀ milliseconds ≤ s.ticks - s₀.ticks →
        s₀.tick.toNat + (s.ticks - s₀.ticks) < 2 ^ 64 → (timerStep sym s .step).code = .idle) := by
  intro s₀ s hready hlow hhigh hproduct hroom
  obtain ⟨hrunning, hcode⟩ := ready_iff.mp hready
  have hinv : TimerInv sym base s₀ := (timerInv_start sym base idt pics pit).run hsym before
  have hquiet : s₀.isProgramming = false := by rw [TimerSystem.isProgramming, hcode]
  have hfreq : s₀.frequency ≠ 0 := by
    intro hzero
    rw [hzero] at hlow
    exact absurd hlow (by decide)
  have hperiod : s₀.pit.period = 1193180 / s₀.frequency.toNat := by
    have hrate := hinv.rate hfreq
    rw [hcode] at hrate
    have hsame : (programmed s₀.pit s₀.frequency).reload.toNat = s₀.pit.reload.toNat :=
      (programmed_reload s₀.pit s₀.frequency).trans hrate.symm
    rw [← (period_programmed_iff s₀.pit hfreq).mpr ⟨hlow, hhigh⟩, period_eq, period_eq, hsame]
  have hticks := msTicks_toNat hproduct
  have hstart : timerStep sym s₀ (.sleepMs milliseconds) = sleepMs s₀ milliseconds := by
    rw [timerStep, if_pos hready]
  have hsince₁ : Since s₀ (sleepMs s₀ milliseconds) :=
    ⟨rfl, rfl, le_rfl, by simp [TimerSystem.ticks, sleepMs, sleepTicks], le_rfl, le_rfl, le_rfl, rfl⟩
  have hinv₁ : TimerInv sym base (sleepMs s₀ milliseconds) := hinv.sleepTicks hcode _
  have hs : s = timerRun sym (sleepMs s₀ milliseconds) actions := by rw [← hstart]
  have hsince : Since s₀ s := by
    rw [hs]
    exact hsince₁.trans (since_run hsym hinv₁ rfl ha)
  have hdozing := dozing_run hsym hinv₁ hsince₁ (by rw [hticks]; exact hroom) (Or.inl rfl) ha
  rw [← hs] at hdozing
  constructor
  · intro hidle
    have henough : msTicks s₀ milliseconds ≤ s.ticks - s₀.ticks := by
      rcases hdozing with hpolling | ⟨-, henough⟩
      · rw [hidle] at hpolling
        cases hpolling
      · rwa [hticks] at henough
    have helapsed := hsince.elapsed (hinv.count hquiet) hrunning
    rw [hperiod] at helapsed
    refine lt_of_le_of_lt (Nat.mul_le_mul_right _ ?_) helapsed
    omega
  · intro hphase henough hcount
    rcases hdozing with hpolling | ⟨hidle, -⟩
    · have hdue := (hsince.due_iff (by rw [hticks]; exact hroom) hcount).mpr
        (by rw [hticks]; exact henough)
      rw [timerStep, hphase]
      simp only [TimerSystem.codeStep, hpolling]
      rw [if_neg (UInt64.not_lt.mpr hdue)]
    · rw [timerStep, hphase]
      simp only [TimerSystem.codeStep, hidle]

/- Cycles that do not end the period. -/
def TimerSystem.advance (s : TimerSystem) (n : ℕ) : TimerSystem :=
  {s with count := s.count + n, cycles := s.cycles + n}

def TimerSystem.hasCycles (s : TimerSystem) (n : ℕ) : Bool :=
  !s.isProgramming && s.count + n < s.pit.period

theorem run_cycles (sym : Stub → UInt64) {s : TimerSystem} {n : ℕ} (h : s.hasCycles n = true)
    (actions : List TimerAction) :
    timerRun sym s (List.replicate n .cycle ++ actions) = timerRun sym (s.advance n) actions := by
  rw [TimerSystem.hasCycles, Bool.and_eq_true, Bool.not_eq_true', decide_eq_true_iff] at h
  obtain ⟨hquiet, hshort⟩ := h
  induction n generalizing s with
  | zero => rfl
  | succ n ih =>
    have hone : timerStep sym s .cycle = s.advance 1 := by
      rw [timerStep, TimerSystem.cycle, if_neg (by rw [hquiet]; exact Bool.false_ne_true),
        if_pos (by omega)]
      rfl
    have hrest : (s.advance 1).advance n = s.advance (n + 1) := by
      simp only [TimerSystem.advance, Nat.add_assoc, Nat.add_comm 1 n]
    have hshort' : (s.advance 1).count + n < (s.advance 1).pit.period := by
      show s.count + 1 + n < s.pit.period
      omega
    rw [← hrest, ← ih (s := s.advance 1) hquiet hshort', ← hone]
    rfl

section Periods
variable (n : ℕ)

/- The cycles of a period, the last of which asks for the interrupt, and its service. -/
def servedPeriod : List TimerAction :=
  List.replicate n .cycle ++ .cycle :: (serviceSteps sevenInRax).map .interrupt

def afterPeriod (s : TimerSystem) : TimerSystem :=
  timerRun stubsAt (s.advance n) (.cycle :: (serviceSteps sevenInRax).map .interrupt)

/- Three of them, with a poll after the first two. -/
def threePeriods : List TimerAction :=
  servedPeriod n ++ .step :: (servedPeriod n ++ .step :: servedPeriod n)

def afterPoll (s : TimerSystem) : TimerSystem := timerStep stubsAt (afterPeriod n s) .step

theorem background_periods : ∀ a ∈ threePeriods n ++ [.step], a.background = true := by
  have hperiod : ∀ a ∈ servedPeriod n, a.background = true := by
    intro a ha
    rcases List.mem_append.mp ha with hcycle | hend
    · rw [List.eq_of_mem_replicate hcycle]
      rfl
    · rcases List.mem_cons.mp hend with rfl | hend
      · rfl
      · obtain ⟨b, -, rfl⟩ := List.mem_map.mp hend
        rfl
  simp only [threePeriods, List.mem_append, List.mem_cons, List.not_mem_nil, or_false]
  rintro a ((ha | rfl | ha | rfl | ha) | rfl)
  all_goals first | rfl | exact hperiod a ha

theorem run_threePeriods {n : ℕ} {s : TimerSystem} (h₁ : s.hasCycles n = true)
    (h₂ : (afterPoll n s).hasCycles n = true)
    (h₃ : (afterPoll n (afterPoll n s)).hasCycles n = true) (actions : List TimerAction) :
    timerRun stubsAt s (threePeriods n ++ actions) =
      timerRun stubsAt (afterPeriod n (afterPoll n (afterPoll n s))) actions := by
  have hperiod : ∀ {s : TimerSystem}, s.hasCycles n = true → ∀ actions,
      timerRun stubsAt s (servedPeriod n ++ actions) = timerRun stubsAt (afterPeriod n s) actions := by
    intro s h actions
    rw [servedPeriod, List.append_assoc, run_cycles stubsAt h]
    exact List.foldl_append
  have hpoll : ∀ s actions, timerRun stubsAt s (.step :: actions) =
      timerRun stubsAt (timerStep stubsAt s .step) actions := fun _ _ => rfl
  rw [threePeriods, List.append_assoc, hperiod h₁, List.cons_append, hpoll, List.append_assoc]
  refine (hperiod h₂ _).trans ?_
  rw [List.cons_append, hpoll]
  exact hperiod h₃ actions

end Periods

/- Right after `init_timer` at 1000 Hz, and in the loop of `sleep_ms(3)`. -/
def atOneKilohertz : TimerSystem :=
  timerRun stubsAt (timerStart stubsAt 0x9000 emptyIdt coldPics ⟨none, 0⟩)
    [.initTimer 1000, .step, .cycle, .step, .step, .step]
def asleep : TimerSystem := timerStep stubsAt atOneKilohertz (.sleepMs 3)
def afterThree : TimerSystem := afterPeriod 1192 (afterPoll 1192 (afterPoll 1192 asleep))

theorem run_asleep (actions : List TimerAction) :
    timerRun stubsAt asleep (threePeriods 1192 ++ actions) = timerRun stubsAt afterThree actions :=
  run_threePeriods (by decide +kernel) (by decide +kernel) (by decide +kernel) actions

/- Three milliseconds: the poll after the third period is the last one. -/
theorem three_milliseconds :
    let s := timerRun stubsAt asleep (threePeriods 1192)
    let s' := timerRun stubsAt asleep (threePeriods 1192 ++ [.step])
    s.ticks - atOneKilohertz.ticks = 3 ∧ (timerStep stubsAt s .step).code = .idle ∧
      s'.code = .idle ∧ (msTicks atOneKilohertz 3 - 1) * (1193180 / atOneKilohertz.frequency.toNat) <
        s'.cycles - atOneKilohertz.cycles + 1193180 / atOneKilohertz.frequency.toNat := by
  have hwaits : ∀ actions : List TimerAction, (∀ a ∈ actions, a.background = true) →
      ((timerRun stubsAt asleep actions).code = .idle →
        (msTicks atOneKilohertz 3 - 1) * (1193180 / atOneKilohertz.frequency.toNat) <
          (timerRun stubsAt asleep actions).cycles - atOneKilohertz.cycles +
            1193180 / atOneKilohertz.frequency.toNat) ∧
      ((timerRun stubsAt asleep actions).irq.phase = .running → msTicks atOneKilohertz 3 ≤
        (timerRun stubsAt asleep actions).ticks - atOneKilohertz.ticks →
        atOneKilohertz.tick.toNat +
          ((timerRun stubsAt asleep actions).ticks - atOneKilohertz.ticks) < 2 ^ 64 →
        (timerStep stubsAt (timerRun stubsAt asleep actions) .step).code = .idle) :=
    fun actions ha => sleepMs_waits stubsAt_injective 0x9000 emptyIdt coldPics ⟨none, 0⟩
      [.initTimer 1000, .step, .cycle, .step, .step, .step] ha rfl (by decide) (by decide)
      (by decide) (by decide)
  have hthree : timerRun stubsAt asleep (threePeriods 1192) = afterThree := by
    have hnil : ∀ s, timerRun stubsAt s [] = s := fun _ => rfl
    have hrun := run_asleep []
    rw [List.append_nil, hnil] at hrun
    exact hrun
  have hticks : afterThree.ticks - atOneKilohertz.ticks = 3 := by decide +kernel
  have hrunning : afterThree.irq.phase = .running := by decide +kernel
  have hpoll : (timerRun stubsAt asleep (threePeriods 1192 ++ [.step])).code = .idle := by
    rw [run_asleep]
    decide +kernel
  have hdue := (hwaits (threePeriods 1192)
    fun a ha => background_periods 1192 a (List.mem_append_left _ ha)).2
  rw [hthree, hticks] at hdue
  refine ⟨by rw [hthree]; exact hticks, ?_, hpoll, (hwaits _ (background_periods 1192)).1 hpoll⟩
  rw [hthree]
  exact hdue hrunning (by decide) (by decide)

end CasseOS.Cpu
