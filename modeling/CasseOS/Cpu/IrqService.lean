import CasseOS.Cpu.Irq

/-! # What the interrupts come to (`cpu/isr.c`)

Over every order of requests, withdrawals and steps: the number `irq_handler` is told is
that of the line served, every request is served once, and requests that wait
together are served in the order of their priority. -/

namespace CasseOS.Cpu
open Priority

variable {H : Type*} {sym : Stub → UInt64}

/-! ### Runs -/
section Runs
variable {m : IrqMachine H} {base : UInt64}

theorem irqInv_isrInstall (sym : Stub → UInt64) (base : UInt64) (idt : Idt) (pics : Pics)
    (handlers : UInt8 → Option H) : IrqInv sym base (isrInstall sym base idt pics handlers) :=
  ⟨remapped_remap pics, ⟨idt, rfl⟩, rfl, idle_remap pics, rfl⟩

theorem balanced_isrInstall (sym : Stub → UInt64) (base : UInt64) (idt : Idt) (pics : Pics)
    (handlers : UInt8 → Option H) : Balanced (isrInstall sym base idt pics handlers) := by
  intro l
  have hnone : waiting pics.remap l = 0 := by
    rw [remap_eq]
    cases l <;> simp [waiting, Pics.pending]
  show 0 = 0 + 0 + 0 + waiting pics.remap l
  rw [hnone]

theorem run_irqInv (hsym : Function.Injective sym) (hinv : IrqInv sym base m)
    (actions : List (InterruptAction H)) : IrqInv sym base (interruptRun sym m actions) := by
  induction actions generalizing m with
  | nil => exact hinv
  | cons a actions ih => exact ih (hinv.transition (transition hsym hinv a))

theorem run_balanced (hsym : Function.Injective sym) (hinv : IrqInv sym base m) (hbal : Balanced m)
    (actions : List (InterruptAction H)) : Balanced (interruptRun sym m actions) := by
  induction actions generalizing m with
  | nil => exact hbal
  | cons a actions ih =>
    have hstep := transition hsym hinv a
    exact ih (hinv.transition hstep) (hbal.transition hinv hstep)

end Runs

/-- In every run after `isr_install`, with the controllers and the table as they may have been
before: no interrupt goes astray, nothing is in service while the interrupted code or a
handler runs, `irq_handler` is told 32 and the number of the line acknowledged (7 or 15 if
there was no request any more), and each request latched is acknowledged once, unless it
has been withdrawn or waits. -/
theorem irqs_accounted (hsym : Function.Injective sym) (base : UInt64) (idt : Idt) (pics : Pics)
    (handlers : UInt8 → Option H) (actions : List (InterruptAction H)) :
    let m := interruptRun sym (isrInstall sym base idt pics handlers) actions
    m.phase ≠ .stopped ∧
      (m.phase = .running ∨ (∃ intNo, m.phase = .handling intNo) → m.pics.Idle) ∧
      m.entered.map UInt64.toNat = m.acks.map (fun ack => ack.irq.val + 32) ∧
      ∀ l, m.latched.count l =
        m.acks.count (.line l) + m.phase.inFlight.count l + m.withdrawn.count l +
          waiting m.pics l := by
  intro m
  have hstart := irqInv_isrInstall sym base idt pics handlers
  have hinv := run_irqInv hsym hstart actions
  have hbal := run_balanced hsym hstart (balanced_isrInstall sym base idt pics handlers) actions
  have hok := hinv.phase
  refine ⟨fun hstopped => ?_, ?_, ?_, hbal⟩
  · rw [hstopped] at hok
    exact hok
  · rintro (hrunning | ⟨intNo, hhandling⟩)
    · rw [hrunning] at hok
      exact hok
    · rw [hhandling] at hok
      exact hok
  · rw [hinv.entered, List.map_map]
    exact List.map_congr_left fun ack _ => intNo_toNat ack

/- Stubs one after the other, a table and controllers that nothing has been told yet. -/
def stubsAt (stub : Stub) : UInt64 := 0x100000 + stub.vector
def emptyIdt : Idt := fun _ => ⟨0, 0, 0, 0, 0, 0, 0⟩
def coldPic : Pic := ⟨fun _ => false, fun _ => true, 0xFF, 0, 0, 0, 0, .mask⟩
def coldPics : Pics := ⟨coldPic, coldPic⟩

theorem stubsAt_injective : Function.Injective stubsAt := by
  intro stub stub' h
  have hvector : stub.vector = stub'.vector := by
    rwa [stubsAt, stubsAt, UInt64.add_right_inj] at h
  refine gate_injective (Fin.ext ?_)
  rw [← vector_toNat, ← vector_toNat, hvector]

/- The timer asks and is served; the second drive asks and withdraws. -/
theorem timer_then_spurious :
    let m := interruptRun stubsAt (isrInstall stubsAt 0x9000 emptyIdt coldPics
      fun _ => (none : Option Unit))
      [.raise (.master 0), .recognize, .inta1, .inta2 sevenInRax, .handler, .handler, .handler,
        .raise (.slave 7), .recognize, .inta1, .withdraw (.slave 7), .inta2 sevenInRax]
    m.phase ≠ .stopped ∧
      (m.phase = .running ∨ (∃ intNo, m.phase = .handling intNo) → m.pics.Idle) ∧
      m.entered.map UInt64.toNat = m.acks.map (fun ack => ack.irq.val + 32) ∧
      ∀ l, m.latched.count l =
        m.acks.count (.line l) + m.phase.inFlight.count l + m.withdrawn.count l +
          waiting m.pics l :=
  irqs_accounted stubsAt_injective 0x9000 emptyIdt coldPics (fun _ => none) _

/-! ### The calls of a handler -/

def Line.intNo (l : Line) : UInt64 := (Ack.line l).intNo

/- In `irq_handler`, before the call. -/
def CpuPhase.entering : CpuPhase → List UInt64
  | .eoiSlave intNo | .eoiMaster intNo | .dispatch intNo => [intNo]
  | _ => []

/- How often a handler has been called with a number. -/
def IrqMachine.called (m : IrqMachine H) (intNo : UInt64) : ℕ := (m.calls.map Prod.snd).count intNo

theorem intNo_injective : Function.Injective Line.intNo := by
  intro l l' h
  have hirq := congrArg UInt64.toNat h
  rw [Line.intNo, Line.intNo, intNo_toNat, intNo_toNat] at hirq
  cases l with
  | master n =>
    cases l' with
    | master k => exact congrArg Line.master (Fin.ext (Nat.add_right_cancel hirq))
    | slave k =>
      have heq : n.val + 32 = k.val + 8 + 32 := hirq
      omega
  | slave n =>
    cases l' with
    | master k =>
      have heq : n.val + 8 + 32 = k.val + 32 := hirq
      omega
    | slave k =>
      have heq : n.val + 8 + 32 = k.val + 8 + 32 := hirq
      exact congrArg Line.slave (Fin.ext (by omega))

/- Requests that wait, or are between the two pulses, or in `irq_handler` before the call. -/
def IrqMachine.onTheirWay (m : IrqMachine H) (l : Line) : ℕ :=
  waiting m.pics l + m.phase.inFlight.count l + m.phase.entering.count l.intNo

/- The requests latched that have not come to a call and are not on their way to one. -/
def debt (m : IrqMachine H) (l : Line) : ℤ :=
  m.latched.count l - m.called l.intNo - m.onTheirWay l

section Calls
variable {m m' : IrqMachine H} {base : UInt64} {a : InterruptAction H} {l : Line} {handler : H}

/- The handler of a line is not replaced, and every call of its number is one of it. -/
structure Attends (handler : H) (l : Line) (old : List (H × UInt64)) (m : IrqMachine H) : Prop where
  registered : m.handlers l.intNo.toUInt8 = some handler
  calls : ∃ new, m.calls = old ++ new ∧ ∀ c ∈ new, c.2 = l.intNo → c.1 = handler

theorem debt_congr (hlatched : m'.latched = m.latched) (hcalls : m'.calls = m.calls)
    (hentering : m'.phase.entering = m.phase.entering)
    (hflight : m'.phase.inFlight = m.phase.inFlight)
    (hwaiting : waiting m'.pics l = waiting m.pics l) : debt m' l = debt m l := by
  simp only [debt, IrqMachine.called, IrqMachine.onTheirWay, hlatched, hcalls, hentering, hflight,
    hwaiting]

/- What is answered under the number of a line is a request of the line. -/
def Plain (m : IrqMachine H) (l : Line) : Prop :=
  ∀ n ack pics, m.phase = .acknowledged n → Answered m.pics n ack pics → ack.intNo = l.intNo →
    ack = .line l

theorem plain_of_steady (h : Steady m) (l : Line) : Plain m l := by
  intro n ack pics hphase hanswer hsame
  rw [Steady, hphase] at h
  obtain ⟨l', rfl⟩ := hanswer.genuine h.1 h.2
  exact congrArg _ (intNo_injective hsame)

/- Without a request there is no call; with a handler, and if nothing is withdrawn, there is one
for each. -/
theorem debt_transition (hinv : IrqInv sym base m) (hplain : Plain m l) (hstep : Transition a m m') :
    debt m l ≤ debt m' l ∧ ((∀ l, a ≠ .withdraw l) → m.handlers l.intNo.toUInt8 ≠ none →
      debt m' l = debt m l) := by
  have hkept : debt m' l = debt m l → debt m l ≤ debt m' l ∧ ((∀ l, a ≠ .withdraw l) →
      m.handlers l.intNo.toUInt8 ≠ none → debt m' l = debt m l) :=
    fun h => ⟨h.ge, fun _ _ => h⟩
  cases hstep with
  | refused => exact hkept rfl
  | register => exact hkept rfl
  | withdraw l' hl =>
    refine ⟨?_, fun hw => absurd hl (hw l')⟩
    have hwaiting := waiting_withdraw m.pics l' l
    simp only [debt, IrqMachine.called, IrqMachine.onTheirWay]
    omega
  | raise l' =>
    apply hkept
    have hlatched := count_log m.latched
      ((m.pics.raise l').pending l' && !m.pics.pending l') l' l
    have hwaiting := waiting_raise m.pics l' l
    simp only [debt, IrqMachine.called, IrqMachine.onTheirWay, hlatched, hwaiting]
    omega
  | recognize hphase | skipSlave hphase | iretq hphase =>
    exact hkept (debt_congr rfl rfl (by rw [hphase]; rfl) (by rw [hphase]; rfl) rfl)
  | eoiSlave hphase =>
    refine hkept (debt_congr rfl rfl (by rw [hphase]; rfl) (by rw [hphase]; rfl) ?_)
    rw [out_slave]
    cases l <;> rfl
  | eoiMaster hphase =>
    refine hkept (debt_congr rfl rfl (by rw [hphase]; rfl) (by rw [hphase]; rfl) ?_)
    rw [out_master]
    cases l <;> rfl
  | inta1 hphase =>
    apply hkept
    have hidle := hinv.phase
    rw [hphase] at hidle
    have hwaiting := (inta1_spec hinv.remapped hidle).1.accounted l
    have hnone : CpuPhase.recognized.inFlight.count l = 0 := rfl
    simp only [debt, IrqMachine.onTheirWay, hphase, CpuPhase.entering, IrqMachine.called,
      List.count_nil, hwaiting]
    omega
  | inta2 hphase hanswer =>
    rename_i ack pics
    apply hkept
    have hwaiting := hanswer.accounted l
    have hcount : [ack.intNo].count l.intNo = if ack = .line l then 1 else 0 := by
      rw [List.count_singleton]
      by_cases heq : ack = .line l
      · simp [heq, Line.intNo]
      · have hne : ack.intNo ≠ l.intNo := fun h => heq (hplain _ ack pics hphase hanswer h)
        simp [heq, hne]
    have hnone : (CpuPhase.eoiSlave ack.intNo).inFlight.count l = 0 := rfl
    simp only [debt, IrqMachine.onTheirWay, hphase, CpuPhase.entering, IrqMachine.called, hcount,
      List.count_nil]
    omega
  | unhandled hphase hnone =>
    rename_i intNo
    have hleft : debt {m with phase := .running} l = debt m l + [intNo].count l.intNo := by
      simp only [debt, IrqMachine.onTheirWay, hphase, CpuPhase.entering, IrqMachine.called,
        CpuPhase.inFlight, List.count_nil]
      omega
    refine ⟨by omega, fun _ hsome => hleft.trans ?_⟩
    have hne : intNo ≠ l.intNo := by
      rintro rfl
      exact hsome hnone
    simp [hne]
  | call hphase =>
    apply hkept
    simp only [debt, IrqMachine.onTheirWay, hphase, CpuPhase.entering, IrqMachine.called,
      CpuPhase.inFlight, List.map_append, List.count_append, List.map_cons, List.map_nil,
      List.count_nil]
    omega

theorem attends_transition {old : List (H × UInt64)} (h : Attends handler l old m)
    (hr : ∀ other, a ≠ .register l.intNo.toUInt8 other) (hstep : Transition a m m') :
    Attends handler l old m' := by
  obtain ⟨hreg, new, hcalls, hnew⟩ := h
  cases hstep with
  | register n other hn =>
    refine ⟨?_, new, hcalls, hnew⟩
    have hne : l.intNo.toUInt8 ≠ n := fun heq => hr other (heq ▸ hn)
    exact (Function.update_of_ne hne ..).trans hreg
  | call hphase hsome =>
    rename_i intNo called
    refine ⟨hreg, new ++ [(called, intNo)], by simp [hcalls], fun c hc hsame => ?_⟩
    rcases List.mem_append.mp hc with hold | hlast
    · exact hnew c hold hsame
    · have heq := List.mem_singleton.mp hlast
      subst heq
      simp only at hsame
      rw [hsame, hreg] at hsome
      exact (Option.some.inj hsome).symm
  | refused | raise | withdraw | recognize | inta1 | inta2 | eoiSlave | skipSlave | eoiMaster
  | unhandled | iretq => exact ⟨hreg, new, hcalls, hnew⟩

theorem run_debt (hsym : Function.Injective sym) (hinv : IrqInv sym base m) (hsteady : Steady m)
    {old : List (H × UInt64)} (h : Attends handler l old m) {actions : List (InterruptAction H)}
    (hw : ∀ l, .withdraw l ∉ actions) (hr : ∀ other, .register l.intNo.toUInt8 other ∉ actions) :
    debt (interruptRun sym m actions) l = debt m l ∧
      Attends handler l old (interruptRun sym m actions) := by
  induction actions generalizing m with
  | nil => exact ⟨rfl, h⟩
  | cons a actions ih =>
    have hstep := transition hsym hinv a
    have hwfirst : ∀ l, a ≠ .withdraw l := fun l hl => hw l (hl ▸ List.mem_cons_self)
    have hrfirst : ∀ other, a ≠ .register l.intNo.toUInt8 other := fun other ho =>
      hr other (ho ▸ List.mem_cons_self)
    have hnext := ih (hinv.transition hstep) (hsteady.transition hinv hwfirst hstep)
      (attends_transition h hrfirst hstep) (fun l hl => hw l (List.mem_cons_of_mem a hl))
      fun other ho => hr other (List.mem_cons_of_mem a ho)
    have hsome : m.handlers l.intNo.toUInt8 ≠ none := by
      rw [h.registered]
      exact Option.some_ne_none handler
    have hsame := (debt_transition hinv (plain_of_steady hsteady l) hstep).2 hwfirst hsome
    exact ⟨hnext.1.trans hsame, hnext.2⟩

end Calls

/-- From a moment outside an interrupt on at which a handler is registered for a line, as long
as no device withdraws a request and nothing else is registered for the line, the handler
is called once for each request the line latches from then on or that waited then, but for
the ones that wait or are on their way. Nothing else is called with the number of the
line. -/
theorem handler_called_once (hsym : Function.Injective sym) (base : UInt64) (idt : Idt)
    (pics : Pics) (handlers : UInt8 → Option H) (before : List (InterruptAction H))
    {actions : List (InterruptAction H)} (hw : ∀ l, .withdraw l ∉ actions) {l : Line} {handler : H}
    (hr : ∀ other, .register l.intNo.toUInt8 other ∉ actions) :
    let m₀ := interruptRun sym (isrInstall sym base idt pics handlers) before
    let m := interruptRun sym m₀ actions
    m₀.phase = .running → m₀.handlers l.intNo.toUInt8 = some handler →
      m.latched.count l + m₀.called l.intNo + waiting m₀.pics l =
        m₀.latched.count l + m.called l.intNo + m.onTheirWay l ∧
      ∃ new, m.calls = m₀.calls ++ new ∧ ∀ c ∈ new, c.2 = l.intNo → c.1 = handler := by
  intro m₀ m hrunning hsome
  have hinv : IrqInv sym base m₀ :=
    run_irqInv hsym (irqInv_isrInstall sym base idt pics handlers) before
  have hsteady : Steady m₀ := by
    rw [Steady, hrunning]
    trivial
  obtain ⟨hdebt, -, hcalls⟩ := run_debt hsym hinv hsteady
    ⟨hsome, [], (List.append_nil m₀.calls).symm, by simp⟩ hw hr
  refine ⟨?_, hcalls⟩
  have hway : m₀.onTheirWay l = waiting m₀.pics l := by
    rw [IrqMachine.onTheirWay, hrunning]
    rfl
  have hsame : debt m l = debt m₀ l := hdebt
  simp only [debt] at hsame
  omega

/- A spurious interrupt is behind, a tick waits when the handler is registered, and another one
comes while it runs. -/
theorem tick_called_once :
    let m₀ := interruptRun stubsAt (isrInstall stubsAt 0x9000 emptyIdt coldPics
      fun _ => (none : Option Unit))
      [.raise (.master 5), .recognize, .withdraw (.master 5), .inta1, .inta2 sevenInRax, .handler,
        .handler, .handler, .raise (.master 0), .register 32 ()]
    let m := interruptRun stubsAt m₀
      [.recognize, .inta1, .inta2 sevenInRax, .handler, .handler, .handler, .raise (.master 0)]
    m.latched.count (.master 0) + m₀.called 32 + waiting m₀.pics (.master 0) =
      m₀.latched.count (.master 0) + m.called 32 + m.onTheirWay (.master 0) ∧
      ∃ new, m.calls = m₀.calls ++ new ∧ ∀ c ∈ new, c.2 = 32 → c.1 = () :=
  handler_called_once stubsAt_injective 0x9000 emptyIdt coldPics (fun _ => none) _ (by simp)
    (by simp) rfl rfl

/-! ### The order of service -/

def linesBefore : List (Fin 8) := (List.finRange 8).filter (· < cascadeLine)
def linesAfter : List (Fin 8) := (List.finRange 8).filter (cascadeLine < ·)

/- The lines in the order of their priority: those of the second controller stand where its
output is at the first. -/
def lineOrder : List Line :=
  linesBefore.map .master ++ ((List.finRange 8).map .slave ++ linesAfter.map .master)

theorem nodup_lineOrder : lineOrder.Nodup := by decide

theorem find_map (f : Fin 8 → Line) (ns : List (Fin 8)) (p : Line → Bool) :
    (ns.map f).find? p = (ns.find? fun n => p (f n)).map f := List.find?_map

section Service
variable {m : IrqMachine H} {base : UInt64}

/- Lines of the first controller other than 2, looked through for a request. -/
theorem find_master (ps : Pics) (ns : List (Fin 8)) (hns : cascadeLine ∉ ns) :
    (ns.find? fun n => if n = cascadeLine then ps.slaveNext.isSome else ps.master.irr n) =
      ns.find? fun n => ps.pending (.master n) := by
  induction ns with
  | nil => rfl
  | cons n ns ih =>
    have hn : n ≠ cascadeLine := fun h => hns (h ▸ List.mem_cons_self)
    have hrest : cascadeLine ∉ ns := fun h => hns (List.mem_cons_of_mem n h)
    rw [List.find?_cons, List.find?_cons, ih hrest]
    simp [Pics.pending, hn]

/- The line of the first controller that a line comes in on. -/
def Line.input : Line → Fin 8
  | .master n => n
  | .slave _ => cascadeLine

/- What the first controller is asked for, by the first line that waits. -/
theorem masterNext_first {ps : Pics} (h : ps.Remapped) (hidle : ps.Idle) :
    ps.masterNext = (lineOrder.find? ps.pending).map Line.input := by
  have hlines : List.finRange 8 = linesBefore ++ ([cascadeLine] ++ linesAfter) := by decide
  have hslave : ((List.finRange 8).find? fun n => ps.pending (.slave n)) = ps.slaveNext :=
    (slaveNext_eq h hidle.slave).symm
  have hinput : ∀ o : Option (Fin 8), (o.map Line.master).map Line.input = o := fun o => by
    cases o <;> rfl
  rw [masterNext_eq h hidle.master, highest, hlines, lineOrder, List.find?_append,
    List.find?_append, List.find?_append, List.find?_append, find_master ps linesBefore (by decide),
    find_master ps linesAfter (by decide), find_map, find_map, find_map, hslave, Option.map_or,
    Option.map_or, hinput, hinput]
  refine congrArg _ (congrArg (Option.or · _) ?_)
  cases ps.slaveNext <;> rfl

theorem first_slave {ps : Pics} (h : ps.Remapped) (hidle : ∀ n, ps.slave.isr n = false) {k : Fin 8}
    (hfirst : lineOrder.find? ps.pending = some (.slave k)) : ps.slaveNext = some k := by
  have hslave : ((List.finRange 8).find? fun n => ps.pending (.slave n)) = ps.slaveNext :=
    (slaveNext_eq h hidle).symm
  rw [lineOrder, List.find?_append, List.find?_append, find_map, find_map, find_map, hslave]
    at hfirst
  cases hlow : linesBefore.find? fun n => ps.pending (.master n) with
  | some n =>
    rw [hlow] at hfirst
    cases hfirst
  | none =>
    rw [hlow] at hfirst
    cases hnext : ps.slaveNext with
    | some n =>
      rw [hnext] at hfirst
      injection hfirst with hsame
      injection hsame with hsame
      rw [hsame]
    | none =>
      rw [hnext] at hfirst
      cases hhigh : linesAfter.find? fun n => ps.pending (.master n) with
      | some n =>
        rw [hhigh] at hfirst
        cases hfirst
      | none =>
        rw [hhigh] at hfirst
        cases hfirst

/- The two pulses with nothing in between answer the first line that waits. -/
theorem pulses_first {ps : Pics} (h : ps.Remapped) (hidle : ps.Idle) {l : Line}
    (hfirst : lineOrder.find? ps.pending = some l) {n : Option (Fin 8)} {ps' : Pics}
    (hpulse : Pulsed ps n ps') (hn : n = ps.masterNext) :
    (ps'.inta2 n).2.1 = some (.line l) := by
  rw [masterNext_first h hidle, hfirst] at hn
  subst hn
  cases l with
  | master k =>
    have hpending : ps.pending (.master k) = true := List.find?_some hfirst
    have hk : k ≠ cascadeLine := fun heq => by simp [Pics.pending, heq] at hpending
    have hanswer := inta2_master hpulse.remapped hk
    exact congrArg (fun r => r.2.1) hanswer
  | slave k =>
    have hnext : ps'.slaveNext = some k := by
      rw [Pics.slaveNext, hpulse.slave]
      exact first_slave h hidle.slave hfirst
    have hanswer := inta2_slave hpulse.remapped
    rw [hnext] at hanswer
    exact congrArg (fun r => r.2.1) hanswer

/- From the request to `iretq`, with no other step in between. -/
def serviceSteps (s : Interrupted) : List (InterruptAction H) :=
  [.recognize, .inta1, .inta2 s, .handler, .handler, .handler, .handler]

theorem pending_out (ps : Pics) :
    (ps.out 0x20 0x20).pending = ps.pending ∧ (ps.out 0xA0 0x20).pending = ps.pending := by
  rw [out_master, out_slave]
  constructor
  · funext l
    cases l <;> rfl
  · funext l
    cases l <;> rfl

/- From `irq_handler` to `iretq`. -/
theorem handler_steps {intNo : UInt64} (hphase : m.phase = .eoiSlave intNo) (hlt : intNo < 256) :
    (irqHandlerStep^[4] m).phase = .running ∧ (irqHandlerStep^[4] m).entered = m.entered ∧
      (irqHandlerStep^[4] m).pics.pending = m.pics.pending := by
  obtain ⟨ps, hps, hone⟩ : ∃ ps : Pics, ps.pending = m.pics.pending ∧
      irqHandlerStep m = {m with pics := ps, phase := .eoiMaster intNo} := by
    simp only [irqHandlerStep, hphase]
    by_cases hhigh : 40 ≤ intNo
    · rw [if_pos hhigh]
      exact ⟨_, (pending_out m.pics).2, rfl⟩
    · rw [if_neg hhigh]
      exact ⟨_, rfl, rfl⟩
  have htwo : irqHandlerStep (irqHandlerStep m) =
      {m with pics := ps.out 0x20 0x20, phase := .dispatch intNo} := by
    rw [hone]
    rfl
  have hpending : (ps.out 0x20 0x20).pending = m.pics.pending := ((pending_out ps).1).trans hps
  show (irqHandlerStep (irqHandlerStep (irqHandlerStep (irqHandlerStep m)))).phase = _ ∧
    (irqHandlerStep (irqHandlerStep (irqHandlerStep (irqHandlerStep m)))).entered = _ ∧
    (irqHandlerStep (irqHandlerStep (irqHandlerStep (irqHandlerStep m)))).pics.pending = _
  rw [htwo]
  simp only [irqHandlerStep, if_neg (UInt64.not_le.mpr hlt)]
  cases m.handlers intNo.toUInt8 with
  | none => exact ⟨rfl, rfl, hpending⟩
  | some handler => exact ⟨rfl, rfl, hpending⟩

theorem service_spec (hsym : Function.Injective sym) (hinv : IrqInv sym base m)
    (hrunning : m.phase = .running) (s : Interrupted) {l : Line}
    (hfirst : lineOrder.find? m.pics.pending = some l) :
    let m' := interruptRun sym m (serviceSteps s)
    m'.phase = .running ∧ m'.entered = m.entered ++ [l.intNo] ∧
      m'.pics.pending = clear m.pics.pending l := by
  have hidle := hinv.phase
  rw [hrunning] at hidle
  have hnext : m.pics.masterNext.isSome := by
    rw [masterNext_first hinv.remapped hidle, hfirst]
    rfl
  obtain ⟨hpulse, hasked⟩ := inta1_spec hinv.remapped hidle
  have hone : interruptStep sym m .recognize = {m with phase := .recognized} := by
    rw [interruptStep, hrunning]
    simp [hnext]
  have htwo : interruptStep sym (interruptStep sym m .recognize) .inta1 =
      {m with pics := m.pics.inta1.2, phase := .acknowledged m.pics.inta1.1} := by
    rw [hone]
    rfl
  have hinv₂ : IrqInv sym base
      {m with pics := m.pics.inta1.2, phase := .acknowledged m.pics.inta1.1} :=
    ⟨hpulse.remapped, hinv.table, hinv.idtReg, hpulse.phase, hinv.entered⟩
  obtain ⟨vector, ack, pics, hinta, hanswer, hthree⟩ := inta2_step hsym hinv₂ s rfl
  have hack : ack = .line l := by
    have hfound := pulses_first hinv.remapped hidle hfirst hpulse hasked
    rw [hinta] at hfound
    exact Option.some.inj hfound
  have hrun : interruptRun sym m (serviceSteps s) =
      irqHandlerStep^[4] {m with
        pics := pics
        acks := m.acks ++ [ack]
        phase := .eoiSlave ack.intNo
        entered := m.entered ++ [ack.intNo]} := by
    rw [interruptRun, serviceSteps, List.foldl_cons, List.foldl_cons, List.foldl_cons, htwo, hthree]
    rfl
  obtain ⟨hphase, hentered, hpending⟩ := handler_steps
    (m := {m with
      pics := pics
      acks := m.acks ++ [ack]
      phase := .eoiSlave ack.intNo
      entered := m.entered ++ [ack.intNo]}) rfl (intNo_lt ack)
  intro m'
  have hm' : m' = _ := hrun
  rw [hm']
  refine ⟨hphase, by rw [hentered, hack]; rfl, hpending.trans (funext fun l' => ?_)⟩
  -- The two pulses clear the latch of the line that is answered, and no other.
  have hcount := (hpulse.accounted l').trans (hanswer.accounted l')
  rw [hack] at hcount
  by_cases heq : l' = l
  · subst heq
    rw [clear_self]
    cases hleft : pics.pending l' with
    | false => rfl
    | true => 
      have hwas : m.pics.pending l' = true := List.find?_some hfirst
      simp [waiting, hleft, hwas] at hcount
  · have hne : Ack.line l ≠ .line l' := fun h => heq (Ack.line.inj h).symm
    rw [clear_of_ne _ heq]
    rw [if_neg hne] at hcount
    cases hwas : m.pics.pending l' <;> cases hleft : pics.pending l' <;>
      simp_all [waiting]

theorem service_none (hinv : IrqInv sym base m) (hrunning : m.phase = .running)
    (s : Interrupted) (hnone : lineOrder.find? m.pics.pending = none) :
    interruptRun sym m (serviceSteps s) = m := by
  have hidle := hinv.phase
  rw [hrunning] at hidle
  have hnext : m.pics.masterNext = none := by
    rw [masterNext_first hinv.remapped hidle, hnone]
    rfl
  have hrefused : interruptStep sym m .recognize = m := by
    rw [interruptStep, hrunning]
    simp [hnext]
  have hinta1 : interruptStep sym m .inta1 = m := by rw [interruptStep, hrunning]
  have hinta2 : interruptStep sym m (.inta2 s) = m := by rw [interruptStep, hrunning]
  have hhandler : interruptStep sym m .handler = m := by
    rw [interruptStep, irqHandlerStep, hrunning]
  simp only [interruptRun, serviceSteps, List.foldl_cons, List.foldl_nil, hrefused, hinta1, hinta2,
    hhandler]

/- Served over and over, with no new request. -/
theorem run_services (hsym : Function.Injective sym) (hinv : IrqInv sym base m)
    (hrunning : m.phase = .running) (interrupted : List Interrupted) :
    let m' := interruptRun sym m (interrupted.flatMap serviceSteps)
    m'.phase = .running ∧ m'.entered = m.entered ++
      (drain lineOrder interrupted.length m.pics.pending).map Line.intNo := by
  induction interrupted generalizing m with
  | nil => exact ⟨hrunning, (List.append_nil _).symm⟩
  | cons s interrupted ih =>
    intro m'
    have hm' : m' = interruptRun sym (interruptRun sym m (serviceSteps s))
        (interrupted.flatMap serviceSteps) := List.foldl_append
    rw [hm', List.length_cons, drain]
    cases hfirst : lineOrder.find? m.pics.pending with
    | none =>
      have hrest := ih hinv hrunning
      rw [drain_none hfirst] at hrest
      rw [service_none hinv hrunning s hfirst]
      exact hrest
    | some l =>
      obtain ⟨hphase, hentered, hpending⟩ := service_spec hsym hinv hrunning s hfirst
      obtain ⟨hdone, htold⟩ := ih (run_irqInv hsym hinv (serviceSteps s)) hphase
      refine ⟨hdone, htold.trans ?_⟩
      rw [hentered, hpending, List.append_assoc]
      rfl

end Service

/-- With enough time and no new request, every line that waits is served once, in the order of
the priorities: 0, 1, 8 to 15, 3 to 7. -/
theorem served_by_priority (hsym : Function.Injective sym) (base : UInt64) (idt : Idt) (pics : Pics)
    (handlers : UInt8 → Option H) (actions : List (InterruptAction H))
    {interrupted : List Interrupted} :
    let m₀ := interruptRun sym (isrInstall sym base idt pics handlers) actions
    let m := interruptRun sym m₀ (interrupted.flatMap serviceSteps)
    m₀.phase = .running → (lineOrder.filter m₀.pics.pending).length ≤ interrupted.length →
      m.entered = m₀.entered ++ (lineOrder.filter m₀.pics.pending).map Line.intNo := by
  intro m₀ m hrunning henough
  have hinv := run_irqInv hsym (irqInv_isrInstall sym base idt pics handlers) actions
  have hrun := (run_services hsym hinv hrunning interrupted).2
  rwa [drain_eq nodup_lineOrder henough] at hrun

theorem disk_before_serial :
    let m₀ := interruptRun stubsAt (isrInstall stubsAt 0x9000 emptyIdt coldPics
      fun _ => (none : Option Unit)) [.raise (.master 4), .raise (.slave 6), .raise (.master 1)]
    let m := interruptRun stubsAt m₀ ([sevenInRax, sevenInRax, sevenInRax].flatMap serviceSteps)
    m.entered = m₀.entered ++ (lineOrder.filter m₀.pics.pending).map Line.intNo :=
  served_by_priority stubsAt_injective 0x9000 emptyIdt coldPics (fun _ => none) _ rfl (by decide)

end CasseOS.Cpu
