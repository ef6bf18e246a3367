import CasseOS.System.Keys

/-! # From the keys to the commands

The loop never faults, however the handlers interrupt it. What it executes are the
commands of the events its calls have read; with what the handlers have passed on,
these are the commands that were typed, if no event was lost and no call has read a
press behind an ENTER. -/

namespace CasseOS.System
open Keyboard Screen Shell Usb

/-! ### Calls one by one -/

/- The line and the flag after a call that has read the presses. -/
def settle (st : Line × Bool) (codes : List Keycode) : Line × Bool :=
  (codes.foldl press (if st.2 then emptyLine else st.1), endsWithEnter codes)

/- What the next call executes. -/
def due (st : Line × Bool) : List (List UInt8) := if st.2 then [st.1.text] else []

theorem executed_concat (batches : List (List Keycode)) (st : Line × Bool) (codes : List Keycode) :
    executed st.1 st.2 (batches ++ [codes]) =
      executed st.1 st.2 batches ++ due (batches.foldl settle st) := by
  induction batches generalizing st with
  | nil => exact List.append_nil _
  | cons first batches ih =>
    simp only [List.cons_append, executed, List.foldl_cons, List.append_assoc]
    exact congrArg _ (ih (settle st first))

section Loop
variable {ω : Type} (t : TextMode) (io : UInt16) (scan : ω → ω) {k k' : Kernel ω}
  {sh : ShellState ω} {st : Line × Bool}

/- The state of the shell in a call that has handled these events. -/
structure Editing (sh : ShellState ω) (st : Line × Bool) (handled : List KeyEvent) : Prop where
  started : sh.start = false
  wellFormed : WellFormed sh.cmd
  line : lineOf sh.cmd = (presses handled).foldl press (if st.2 then emptyLine else st.1)
  ended : sh.endCommand = endsWithEnter (presses handled)

def Kernel.standing (k : Kernel ω) : Line × Bool :=
  (k.log.returned.map presses).foldl settle (emptyLine, false)

/- The events read, call by call. -/
def Kernel.calls (k : Kernel ω) : List (List KeyEvent) :=
  k.log.returned ++ match k.phase with
    | .call => []
    | _ => [k.log.current]

def Stands (k : Kernel ω) : Prop :=
  match k.phase with
  | .call => k.log.current = [] ∧ Standing k.shell k.standing.1 k.standing.2
  | .reading _ => Editing k.shell k.standing k.log.current
  | .handling ev => ∃ handled, k.log.current = handled ++ [ev] ∧ Editing k.shell k.standing handled

structure ShellInv (k : Kernel ω) : Prop where
  out : k.log.out = executed emptyLine false (k.calls.map presses)
  stands : Stands k

/-! ### The steps of the loop -/

theorem greeted (h : Standing sh st.1 st.2) :
    let sh₁ := if sh.start then welcome t sh else sh
    sh₁.start = false ∧ WellFormed sh₁.cmd ∧ lineOf sh₁.cmd = st.1 ∧ sh₁.endCommand = st.2 ∧
      sh₁.kbd = sh.kbd := by
  obtain ⟨hended, ⟨hstart, hline, -⟩ | ⟨hstart, hwf, hline⟩⟩ := h
  · rw [hstart]
    exact ⟨rfl, flushCommandLine_wellFormed _, hline.symm, hended, rfl⟩
  · rw [hstart]
    exact ⟨hstart, hwf, hline, hended, rfl⟩

/- A step that leaves the queue alone. -/
theorem loops_withShell (hirq : k'.irq = (k.withShell sh).irq) (hkbd : sh.kbd = k.keyboards.kbd)
    (hreader : k'.phase.reader = k.phase.reader) (hread : k'.log.read = k.log.read)
    (hinputs : k'.log.inputs = k.log.inputs) (hlost : k'.log.lost = k.log.lost) : Loops k k' := by
  have hkeyboards : k'.keyboards = {k.keyboards with kbd := sh.kbd, console := sh.cmd.console} :=
    congrArg (fun irq => irq.bus.keyboards) hirq
  refine ⟨?_, ?_, Or.inl ?_, hinputs, hlost⟩
  · rw [hkeyboards, hirq]
    rfl
  · rw [hkeyboards, hkbd]
    rfl
  · rw [Kernel.queue, hkeyboards, hkbd, hreader, hread]
    rfl

/- The beginning of `shell_main_loop`, with the command that was due. -/
theorem call_ok (hphase : k.phase = .call) (h : Standing k.shell st.1 st.2) :
    ∃ k', mainStep t scan k = some k' ∧ Loops k k' ∧ k'.phase = .reading .idle ∧
      k'.log = {k.log with out := k.log.out ++ due st} ∧ Editing k'.shell st [] := by
  obtain ⟨hstart, hwf, hline, hended, hkbd⟩ := greeted t h
  unfold mainStep
  simp only [hphase]
  generalize (if k.shell.start then welcome t k.shell else k.shell) = sh₁ at *
  have hreader : k.phase.reader = .idle := by rw [hphase]; rfl
  obtain ⟨l, ended⟩ := st
  cases ended with
  | false =>
    refine ⟨{k.withShell sh₁ with phase := .reading .idle}, ?_,
      loops_withShell rfl hkbd hreader.symm rfl rfl rfl, rfl, ?_, ⟨hstart, hwf, hline, hended⟩⟩
    · simp only [hended, Bool.false_eq_true, if_false]
      rfl
    · simp only [due, Bool.false_eq_true, if_false, List.append_nil]
      rfl
  | true =>
    obtain ⟨sh₂, hexec, hwf₂, hline₂, hended₂, hstart₂, hkbd₂⟩ := executeCommand_spec t scan sh₁ hwf
    refine ⟨{k.withShell sh₂ with
        phase := .reading .idle
        log := {k.log with out := k.log.out ++ [(lineOf sh₁.cmd).text]}}, ?_,
      loops_withShell rfl (hkbd₂.trans hkbd) hreader.symm rfl rfl rfl, rfl, ?_,
      ⟨hstart₂.trans hstart, hwf₂, hline₂, hended₂⟩⟩
    · simp only [hended, if_true, hexec, Option.bind_eq_bind, Option.bind_some]
      rfl
    · simp only [due, if_true, hline]

/- The queue is empty: the call returns. Otherwise the loop is about to copy. -/
theorem test_ok (hphase : k.phase = .reading .idle) :
    ∃ k', mainStep t scan k = some k' ∧ Loops k k' ∧ k'.shell = k.shell ∧
      (k'.phase = .call ∧ k'.log = k.log.finish ∨
        k'.phase = .reading .tested ∧ k'.log = k.log) := by
  unfold mainStep
  simp only [hphase]
  by_cases hempty : k.shell.kbd.events.head = k.shell.kbd.events.tail
  · rw [if_pos hempty]
    refine ⟨_, rfl, ⟨rfl, rfl, Or.inl ?_, rfl, rfl⟩, rfl, Or.inl ⟨rfl, rfl⟩⟩
    have hread : k.log.finish.read = k.log.read := by simp [Log.finish, Log.read]
    simp only [Kernel.queue, hread, hphase]
    rfl
  · rw [if_neg hempty]
    refine ⟨_, rfl, ⟨rfl, rfl, Or.inr ?_, rfl, rfl⟩, rfl, Or.inr ⟨rfl, rfl⟩⟩
    simp only [Kernel.queue, hphase]
    exact (if_neg hempty).symm

theorem copy_ok (hphase : k.phase = .reading .tested) :
    ∃ k', mainStep t scan k = some k' ∧ Loops k k' ∧ k'.shell = k.shell ∧ k'.log = k.log ∧
      ∃ ev, k'.phase = .reading (.copied ev) := by
  unfold mainStep
  simp only [hphase]
  refine ⟨_, rfl, ⟨rfl, rfl, Or.inr ?_, rfl, rfl⟩, rfl, rfl, _, rfl⟩
  simp only [Kernel.queue, hphase]
  rfl

theorem advance_ok {ev : KeyEvent} (hphase : k.phase = .reading (.copied ev)) :
    ∃ k', mainStep t scan k = some k' ∧ Loops k k' ∧
      k'.shell = {k.shell with kbd := {k.shell.kbd with events := k.shell.kbd.events.advance}} ∧
      k'.log = {k.log with current := k.log.current ++ [ev]} ∧ k'.phase = .handling ev := by
  unfold mainStep
  simp only [hphase]
  refine ⟨_, rfl, ⟨rfl, rfl, Or.inr ?_, rfl, rfl⟩, rfl, rfl, rfl⟩
  have hread : ({k.log with current := k.log.current ++ [ev]} : Log).read = k.log.read ++ [ev] :=
    (List.append_assoc ..).symm
  simp only [Kernel.queue, hread, hphase]
  rfl

theorem handle_ok {ev : KeyEvent} (hphase : k.phase = .handling ev) {handled : List KeyEvent}
    (h : Editing k.shell st handled) :
    ∃ k', mainStep t scan k = some k' ∧ Loops k k' ∧ k'.phase = .reading .idle ∧ k'.log = k.log ∧
      Editing k'.shell st (handled ++ [ev]) := by
  unfold mainStep
  simp only [hphase]
  have hreader : k.phase.reader = .idle := by rw [hphase]; rfl
  by_cases hpress : ev.type = .press
  · obtain ⟨r, hr, hd⟩ := handleCommandLine_spec t h.wellFormed ev.code
    have hcodes : presses (handled ++ [ev]) = presses handled ++ [ev.code] := by
      rw [presses_append, presses_cons, if_pos hpress]
      rfl
    refine ⟨{k.withShell {k.shell with cmd := r.2, endCommand := r.1} with phase := .reading .idle},
      ?_, loops_withShell rfl rfl hreader.symm rfl rfl rfl, rfl, rfl,
      ⟨h.started, hd.wellFormed h.wellFormed, ?_, ?_⟩⟩
    · rw [if_pos hpress, hr]
      rfl
    · rw [hcodes, List.foldl_concat, ← h.line]
      exact hd.line h.wellFormed
    · rw [hcodes, endsWithEnter, List.getLast?_concat, Bool.eq_iff_iff, decide_eq_true_iff,
        Option.some.injEq]
      exact hd.result_iff
  · have hcodes : presses (handled ++ [ev]) = presses handled := by
      rw [presses_append, presses_cons, if_neg hpress]
      exact List.append_nil _
    rw [if_neg hpress]
    refine ⟨_, rfl, ⟨rfl, rfl, Or.inl ?_, rfl, rfl⟩, rfl, rfl,
      ⟨h.started, h.wellFormed, hcodes ▸ h.line, hcodes ▸ h.ended⟩⟩
    simp only [Kernel.queue, hphase]
    rfl

/-! ### The invariant of the shell -/

theorem standing_congr (h : k'.log.returned = k.log.returned) : k'.standing = k.standing := by
  rw [Kernel.standing, h]
  rfl

/- In a call the output does not depend on what it has read. -/
theorem executed_calls (log : Log) (current : List KeyEvent) :
    executed emptyLine false ((log.returned ++ [current]).map presses) =
      executed emptyLine false (log.returned.map presses) ++
        due ((log.returned.map presses).foldl settle (emptyLine, false)) := by
  rw [List.map_append]
  exact executed_concat _ (emptyLine, false) _

theorem Editing.congr {sh' : ShellState ω} {handled : List KeyEvent} (h : Editing sh st handled)
    (hstart : sh'.start = sh.start) (hended : sh'.endCommand = sh.endCommand) {s : Console}
    (hcmd : sh'.cmd = {sh.cmd with console := s}) : Editing sh' st handled := by
  obtain ⟨hs, hwf, hline, he⟩ := h
  refine ⟨hstart.trans hs, ?_, ?_, hended.trans he⟩
  · rw [hcmd]
    exact ⟨hwf.cursor_le, hwf.len_le, hwf.noNul, hwf.terminated⟩
  · rw [hcmd]
    exact hline

theorem mainStep_ok (h : ShellInv k) :
    ∃ k', mainStep t scan k = some k' ∧ Loops k k' ∧ ShellInv k' := by
  obtain ⟨hout, hstands⟩ := h
  unfold Stands at hstands
  cases hphase : k.phase with
  | call =>
    rw [hphase] at hstands
    obtain ⟨k', hstep, hloops, hphase', hlog, hedit⟩ :=
      call_ok t scan hphase hstands.2
    have hreturned : k'.log.returned = k.log.returned := by rw [hlog]
    refine ⟨k', hstep, hloops, ?_, ?_⟩
    · rw [hlog, hout]
      simp only [Kernel.calls, hphase, hphase', hlog, List.append_nil]
      exact (executed_calls k.log k.log.current).symm
    · simp only [Stands, hphase', hlog, hstands.1]
      rw [standing_congr hreturned]
      exact hedit
  | reading reader =>
    rw [hphase] at hstands
    cases reader with
    | idle =>
      obtain ⟨k', hstep, hloops, hshell, ⟨hphase', hlog⟩ | ⟨hphase', hlog⟩⟩ :=
        test_ok t scan hphase
      · refine ⟨k', hstep, hloops, ?_, ?_⟩
        · simp only [Kernel.calls, hphase, hphase', hlog, Log.finish, List.append_nil] at hout ⊢
          exact hout
        · have hstanding : k'.standing = settle k.standing (presses k.log.current) := by
            simp [Kernel.standing, hlog, Log.finish]
          simp only [Stands, hphase', hlog, hstanding, hshell]
          exact ⟨rfl, hstands.ended, Or.inr ⟨hstands.started, hstands.wellFormed, hstands.line⟩⟩
      · refine ⟨k', hstep, hloops, ?_, ?_⟩
        · simp only [Kernel.calls, hphase, hphase', hlog] at hout ⊢
          exact hout
        · simp only [Stands, hphase', hlog, hshell]
          rw [standing_congr (congrArg Log.returned hlog)]
          exact hstands
    | tested =>
      obtain ⟨k', hstep, hloops, hshell, hlog, ev, hphase'⟩ := copy_ok t scan hphase
      refine ⟨k', hstep, hloops, ?_, ?_⟩
      · simp only [Kernel.calls, hphase, hphase', hlog] at hout ⊢
        exact hout
      · simp only [Stands, hphase', hlog, hshell]
        rw [standing_congr (congrArg Log.returned hlog)]
        exact hstands
    | copied ev =>
      obtain ⟨k', hstep, hloops, hshell, hlog, hphase'⟩ := advance_ok t scan hphase
      refine ⟨k', hstep, hloops, ?_, ?_⟩
      · simp only [Kernel.calls, hphase, hphase', hlog] at hout ⊢
        rw [hout, executed_calls, executed_calls]
      · have hreturned : k'.log.returned = k.log.returned := by rw [hlog]
        simp only [Stands, hphase', hlog]
        rw [standing_congr hreturned, hshell]
        exact ⟨k.log.current, rfl, hstands.congr rfl rfl rfl⟩
  | handling ev =>
    rw [hphase] at hstands
    obtain ⟨handled, hcurrent, hedit⟩ := hstands
    obtain ⟨k', hstep, hloops, hphase', hlog, hedit'⟩ :=
      handle_ok t scan hphase hedit
    refine ⟨k', hstep, hloops, ?_, ?_⟩
    · simp only [Kernel.calls, hphase, hphase', hlog] at hout ⊢
      exact hout
    · simp only [Stands, hphase', hlog, hcurrent]
      rw [standing_congr (congrArg Log.returned hlog)]
      exact hedit'

/- The handlers leave the editor alone, but for its console. -/
theorem ShellInv.receives {t : TextMode} (h : ShellInv k) {inputs : List Input}
    (hr : Receives t inputs k k') : ShellInv k' := by
  obtain ⟨hout, hstands⟩ := h
  have hreturned : k'.log.returned = k.log.returned := by rw [hr.log]; rfl
  have hcurrent : k'.log.current = k.log.current := by rw [hr.log]; rfl
  have hsame : k'.log.out = k.log.out := by rw [hr.log]; rfl
  have hcmd : k'.shell.cmd = {k.shell.cmd with console := k'.keyboards.console} := by
    show {k'.cmd with console := k'.keyboards.console} = _
    rw [hr.cmd]
    rfl
  refine ⟨?_, ?_⟩
  · rw [hsame, hout, Kernel.calls, Kernel.calls, hr.phase, hreturned, hcurrent]
  · unfold Stands at hstands ⊢
    rw [hr.phase, standing_congr hreturned, hcurrent]
    cases hphase : k.phase with
    | call =>
      rw [hphase] at hstands
      obtain ⟨hnil, hended, hcase⟩ := hstands
      refine ⟨hnil, hr.endCommand.trans hended, ?_⟩
      rcases hcase with ⟨hstart, hfirst⟩ | ⟨hstart, hwf, hline⟩
      · exact Or.inl ⟨hr.start.trans hstart, hfirst⟩
      · refine Or.inr ⟨hr.start.trans hstart, ?_, ?_⟩
        · rw [hcmd]
          exact ⟨hwf.cursor_le, hwf.len_le, hwf.noNul, hwf.terminated⟩
        · rw [hcmd]
          exact hline
    | reading reader =>
      rw [hphase] at hstands
      exact hstands.congr hr.start hr.endCommand hcmd
    | handling ev =>
      rw [hphase] at hstands
      obtain ⟨handled, hread, hedit⟩ := hstands
      exact ⟨handled, hread, hedit.congr hr.start hr.endCommand hcmd⟩

/-! ### Every run -/

structure KernelInv (start k : Kernel ω) : Prop where
  keys : KeysInv start k
  shell : ShellInv k

theorem kernelStep_ok {start : Kernel ω} (h : KernelInv start k) (a : KernelAction) :
    ∃ k', kernelStep t io scan k a = some k' ∧ KernelInv start k' := by
  cases a with
  | usb a =>
    have hreceives := usbStep_receives t io k a
    have hbus := (irqStep_latch t io h.keys.bus a.val).1
    exact ⟨_, rfl, h.keys.receives hreceives hbus, h.shell.receives hreceives⟩
  | ps2 sc =>
    unfold kernelStep
    cases k.irq.phase with
    | idle =>
      have hreceives := ps2Step_receives t k sc
      exact ⟨_, rfl, h.keys.receives hreceives (busInv_keyboards h.keys.bus _),
        h.shell.receives hreceives⟩
    | statusRead st => exact ⟨k, rfl, h⟩
    | servicing pipes => exact ⟨k, rfl, h⟩
  | main =>
    unfold kernelStep
    cases k.irq.phase with
    | idle =>
      obtain ⟨k', hstep, hloops, hshell⟩ := mainStep_ok t scan h.shell
      exact ⟨k', hstep, h.keys.loops hloops, hshell⟩
    | statusRead st => exact ⟨k, rfl, h⟩
    | servicing pipes => exact ⟨k, rfl, h⟩

theorem kernelRun_ok {start : Kernel ω} (h : KernelInv start k) (actions : List KernelAction) :
    ∃ k', kernelRun t io scan k actions = some k' ∧ KernelInv start k' := by
  induction actions generalizing k with
  | nil => exact ⟨k, rfl, h⟩
  | cons a actions ih =>
    obtain ⟨k₁, hstep, h₁⟩ := kernelStep_ok t io scan h a
    obtain ⟨k', hrun, h'⟩ := ih h₁
    refine ⟨k', ?_, h'⟩
    rw [kernelRun, Run.exec, hstep]
    exact hrun

theorem kernelInv_start {irq : IrqSystem} (hbus : BusInv irq.bus) (keyboards : KeyboardSystem)
    (cmd : CmdState) (usb : ω) :
    KernelInv (kernelStart irq keyboards cmd usb) (kernelStart irq keyboards cmd usb) := by
  have hempty : (kernelStart irq keyboards cmd usb).queue.stored = [] := Ring.contents_of_empty rfl
  refine ⟨⟨busInv_keyboards hbus _, fun i => (List.append_nil _).symm, rfl, trivial, ?_,
    Or.inl rfl⟩, rfl, rfl, rfl, Or.inl ⟨rfl, rfl, rfl⟩⟩
  rw [hempty]
  exact .nil

end Loop

section Runs
variable {ω : Type} (t : TextMode) (io : UInt16) (scan : ω → ω) (heap : Addr → Option Object)
  (before keyboards : KeyboardSystem) (usbsts : UInt16) (boot : List IrqAction) (cmd : CmdState)
  (usb : ω) (actions : List KernelAction)

/- The loop of `kernel_main` is reached after any steps of the host controllers. -/
def booted : Kernel ω :=
  kernelStart (irqRun t io (irqStart heap before usbsts) boot) keyboards cmd usb

theorem kernelInv_booted :
    KernelInv (booted t io heap before keyboards usbsts boot cmd usb)
      (booted t io heap before keyboards usbsts boot cmd usb) :=
  kernelInv_start (irqRun_latch t io boot (s := irqStart heap before usbsts)
    (busRun_ok t heap before [])).1 keyboards cmd usb

/- Between two calls, the last of which has found nothing. -/
def Kernel.atRest (k : Kernel ω) : Bool :=
  match k.phase with
  | .call => k.log.returned.getLast? = some [] ∧
      k.keyboards.kbd.events.head = k.keyboards.kbd.events.tail
  | _ => false

/-- What the shell has executed are the commands of its calls; and when it is at rest and
no event has been lost, they are the commands that were typed, exactly if no call has read
a press behind an ENTER. -/
theorem typed_commands {k : Kernel ω}
    (hrun : kernelRun t io scan (booted t io heap before keyboards usbsts boot cmd usb) actions =
      some k) :
    k.log.out = executed emptyLine false (k.calls.map presses) ∧
      (k.atRest = true → k.log.lost = 0 →
        (k.log.out = commands emptyLine (presses ((decoderOf
          (booted t io heap before keyboards usbsts boot cmd usb).keyboards).decode k.log.inputs)) ↔
          ∀ events ∈ k.log.returned, EnterLast (presses events))) := by
  obtain ⟨k', hrun', hinv⟩ := kernelRun_ok t io scan
    (kernelInv_booted t io heap before keyboards usbsts boot cmd usb) actions
  have hsame : k' = k := Option.some.inj (hrun'.symm.trans hrun)
  subst hsame
  obtain ⟨hkeys, hout, hstands⟩ := hinv
  refine ⟨hout, fun hrest hlost => ?_⟩
  unfold Kernel.atRest at hrest
  unfold Stands at hstands
  cases hphase : k'.phase with
  | reading reader =>
    rw [hphase] at hrest
    cases hrest
  | handling ev =>
    rw [hphase] at hrest
    cases hrest
  | call =>
    rw [hphase] at hrest hstands
    obtain ⟨hlast, hempty⟩ := of_decide_eq_true hrest
    obtain ⟨calls, hreturned⟩ := List.getLast?_eq_some_iff.mp hlast
    have hkept := hkeys.kept
    rw [hlost] at hkept
    have hall := hkept.eq_of_zero
    have hread : k'.queue.stored = calls.flatten := by
      simp [Channel.stored, Kernel.queue, Log.read, hstands.1, hreturned,
        Ring.contents_of_empty hempty]
    rw [hread] at hall
    have hiff := executed_eq_iff (calls.map presses) 0
    rw [List.forall_mem_map, ← presses_flatten, hall] at hiff
    have hbatches : k'.calls.map presses = calls.map presses ++ List.replicate 1 [] := by
      simp [Kernel.calls, hphase, hreturned, presses]
    rw [hout, hbatches, hiff, hreturned, List.forall_mem_append, List.forall_mem_singleton]
    exact ⟨fun h => ⟨h, List.not_mem_nil⟩, And.left⟩

end Runs

/- One USB keyboard and its pipe. -/
def oneKeyboard : KeyboardSystem :=
  (keyboardRegisterUsbBootKeyboard (noKeyboards biosConsole) 1 0x81 10 8).2

def pipeToIt : OpenRequest := ⟨⟨0x2010, 0x2020, 0x2030, 0⟩, 0xC000, 1, 0x81, 128, 8, 0⟩

/- The usage 4 in the first slot. -/
def reportOfA : Report := fun i => if i.val = 2 then 4 else 0

theorem firstPipe_lt : 0 < uhciMaxKbdPipes := by decide
def firstPipe : Fin uhciMaxKbdPipes := ⟨0, firstPipe_lt⟩

theorem opensPipe_data (report : Report) (cause : StatusCause) :
    opensPipe (.data firstPipe report 0 cause) = false := rfl
theorem opensPipe_setStatus (k : ℕ) : opensPipe (.setStatus k) = false := rfl
theorem opensPipe_handler : opensPipe .handler = false := rfl

def sends (report : Report) (cause : StatusCause) : KernelAction :=
  .usb ⟨.data firstPipe report 0 cause, opensPipe_data report cause⟩
def setsStatus (k : ℕ) : KernelAction := .usb ⟨.setStatus k, opensPipe_setStatus k⟩
def handler : KernelAction := .usb ⟨.handler, opensPipe_handler⟩

/- A key of the USB keyboard, then ENTER of the PS/2 keyboard; the loop runs in between. -/
def keyThenEnter : List KernelAction :=
  [.main, sends reportOfA .usbint, setsStatus 0, handler, handler, .ps2 0x1C, handler, .main, handler,
    handler, handler, handler] ++ List.replicate 4 .main ++ [.ps2 0x1C] ++ List.replicate 7 .main

def bootedForTwo : Kernel Unit :=
  booted vgaText 0xC000 (fun _ => none) (noKeyboards biosConsole) oneKeyboard 0 [.openPipe pipeToIt]
    ⟨fun _ => 0, 0, 0, 0, biosConsole⟩ ()

theorem keyThenEnter_runs :
    (kernelRun vgaText 0xC000 id bootedForTwo keyThenEnter).isSome = true := by
  decide +kernel

def afterKeyAndEnter : Kernel Unit :=
  (kernelRun vgaText 0xC000 id bootedForTwo keyThenEnter).get keyThenEnter_runs

theorem key_then_enter :
    afterKeyAndEnter.log.out = [[113]] ∧
      (afterKeyAndEnter.log.out = commands emptyLine
        (presses ((decoderOf bootedForTwo.keyboards).decode afterKeyAndEnter.log.inputs)) ↔
          ∀ events ∈ afterKeyAndEnter.log.returned, EnterLast (presses events)) := by
  have hget : kernelRun vgaText 0xC000 id bootedForTwo keyThenEnter = some afterKeyAndEnter :=
    (Option.some_get keyThenEnter_runs).symm
  have hrun := typed_commands (k := afterKeyAndEnter) vgaText 0xC000 id (fun _ => none)
    (noKeyboards biosConsole) oneKeyboard 0 [.openPipe pipeToIt]
    ⟨fun _ => 0, 0, 0, 0, biosConsole⟩ () keyThenEnter hget
  have hrest : afterKeyAndEnter.atRest = true := by decide +kernel
  have hlost : afterKeyAndEnter.log.lost = 0 := by decide +kernel
  exact ⟨by decide +kernel, hrun.2 hrest hlost⟩

end CasseOS.System
