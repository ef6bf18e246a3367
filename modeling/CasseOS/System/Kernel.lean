import CasseOS.Lib.Run
import CasseOS.Shell.Batching
import CasseOS.System.Decoding
import CasseOS.Usb.Handler

/-! # The kernel from its keyboards to its shell (`kernel/kernel.c:38-40`)

`kernel_main` calls `shell_main_loop` over and over; the handlers of the UHCI
controller and of IRQ1 run in between, wherever they do. The loop and the handlers
share the key queue, which the loop reads in the steps of `kbd_read_event`. With
auto echo off, as nothing turns it on, they share nothing else: each other stretch of
the loop is one step. -/

namespace CasseOS.System
open Keyboard Screen Shell Usb

/- Where the loop stands. -/
inductive LoopPhase where
  /-- Before a call of `shell_main_loop`. -/
  | call
  /-- In `kbd_read_event`. -/
  | reading (reader : Reader KeyEvent)
  /-- It has read the event. -/
  | handling (ev : KeyEvent)

structure Log where
  inputs : List Input
  /-- The number of events that found the queue full. -/
  lost : ℕ
  /-- What the calls that have returned have read. -/
  returned : List (List KeyEvent)
  /-- What the call that runs has read. -/
  current : List KeyEvent
  /-- The commands executed. -/
  out : List (List UInt8)

def Log.read (log : Log) : List KeyEvent := log.returned.flatten ++ log.current

structure Kernel (ω : Type) where
  irq : IrqSystem
  /-- The line editor; its console is the one the keyboard layer prints on. -/
  cmd : CmdState
  endCommand : Bool
  start : Bool
  /-- What `pci_scan_for_usb_controllers` writes. -/
  usb : ω
  phase : LoopPhase
  log : Log

namespace Kernel
variable {ω : Type}

def keyboards (k : Kernel ω) : KeyboardSystem := k.irq.bus.keyboards

def withKeyboards (k : Kernel ω) (keyboards : KeyboardSystem) : Kernel ω :=
  {k with irq := {k.irq with bus := {k.irq.bus with keyboards}}}

def shell (k : Kernel ω) : ShellState ω :=
  ⟨k.keyboards.kbd, {k.cmd with console := k.keyboards.console}, k.endCommand, k.start, k.usb⟩

def withShell (k : Kernel ω) (sh : ShellState ω) : Kernel ω :=
  {k.withKeyboards {k.keyboards with kbd := sh.kbd, console := sh.cmd.console} with
    cmd := sh.cmd, endCommand := sh.endCommand, start := sh.start, usb := sh.usb}

end Kernel

section Steps
variable {ω : Type} (t : TextMode) (io : UInt16) (scan : ω → ω)

/- A call of `shell_main_loop` returns. -/
def Log.finish (log : Log) : Log :=
  {log with returned := log.returned ++ [log.current], current := []}

/-- One step of the loop: `shell_main_loop` up to its own loop, a step of
`kbd_read_event`, or an event (`shell.c:19-50`). -/
def mainStep (k : Kernel ω) : Option (Kernel ω) :=
  let sh := k.shell
  match k.phase with
  | .call => do
    let sh := if sh.start then welcome t sh else sh
    if sh.endCommand then
      let (command, sh) ← executeCommand t scan sh
      return {k.withShell sh with
        phase := .reading .idle
        log := {k.log with out := k.log.out ++ [command]}}
    return {k.withShell sh with phase := .reading .idle}
  | .reading .idle =>
    if sh.kbd.events.head = sh.kbd.events.tail then
      some {k with phase := .call, log := k.log.finish}
    else some {k with phase := .reading .tested}
  | .reading .tested =>
    some {k with phase := .reading (.copied (sh.kbd.events.buf sh.kbd.events.tail))}
  | .reading (.copied ev) =>
    some {k.withShell {sh with kbd := {sh.kbd with events := sh.kbd.events.advance}} with
      phase := .handling ev
      log := {k.log with current := k.log.current ++ [ev]}}
  | .handling ev =>
    if ev.type = .press then do
      let (endCommand, cmd) ← handleCommandLine t sh.cmd ev.code
      return {k.withShell {sh with cmd, endCommand} with phase := .reading .idle}
    else some {k with phase := .reading .idle}

/- How many events the queue has room for. -/
def Kernel.room (k : Kernel ω) : ℕ := keybufCap - 1 - k.keyboards.kbd.events.used

def Kernel.receives (k : Kernel ω) (inputs : List Input) : Log :=
  {k.log with
    inputs := k.log.inputs ++ inputs
    lost := k.log.lost + (((decoderOf k.keyboards).decode inputs).length - k.room)}

def opensPipe : IrqAction → Bool
  | .openPipe _ => true
  | _ => false

/- Pipes are opened at boot only, before `kernel_main` gets to its loop. -/
def DeviceAction : Type := {a : IrqAction // opensPipe a = false}

/- What the next step of `uhci_irq_top` passes to the keyboard layer. -/
def served (s : IrqSystem) : IrqAction → List Input
  | .handler =>
    match s.phase with
    | .servicing (i :: _) =>
      (pending s.bus i).map (Input.report i (s.bus.uhci.pipes i).devIndex.toNat)
    | _ => []
  | _ => []

def usbStep (k : Kernel ω) (a : DeviceAction) : Kernel ω :=
  {k with irq := irqStep t io k.irq a.val, log := k.receives (served k.irq a.val)}

/-- IRQ1 (`keyboard_common.c:316-361`). -/
def ps2Step (k : Kernel ω) (sc : UInt8) : Kernel ω :=
  {k.withKeyboards (receive t k.keyboards (.scan sc)) with log := k.receives [.scan sc]}

inductive KernelAction where
  | usb (a : DeviceAction)
  | ps2 (sc : UInt8)
  | main

/- Handlers run with interrupts disabled: while `uhci_irq_top` does, neither IRQ1 nor
the loop gets to run. -/
def kernelStep (k : Kernel ω) : KernelAction → Option (Kernel ω)
  | .usb a => some (usbStep t io k a)
  | .ps2 sc =>
    match k.irq.phase with
    | .idle => some (ps2Step t k sc)
    | _ => some k
  | .main =>
    match k.irq.phase with
    | .idle => mainStep t scan k
    | _ => some k

def kernelRun (k : Kernel ω) (actions : List KernelAction) : Option (Kernel ω) :=
  Run.exec (kernelStep t io scan) k actions

/- After `usb_enumerate_devices` and `kbd_subsystem_init`. -/
def kernelStart (irq : IrqSystem) (keyboards : KeyboardSystem) (cmd : CmdState) (usb : ω) :
    Kernel ω :=
  Kernel.withKeyboards ⟨irq, cmd, false, true, usb, .call, ⟨[], 0, [], [], []⟩⟩
    {keyboards with kbd := kbdSubsystemInit keyboards.kbd}

end Steps

/-! ### Reports on their way -/

def Input.reportOf (i : Fin uhciMaxKbdPipes) : Input → Option Report
  | .report pipe _ sent => if pipe = i then some sent else none
  | .scan _ => none

def reportsOf (i : Fin uhciMaxKbdPipes) (inputs : List Input) : List Report :=
  inputs.filterMap (Input.reportOf i)

theorem reportsOf_append (i : Fin uhciMaxKbdPipes) (inputs later : List Input) :
    reportsOf i (inputs ++ later) = reportsOf i inputs ++ reportsOf i later :=
  List.filterMap_append

theorem reportsOf_map (i pipe : Fin uhciMaxKbdPipes) (devIndex : ℤ) (reports : List Report) :
    reportsOf i (reports.map (Input.report pipe devIndex)) = if pipe = i then reports else [] := by
  unfold reportsOf
  rw [List.filterMap_map]
  split
  · next heq =>
    have hsome : Input.reportOf i ∘ Input.report pipe devIndex = some := by
      funext report
      exact if_pos heq
    rw [hsome, List.filterMap_some]
  · next hne =>
    have hnone : Input.reportOf i ∘ Input.report pipe devIndex = fun _ => none := by
      funext report
      exact if_neg hne
    rw [hnone, List.filterMap_none]

section Service
variable (t : TextMode) (bus : KbdBus) (i : Fin uhciMaxKbdPipes)

theorem servicePipe_eq : servicePipe t bus i =
    match tdOf bus i with
    | some td =>
      if td.controlStatus &&& tdActive ≠ 0 then bus
      else if td.controlStatus &&& tdNak ≠ 0 then rearm i false bus
      else if td.controlStatus &&& tdErrMask ≠ 0 then rearm i false bus
      else rearm i true (deliver t i bus)
    | none => bus := by
  unfold servicePipe tdOf
  cases hi : (bus.uhci.pipes i).inUse with
  | false => simp [hi]
  | true =>
    simp only [hi, Bool.true_eq_false, if_false, if_true]
    split <;> simp_all

/- The visit of a pipe passes on the report that is there, if there is one. -/
theorem servicePipe_serves :
    (servicePipe t bus i).keyboards = ((pending bus i).map
        (Input.report i (bus.uhci.pipes i).devIndex.toNat)).foldl (receive t) bus.keyboards ∧
      (servicePipe t bus i).delivered =
        Function.update bus.delivered i (bus.delivered i ++ pending bus i) := by
  rw [servicePipe_eq, pending]
  cases tdOf bus i with
  | none => simp
  | some td =>
    dsimp only
    by_cases hdata : dataStatus td.controlStatus = true
    · obtain ⟨hactive, hnak, herr⟩ := of_decide_eq_true hdata
      rw [if_pos hdata, hactive, hnak, herr]
      exact ⟨rfl, rfl⟩
    · have hnone : Function.update bus.delivered i (bus.delivered i ++ []) = bus.delivered := by
        rw [List.append_nil, Function.update_eq_self]
      rw [if_neg hdata, hnone]
      split
      · exact ⟨rfl, rfl⟩
      · split
        · exact ⟨rfl, rfl⟩
        · split
          · exact ⟨rfl, rfl⟩
          · next hactive hnak herr =>
            rw [not_not] at hactive hnak herr
            exact absurd (decide_eq_true ⟨hactive, hnak, herr⟩) hdata

end Service

end CasseOS.System
