import CasseOS.Keyboard.Common
import CasseOS.Shell.Editor

/-! # The shell (`kernel/shell/shell.c`)

`shell_main_loop` is called over and over by the kernel. A call first executes
the command a previous call has seen the end of, and then drains the event
queue into the line editor. Its output here is the list of command strings it
executes. The tables `pci_scan_for_usb_controllers` fills are a parameter of
the model: the shell only calls it. -/

namespace CasseOS.Shell
open CInt Keyboard Screen

structure ShellState (ω : Type) where
  kbd : Kbd
  cmd : CmdState
  endCommand : Bool
  start : Bool
  /-- What `pci_scan_for_usb_controllers` writes. -/
  usb : ω

def bytes (s : String) : List UInt8 := s.toUTF8.toList

/-- `strcmp` (`string.c:105-111`) on the bytes before the NULs. -/
def strcmp : List UInt8 → List UInt8 → ℤ
  | [], [] => 0
  | [], b :: _ => -b.toInt8.toInt
  | a :: _, [] => a.toInt8.toInt
  | a :: s1, b :: s2 => if a = b then strcmp s1 s2 else a.toInt8.toInt - b.toInt8.toInt

section MainLoop
variable {ω : Type} (t : TextMode) (scan : ω → ω)

/- `init_command_line(get_cursor_offset()/2); flush_command_line(command)`. -/
def promptLine (st : CmdState) : CmdState :=
  let (offset, s) := getCursorOffset st.console
  flushCommandLine (initCommandLine {st with console := s} (offset.tdiv 2))

/-- The first call (`shell.c:20-25`). -/
def welcome (sh : ShellState ω) : ShellState ω :=
  let s := kprint t sh.cmd.console (bytes "Welcome to CasseOS Shell!\n>")
  {sh with cmd := promptLine {sh.cmd with console := s}, start := false}

/-- Execution of a finished command (`shell.c:26-42`). -/
def executeCommand (sh : ShellState ω) : Option (List UInt8 × ShellState ω) := do
  let s := kprint t sh.cmd.console (bytes "\n")
  let command ← commandString sh.cmd.command
  let (usb, s) :=
    if strcmp command (bytes "usb_scan") = 0 then
      (scan sh.usb, kprint t s (bytes "Executing the scan...\n"))
    else
      let s := kprint t s (bytes "Incorrect command: '")
      let s := kprint t s command
      (sh.usb, kprint t s (bytes "'\n"))
  let s := kprint t s (bytes ">")
  return (command, {sh with cmd := promptLine {sh.cmd with console := s}, endCommand := false, usb})

/-- The loop that drains the queue (`shell.c:45-49`). -/
def drainEvents : ℕ → ShellState ω → Option (ShellState ω)
  | 0, _ => none
  | fuel + 1, sh =>
    match kbdReadEvent sh.kbd with
    | none => some sh
    | some (ev, kbd) =>
      if ev.type = .press then do
        let (endCommand, cmd) ← handleCommandLine t sh.cmd ev.code
        drainEvents fuel {sh with kbd, cmd, endCommand}
      else drainEvents fuel {sh with kbd}

/-- `shell_main_loop` (`shell.c:19-50`); the queue holds fewer than
`KEYBUF_CAP` events, which bounds the drain loop. -/
def shellMainLoop (sh : ShellState ω) : Option (List (List UInt8) × ShellState ω) := do
  let sh := if sh.start then welcome t sh else sh
  if sh.endCommand then
    let (command, sh) ← executeCommand t scan sh
    let sh ← drainEvents t keybufCap sh
    return ([command], sh)
  let sh ← drainEvents t keybufCap sh
  return ([], sh)

/-! ### Runs -/

/- The events that are pending at one call: what the queue can hold. -/
structure Batch where
  events : List KeyEvent
  fits : events.length < keybufCap

def Batch.empty : Batch := ⟨[], by decide⟩

def dispatchAll (sh : ShellState ω) (events : List KeyEvent) : ShellState ω :=
  events.foldl (fun sh ev =>
    let (kbd, s) := kbdDispatchEvent t sh.kbd sh.cmd.console ev
    {sh with kbd, cmd := {sh.cmd with console := s}}) sh

/- Successive calls of `shell_main_loop`, each with its batch of events. -/
def shellRun : ShellState ω → List Batch → Option (List (List UInt8) × ShellState ω)
  | sh, [] => some ([], sh)
  | sh, batch :: batches => do
    let (out, sh) ← shellMainLoop t scan (dispatchAll t sh batch.events)
    let (outs, sh) ← shellRun sh batches
    return (out ++ outs, sh)

/- The shell as the kernel first calls it. -/
def boot (sh : ShellState ω) : ShellState ω :=
  {sh with kbd := kbdSubsystemInit sh.kbd, endCommand := false, start := true}

end MainLoop

end CasseOS.Shell
