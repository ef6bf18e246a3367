import CasseOS.Keyboard.Common
import CasseOS.Lib.Channel
import CasseOS.Screen.VgaConsole

/-! # The key queues under interrupts

`kbd_read_event` and `kbd_read_char` test their queue, copy a slot and move the
tail; an interrupt may dispatch an event between any two of these steps. Both
queues are FIFOs all the same: what is read and what is still queued are the
dispatched events in order, but for those that found 255 unread. -/

namespace CasseOS.Keyboard
open Screen

/-- `kbd_read_char` (`keyboard_common.c:174-179`). -/
def kbdReadChar (k : Kbd) : UInt8 × Kbd :=
  match k.ascii.pop with
  | some (c, r) => (c, {k with ascii := r})
  | none => (0, k)

/- The keyboard layer and where its two readers are. -/
structure QueueSystem where
  kbd : Kbd
  console : Console
  eventReader : Reader KeyEvent
  /-- The events `kbd_read_event` has returned. -/
  eventsRead : List KeyEvent
  charReader : Reader UInt8
  /-- The characters `kbd_read_char` has returned. -/
  charsRead : List UInt8

namespace QueueSystem

def events (sys : QueueSystem) : Channel keybufCap KeyEvent :=
  ⟨sys.kbd.events, sys.eventReader, sys.eventsRead⟩

def chars (sys : QueueSystem) : Channel keybufCap UInt8 :=
  ⟨sys.kbd.ascii, sys.charReader, sys.charsRead⟩

def setEvents (sys : QueueSystem) (c : Channel keybufCap KeyEvent) : QueueSystem :=
  {sys with kbd := {sys.kbd with events := c.ring}, eventReader := c.reader, eventsRead := c.read}

def setChars (sys : QueueSystem) (c : Channel keybufCap UInt8) : QueueSystem :=
  {sys with kbd := {sys.kbd with ascii := c.ring}, charReader := c.reader, charsRead := c.read}

end QueueSystem

/- An interrupt that dispatches an event, or the next step of a reader. -/
inductive QueueAction where
  | dispatch (ev : KeyEvent)
  | readEvent
  | readChar

def queueStep (t : TextMode) (sys : QueueSystem) : QueueAction → QueueSystem
  | .dispatch ev =>
    let ks := kbdDispatchEvent t sys.kbd sys.console ev
    {sys with kbd := ks.1, console := ks.2}
  | .readEvent => sys.setEvents sys.events.readStep
  | .readChar => sys.setChars sys.chars.readStep

def queueRun (t : TextMode) (sys : QueueSystem) (actions : List QueueAction) : QueueSystem :=
  actions.foldl (queueStep t) sys

/- After `kbd_subsystem_init`, before any read. -/
def queueStart (k : Kbd) (s : Console) : QueueSystem := ⟨kbdSubsystemInit k, s, .idle, [], .idle, []⟩

/-! ### Reads without interrupts -/

theorem readEvent_uninterrupted (t : TextMode) (sys : QueueSystem) (h : sys.eventReader = .idle) :
    queueRun t sys [.readEvent, .readEvent, .readEvent] =
      match kbdReadEvent sys.kbd with
      | some (e, kbd) => {sys with kbd, eventReader := .idle, eventsRead := sys.eventsRead ++ [e]}
      | none => sys := by
  have hsteps : queueRun t sys [.readEvent, .readEvent, .readEvent] =
      sys.setEvents sys.events.readStep.readStep.readStep := rfl
  have hring : sys.events.ring.pop = sys.kbd.events.pop := rfl
  rw [hsteps, Channel.readStep_thrice h, kbdReadEvent, hring]
  cases sys.kbd.events.pop with
  | some er => rfl
  | none => rfl

theorem readChar_uninterrupted (t : TextMode) (sys : QueueSystem) (h : sys.charReader = .idle)
    (hchar : sys.kbd.ascii.contents ≠ []) :
    queueRun t sys [.readChar, .readChar, .readChar] =
      {sys with kbd := (kbdReadChar sys.kbd).2, charReader := .idle,
                charsRead := sys.charsRead ++ [(kbdReadChar sys.kbd).1]} := by
  have hsteps : queueRun t sys [.readChar, .readChar, .readChar] =
      sys.setChars sys.chars.readStep.readStep.readStep := rfl
  have hring : sys.chars.ring.pop = sys.kbd.ascii.pop := rfl
  obtain ⟨c, r, hpop, -⟩ := Ring.pop_contents (Channel.ne_of_contents (c := sys.chars) hchar)
  rw [hring] at hpop
  rw [hsteps, Channel.readStep_thrice h, kbdReadChar, hring, hpop]
  rfl

/-! ### What is offered to the queues -/

/- The dispatched event, with the modifier word right after it. -/
def offeredEvent (t : TextMode) (sys : QueueSystem) : QueueAction → Option KeyEvent
  | .dispatch ev =>
    some {ev with mods := kbdModsState (queueStep t sys (.dispatch ev)).kbd}
  | _ => none

/- The code of a dispatched press, if it is an ASCII code other than 0. -/
def offeredChar (_ : QueueSystem) : QueueAction → Option UInt8
  | .dispatch ev =>
    if ev.type = .press ∧ 0 < ev.code ∧ ev.code < 0x80 then some ev.code.toUInt8 else none
  | _ => none

/- The events dispatched while fewer than 255 were unread. -/
def acceptedEvents (t : TextMode) (sys : QueueSystem) (actions : List QueueAction) :
    List KeyEvent :=
  accepted (queueStep t) QueueSystem.events (offeredEvent t) sys 0 actions

/- The characters, likewise. -/
def acceptedChars (t : TextMode) (sys : QueueSystem) (actions : List QueueAction) : List UInt8 :=
  accepted (queueStep t) QueueSystem.chars offeredChar sys 0 actions

theorem dispatch_ascii (t : TextMode) (k : Kbd) (s : Console) (ev : KeyEvent) :
    (kbdDispatchEvent t k s ev).1.ascii =
      if ev.type = .press ∧ 0 < ev.code ∧ ev.code < 0x80 then k.ascii.push ev.code.toUInt8
      else k.ascii := by
  have hzero : ev.code < 0x80 → (ev.code.toUInt8 = 0 ↔ ¬ 0 < ev.code) := by
    intro hlt
    rw [UInt16.lt_iff_toNat_lt] at hlt ⊢
    rw [← UInt8.toNat_inj, UInt16.toNat_toUInt8]
    have h128 : (128 : UInt16).toNat = 128 := rfl
    simp only [UInt16.toNat_zero, UInt8.toNat_zero]
    omega
  unfold kbdDispatchEvent pushAscii
  dsimp only
  split
  next hpress =>
    have hchar := hzero hpress.2
    split
    next hz =>
      rw [if_neg fun h => hchar.mp hz h.2.1]
      rfl
    next hnz =>
      have hpos : ev.type = .press ∧ 0 < ev.code ∧ ev.code < 0x80 :=
        ⟨hpress.1, not_not.mp (hchar.not.mp hnz), hpress.2⟩
      rw [if_pos hpos]
      rfl
  next hpress =>
    rw [if_neg fun h => hpress ⟨h.1, h.2.2⟩]
    rfl

theorem events_driven (t : TextMode) :
    Drives (queueStep t) QueueSystem.events (offeredEvent t) := by
  intro sys a
  cases a with
  | dispatch ev =>
    have hevents := dispatch_events t sys.kbd sys.console ev
    have hmods := dispatch_mods t sys.kbd sys.console ev
    rw [← hmods] at hevents
    exact congrArg (fun r => (⟨r, sys.eventReader, sys.eventsRead⟩ : Channel _ _)) hevents
  | readEvent => exact Or.inr rfl
  | readChar => exact Or.inl rfl

theorem chars_driven (t : TextMode) : Drives (queueStep t) QueueSystem.chars offeredChar := by
  intro sys a
  cases a with
  | dispatch ev =>
    have hascii := dispatch_ascii t sys.kbd sys.console ev
    have hview := congrArg (fun r => (⟨r, sys.charReader, sys.charsRead⟩ : Channel _ _)) hascii
    by_cases hpress : ev.type = .press ∧ 0 < ev.code ∧ ev.code < 0x80
    · simp only [offeredChar, if_pos hpress] at hview ⊢
      exact hview
    · simp only [offeredChar, if_neg hpress] at hview ⊢
      exact Or.inl hview
  | readEvent => exact Or.inl rfl
  | readChar => exact Or.inr rfl

/-! ### Reads under interrupts -/

def QueueAction.readsEvent : QueueAction → Bool
  | .readEvent => true
  | _ => false

def QueueAction.readsChar : QueueAction → Bool
  | .readChar => true
  | _ => false

theorem events_readBy (t : TextMode) :
    ReadBy (queueStep t) QueueSystem.events QueueAction.readsEvent := by
  intro sys a
  cases a with
  | dispatch ev => exact Or.inr ⟨_, events_driven t sys (.dispatch ev)⟩
  | readEvent => exact rfl
  | readChar => exact Or.inl rfl

theorem chars_readBy (t : TextMode) :
    ReadBy (queueStep t) QueueSystem.chars QueueAction.readsChar := by
  intro sys a
  cases a with
  | dispatch ev =>
    have hascii := dispatch_ascii t sys.kbd sys.console ev
    have hview := congrArg (fun r => (⟨r, sys.charReader, sys.charsRead⟩ : Channel _ _)) hascii
    split at hview
    · exact Or.inr ⟨_, hview⟩
    · exact Or.inl hview
  | readEvent => exact Or.inl rfl
  | readChar => exact rfl

/- The readers deliver. With something unread, the third step of a call returns the
oldest, whatever is dispatched and whatever the other reader does in between; a call
that nothing interrupts is the function of the source. -/
structure ReadsDeliver (t : TextMode) (sys : QueueSystem) : Prop where
  event : ∀ e rest more, sys.kbd.events.contents = e :: rest →
    sys.eventReader.stage + more.countP QueueAction.readsEvent = 3 →
    (queueRun t sys more).eventsRead = sys.eventsRead ++ [e] ∧
      (queueRun t sys more).eventReader = .idle
  char : ∀ c rest more, sys.kbd.ascii.contents = c :: rest →
    sys.charReader.stage + more.countP QueueAction.readsChar = 3 →
    (queueRun t sys more).charsRead = sys.charsRead ++ [c] ∧
      (queueRun t sys more).charReader = .idle
  readEvent : sys.eventReader = .idle →
    queueRun t sys [.readEvent, .readEvent, .readEvent] =
      match kbdReadEvent sys.kbd with
      | some (e, kbd) => {sys with kbd, eventReader := .idle, eventsRead := sys.eventsRead ++ [e]}
      | none => sys
  readChar : sys.charReader = .idle → sys.kbd.ascii.contents ≠ [] →
    queueRun t sys [.readChar, .readChar, .readChar] =
      {sys with kbd := (kbdReadChar sys.kbd).2, charReader := .idle,
                charsRead := sys.charsRead ++ [(kbdReadChar sys.kbd).1]}

theorem readsDeliver (t : TextMode) {sys : QueueSystem} (hevents : sys.events.Ok)
    (hchars : sys.chars.Ok) : ReadsDeliver t sys where
  event _ _ _ hcontents hcount := delivered_run (events_readBy t) hevents hcontents hcount
  char _ _ _ hcontents hcount := delivered_run (chars_readBy t) hchars hcontents hcount
  readEvent := readEvent_uninterrupted t sys
  readChar := readChar_uninterrupted t sys

/-- For every interleaving of dispatches with the steps of the two readers, the
events read, followed by those still queued, are the accepted events in order, and
likewise for the characters; and each call of a reader delivers the oldest one that is
unread. -/
theorem queues_are_fifo (t : TextMode) (k : Kbd) (s : Console) (actions : List QueueAction) :
    let sys := queueRun t (queueStart k s) actions
    sys.eventsRead ++ sys.kbd.events.contents = acceptedEvents t (queueStart k s) actions ∧
      sys.charsRead ++ sys.kbd.ascii.contents = acceptedChars t (queueStart k s) actions ∧
      ReadsDeliver t sys := by
  refine ⟨?_, ?_, ?_⟩
  · exact stored_run _ _ _ (events_driven t) (queueStart k s) trivial actions
  · exact stored_run _ _ _ (chars_driven t) (queueStart k s) trivial actions
  · exact readsDeliver t (ok_run (events_readBy t) (s := queueStart k s) trivial actions)
      (ok_run (chars_readBy t) (s := queueStart k s) trivial actions)

/- The event of a key that types a character. -/
def keyPress (code : Keycode) : KeyEvent := ⟨.press, code, 0, .usb, 1⟩

/- `a` is dispatched; `b` comes between the first and the second step of the reader. -/
def interruptedRead : List QueueAction :=
  [.readEvent, .dispatch (keyPress 98), .readEvent, .readChar, .readEvent]

/- After `a`, and then with the interrupted read. -/
def oneKeySystem : QueueSystem :=
  queueRun vgaText (queueStart kbdStatic biosConsole) [.dispatch (keyPress 97)]

def twoKeysSystem : QueueSystem :=
  queueRun vgaText (queueStart kbdStatic biosConsole) (.dispatch (keyPress 97) :: interruptedRead)

theorem queues_are_fifo_interrupted :
    twoKeysSystem.eventsRead = [keyPress 97] ∧ twoKeysSystem.kbd.events.contents = [keyPress 98] ∧
      twoKeysSystem.eventsRead ++ twoKeysSystem.kbd.events.contents =
        acceptedEvents vgaText (queueStart kbdStatic biosConsole)
          (.dispatch (keyPress 97) :: interruptedRead) := by
  have hcontents : oneKeySystem.kbd.events.contents = [keyPress 97] := by decide +kernel
  have hcount : oneKeySystem.eventReader.stage +
      interruptedRead.countP QueueAction.readsEvent = 3 := by decide +kernel
  obtain ⟨-, -, hdeliver⟩ := queues_are_fifo vgaText kbdStatic biosConsole [.dispatch (keyPress 97)]
  obtain ⟨hevents, -, -⟩ := queues_are_fifo vgaText kbdStatic biosConsole
    (.dispatch (keyPress 97) :: interruptedRead)
  exact ⟨(hdeliver.event (keyPress 97) [] interruptedRead hcontents hcount).1, by decide +kernel,
    hevents⟩

end CasseOS.Keyboard
